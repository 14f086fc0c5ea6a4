import Flora.Dispatcher.Specs
import Flora.Lib.Transition

/-! # The dispatcher as a transition system

One action is one `handle_cmd`, one pass of `discard_pending_calls`, or a close or destruction of
an adapter by its other owners. Queue order is added on top of this in `Flora.Service`. -/

namespace Flora

open TransitionSystem

namespace Dispatcher

inductive Action where
  | msg (caps : Caps) (sender : AdapterId) (now done : Nat)
  | erase (sender : AdapterId) (now : Nat)
  | expire (tp : Nat)
  | close (a : AdapterId)
  | destroy (a : AdapterId)

/-- A `shared_ptr` of the dispatcher keeps the adapter alive. -/
def held (d : Dispatcher) (a : AdapterId) : Bool :=
  d.namedAdapters.entries.any (fun entry => entry.2 == a) ||
    d.pendingCalls.any fun pc => pc.sender == a || pc.target == a

/-- A queued command keeps its sender alive, so only living senders have commands handled. -/
def step (e : Env) (d : Dispatcher) : Action → Option Dispatcher
  | .msg caps sender now done => if d.alive sender then handleMsg e now done caps sender d else none
  | .erase sender now => if d.alive sender then doEraseAdapter e now sender d else none
  | .expire tp => discardPendingCalls e tp d
  | .close a => some (d.close a)
  | .destroy a =>
    if d.alive a && !d.held a then
      some (d.setAdapter a { d.adapters a with closed := true, destroyed := true })
    else none

/-- A fresh dispatcher: empty maps, and adapters that are open and without a record. -/
def Initial (d : Dispatcher) : Prop :=
  ∃ adapters : AdapterId → Adapter, d = { adapters := adapters } ∧
    ∀ a, (adapters a).info = none ∧ (adapters a).closed = false ∧ (adapters a).destroyed = false

def system (e : Env) : System Dispatcher Action := System.ofStep Initial (step e)

theorem initial_default : Initial {} := ⟨fun _ => {}, rfl, fun _ => ⟨rfl, rfl, rfl⟩⟩

/-- A service with the monitor feature whose frames fit and whose writes succeed. -/
def sampleEnv : Env where
  msgBufSize := 0
  flags := 1
  capsSize _ caps := 64 * caps.length
  os _ := .success

/-- A library client's first message. -/
def sampleAuth (a : AdapterId) (name : String) (flags : Word) : Action :=
  .msg (RequestSerializer.serializeAuth floraVersion name 1 flags) a 0 0

theorem step_msg {e : Env} {d d' : Dispatcher} {caps : Caps} {sender : AdapterId} {now done : Nat}
    (h : step e d (.msg caps sender now done) = some d') :
    d.alive sender = true ∧ handleMsg e now done caps sender d = some d' := by
  simp only [step] at h
  split at h
  · exact ⟨‹_›, h⟩
  · cases h

theorem step_erase {e : Env} {d d' : Dispatcher} {sender : AdapterId} {now : Nat}
    (h : step e d (.erase sender now) = some d') :
    d.alive sender = true ∧ doEraseAdapter e now sender d = some d' := by
  simp only [step] at h
  split at h
  · exact ⟨‹_›, h⟩
  · cases h

theorem step_destroy {e : Env} {d d' : Dispatcher} {a : AdapterId}
    (h : step e d (.destroy a) = some d') : d.alive a = true ∧ d.held a = false ∧
      d' = d.setAdapter a { d.adapters a with closed := true, destroyed := true } := by
  simp only [step] at h
  split at h
  · rename_i hcond
    simp only [Bool.and_eq_true, Bool.not_eq_true'] at hcond
    cases h
    exact ⟨hcond.1, hcond.2, rfl⟩
  · cases h

/-- The members behind the command word of a message that reaches the handlers. -/
def request (d : Dispatcher) (cmd : Word) (caps : Caps) (sender : AdapterId) : Option Caps :=
  if isMonitor sender d = some false then
    caps.readWord.bind fun (c, rest) => if c = cmd then some rest else none
  else none

theorem readWord_of_request {d : Dispatcher} {cmd : Word} {caps rest : Caps} {sender : AdapterId}
    (h : d.request cmd caps sender = some rest) : caps.readWord = some (cmd, rest) := by
  unfold request at h
  split at h
  · obtain ⟨⟨c, rest'⟩, hread, hc⟩ := Option.bind_eq_some_iff.mp h
    dsimp only at hc
    split at hc
    · rename_i heq
      cases hc
      rw [hread, heq]
    · cases hc
  · cases h

theorem request_unique {d : Dispatcher} {cmd cmd' : Word} {caps rest : Caps} {sender : AdapterId}
    (h : d.request cmd caps sender = some rest) (hne : cmd' ≠ cmd) :
    d.request cmd' caps sender = none := by
  unfold request at h ⊢
  split at h
  · rename_i hgate
    rw [if_pos hgate]
    obtain ⟨⟨c, rest'⟩, hread, hc⟩ := Option.bind_eq_some_iff.mp h
    dsimp only at hc
    split at hc
    · rename_i heq
      rw [hread]
      exact if_neg fun heq' => hne (heq'.symm.trans heq)
    · cases hc
  · cases h

/-- A message closes its sender at the gate, or the handler of its command word runs and its
verdict decides whether the sender is closed. -/
theorem handleMsg_request {e : Env} {d d' : Dispatcher} {caps : Caps} {sender : AdapterId}
    {now done : Nat} (h : handleMsg e now done caps sender d = some d') :
    (d' = d.close sender ∧ ∀ cmd, cmd.toInt < msgHandlerCount → d.request cmd caps sender = none) ∨
    ∃ cmd rest d₁ ok, d.request cmd caps sender = some rest ∧
      msgHandler e now cmd.toInt rest sender d = some (d₁, ok) ∧
      d' = { (if ok then d₁ else d₁.close sender) with handleCmdTp := done } := by
  unfold handleMsg at h
  obtain ⟨monitor, hmon, h⟩ := Option.bind_eq_some_iff.mp h
  cases monitor with
  | true =>
    cases h
    refine .inl ⟨rfl, fun cmd _ => ?_⟩
    rw [request, if_neg (by rw [hmon]; nofun)]
  | false =>
    rw [if_neg Bool.false_ne_true] at h
    split at h
    · rename_i hread
      cases h
      refine .inl ⟨rfl, fun cmd _ => ?_⟩
      rw [request, if_pos hmon, hread]
      rfl
    · rename_i cmd rest hread
      split at h
      · rename_i hge
        cases h
        refine .inl ⟨rfl, fun c hc => ?_⟩
        rw [request, if_pos hmon, hread]
        refine if_neg ?_
        rintro rfl
        exact absurd hge (Int.not_le.mpr hc)
      · obtain ⟨⟨d₁, ok⟩, hh, heq⟩ := Option.map_eq_some_iff.mp h
        refine .inr ⟨cmd, rest, d₁, ok, ?_, hh, heq.symm⟩
        rw [request, if_pos hmon, hread]
        exact if_pos rfl

theorem msgHandler_closed {e : Env} {d d' : Dispatcher} {caps : Caps} {sender a : AdapterId}
    {now : Nat} {cmd : Int} {ok : Bool} (h : msgHandler e now cmd caps sender d = some (d', ok))
    (ha : (d.adapters a).closed = true) : (d'.adapters a).closed = true := by
  replace h := msgHandler_updates h
  induction h with
  | refl => exact ha
  | tail _ hup ih =>
    cases hup with
    | authenticate req => rw [(registryOnly_authenticate e req sender _).closed, ih]
    | purge name => rw [purge_rest, ih]
    | persist name msgtype args => rw [persistPost_rest, ih]
    | methods names _ _ => rw [(registryOnly_setInfo _ sender _).closed, ih]
    | write hws => exact hws.closed_mono ih
    | subscribe | unsubscribe | reply | refuse | enter => exact ih

theorem close_closed {d : Dispatcher} {a b : AdapterId} (ha : (d.adapters a).closed = true) :
    ((d.close b).adapters a).closed = true := by
  rw [close_adapters, ha]
  rfl

theorem step_closed {e : Env} {d d' : Dispatcher} {act : Action} {a : AdapterId}
    (h : step e d act = some d') (ha : (d.adapters a).closed = true) :
    (d'.adapters a).closed = true := by
  cases act with
  | msg caps sender now done =>
    obtain ⟨rfl, _⟩ | ⟨cmd, rest, d₁, ok, _, hh, rfl⟩ := handleMsg_request (step_msg h).2
    · exact close_closed ha
    · cases ok with
      | false => exact close_closed (msgHandler_closed hh ha)
      | true =>
        have hclosed : (d₁.adapters a).closed = true := msgHandler_closed hh ha
        exact hclosed
  | erase sender now =>
    obtain ⟨_, rfl⟩ | ⟨info, d₁, ws, _, hws, _, rfl⟩ := doEraseAdapter_spec (step_erase h).2
    · exact ha
    · have hwritten : (d₁.adapters a).closed = true :=
        hws.closed_mono (by rw [(registryOnly_eraseName info.name d).closed]; exact ha)
      rw [checkSubscriptions_rest]
      split <;> exact hwritten
  | expire tp =>
    obtain ⟨expired, rest, ws, _, hws, _, _, _⟩ := discardPendingCalls_spec h
    exact hws.closed_mono ha
  | close b =>
    cases h
    exact close_closed ha
  | destroy b =>
    obtain ⟨_, _, rfl⟩ := step_destroy h
    rw [setAdapter_adapters]
    split
    · rfl
    · exact ha

theorem msgHandler_alive {e : Env} {d d' : Dispatcher} {caps : Caps} {sender a : AdapterId}
    {now : Nat} {cmd : Int} {ok : Bool} (h : msgHandler e now cmd caps sender d = some (d', ok)) :
    d'.alive a = d.alive a := by
  replace h := msgHandler_updates h
  unfold alive
  induction h with
  | refl => rfl
  | tail _ hup ih =>
    rw [← ih]
    cases hup with
    | authenticate req => rw [(registryOnly_authenticate e req sender _).destroyed]
    | unsubscribe =>
      unfold setSubscribers
      split <;> rfl
    | purge name => rw [purge_rest]
    | persist name msgtype args => rw [persistPost_rest]
    | methods names _ _ => rw [(registryOnly_setInfo _ sender _).destroyed]
    | write hws => rw [hws.destroyed]
    | subscribe | reply | refuse | enter => rfl

theorem alive_close {d : Dispatcher} {a b : AdapterId} : (d.close b).alive a = d.alive a := by
  rw [alive, alive, close_adapters]

theorem checkSubscriptions_alive (now : Nat) (d : Dispatcher) :
    (checkSubscriptions now d).alive = d.alive := by
  rw [checkSubscriptions_rest]
  rfl

/-- Only its destruction ends the life of an adapter. -/
theorem step_alive {e : Env} {d d' : Dispatcher} {act : Action} {a : AdapterId}
    (h : step e d act = some d') :
    d'.alive a = d.alive a ∨ act = .destroy a ∧ d'.alive a = false := by
  cases act with
  | msg caps sender now done =>
    left
    obtain ⟨rfl, -⟩ | ⟨cmd, rest, d₁, ok, -, hh, rfl⟩ := handleMsg_request (step_msg h).2
    · exact alive_close
    · have hd₁ : d₁.alive a = d.alive a := msgHandler_alive hh
      cases ok with
      | false => exact alive_close.trans hd₁
      | true => exact hd₁
  | erase sender now =>
    left
    obtain ⟨-, rfl⟩ | ⟨info, d₁, ws, -, hws, -, rfl⟩ := doEraseAdapter_spec (step_erase h).2
    · rfl
    · have hd₁ : d₁.alive a = d.alive a := by
        rw [alive, hws.destroyed, (registryOnly_eraseName info.name d).destroyed]
        rfl
      rw [checkSubscriptions_alive]
      split <;> exact hd₁
  | expire tp =>
    left
    obtain ⟨expired, rest, ws, -, hws, -⟩ := discardPendingCalls_spec h
    rw [alive, hws.destroyed]
    rfl
  | close b =>
    cases h
    exact .inl alive_close
  | destroy b =>
    obtain ⟨-, -, rfl⟩ := step_destroy h
    rw [alive, setAdapter_adapters]
    split
    · rename_i hab
      exact .inr ⟨by rw [hab], rfl⟩
    · exact .inl rfl

end Dispatcher

end Flora
