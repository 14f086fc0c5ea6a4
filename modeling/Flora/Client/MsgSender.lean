import Flora.Client.Async
import Flora.Client.Commands

/-! # Who sent the message at hand

`MsgSender` reads two thread-local variables of the receive thread. The parsers of posts and calls
set both, the parser of replies sets the tag only. The receive thread handles one message after the
other, while other threads make calls and close the client. -/

namespace Flora

open TransitionSystem

/-- A callback that runs on the receive thread: the message it runs for, and what `MsgSender` says
then. -/
structure Invocation where
  message : Received
  tag : BitVec 64
  name : String

structure MsgThread where
  client : Client := {}
  /-- `mon_callback` is not null. -/
  monitored : Bool := false
  /-- The calls that were made with a callback that is not empty. -/
  hasCallback : Nat → Bool := fun _ => true
  /-- `cli_callback` is not null, which it is at the end of `connect`. -/
  cliCallback : Bool := false
  /-- `Client::tag` -/
  tag : BitVec 64 := 0
  /-- `Client::sender_name` -/
  senderName : String := ""
  /-- A handler has returned false. -/
  stopped : Bool := false
  /-- History: the messages that were handled. -/
  received : List Received := []
  /-- History: the callbacks that were invoked for a message. -/
  invoked : List Invocation := []

/-- Tag and name of the client a message comes from; an error reply is from the service, which has
no name. -/
def Received.origin : Received → Option (BitVec 64 × String)
  | .post _ _ _ tag cliname => some (tag, cliname)
  | .call _ _ _ tag cliname => some (tag, cliname)
  | .reply _ _ response tag => some (tag, response.elim "" Response.extra)
  | _ => none

def Received.cliname : Received → Option String
  | .post _ _ _ _ cliname => some cliname
  | .call _ _ _ _ cliname => some cliname
  | _ => none

namespace MsgThread

/-- `recv` hands a message to `handle_cmd_after_auth`; `client` is what other threads do. -/
inductive Action where
  | client (act : Client.Action)
  | connected
  | recv (cmd : Word) (resp : Caps)

variable (s : MsgThread)

/-- `MsgSender::tag` and `MsgSender::name` in a callback for `m`. -/
def invoke (m : Received) : MsgThread :=
  { s with invoked := s.invoked ++ [⟨m, s.tag, s.senderName⟩] }

/-- The request whose callback is called when a reply with this id is received. -/
def asyncRequest (id : Word) : Option PendingRequest :=
  (s.client.pendingRequests.find? (·.id == id)).filter fun p => !p.blocking && s.hasCallback p.key

def handle (m : Received) : MsgThread :=
  match m with
  | .post _ _ _ tag cliname =>
    let s := { s with tag := tag, senderName := cliname }
    if s.cliCallback then s.invoke m else s
  | .call _ _ _ tag cliname =>
    let s := { s with tag := tag, senderName := cliname }
    if s.cliCallback then s.invoke m else s
  | .reply id rescode response tag =>
    let called := (s.asyncRequest id).isSome
    let s := { s with
      tag := tag
      client := s.client.recordReply id rescode response s.received.length }
    if called then s.invoke m else s
  | _ => s

/-- A handler that fails ends the receive thread: no callback reads what it has set. -/
def recv (cmd : Word) (resp : Caps) : MsgThread :=
  match Client.handleCmdAfterAuth s.monitored cmd resp with
  | .error _ => { s with stopped := true }
  | .ok m => { s.handle m with received := s.received ++ [m] }

def step : Action → Option MsgThread
  | .client (.recvReply _ _) => none
  | .client act => (s.client.step act).map ({ s with client := · })
  | .connected => some { s with cliCallback := true }
  | .recv cmd resp => if s.stopped then none else some (s.recv cmd resp)

/-- The receive thread of a client that has been authenticated. -/
def Initial : Prop := ∃ monitored hasCallback, s = { monitored, hasCallback }

def system : System MsgThread Action := System.ofStep Initial step

/-- `MsgSender` has described the message of every callback. -/
def Described : Prop := ∀ i ∈ s.invoked, i.message.origin = some (i.tag, i.name)

/-- The name in the last post or call, whoever it was from. -/
def lastName (ms : List Received) : String := (ms.filterMap Received.cliname).getLast?.getD ""

/-- A reply whose callback is called is from a client of the same name as the last post or call
before it. -/
def SameName : Action → Prop
  | .recv cmd resp => ∀ id rescode response tag,
    Client.handleCmdAfterAuth s.monitored cmd resp = .ok (.reply id rescode response tag) →
    s.asyncRequest id ≠ none → response.elim "" Response.extra = lastName s.received
  | _ => True

def Named : Prop := s.senderName = lastName s.received

variable {s} {s' : MsgThread} {m : Received}

theorem lastName_concat (ms : List Received) (m : Received) :
    lastName (ms ++ [m]) = m.cliname.getD (lastName ms) := by
  unfold lastName
  rw [List.filterMap_append]
  cases hm : m.cliname <;> simp [hm]

theorem described_invoke (h : Described s) :
    Described (s.invoke m) ↔ m.origin = some (s.tag, s.senderName) := by
  constructor
  · exact fun hall => hall ⟨m, s.tag, s.senderName⟩ (List.mem_append_right _ (List.mem_singleton_self _))
  · intro hm i hi
    obtain hi | hi := List.mem_append.mp hi
    · exact h i hi
    · rw [List.mem_singleton.mp hi]
      exact hm

theorem handle_senderName (s : MsgThread) (m : Received) :
    (s.handle m).senderName = m.cliname.getD s.senderName := by
  cases m with
  | post name msgtype args tag cliname =>
    dsimp only [handle]
    split <;> rfl
  | call name args id tag cliname =>
    dsimp only [handle]
    split <;> rfl
  | reply id rescode response tag =>
    dsimp only [handle]
    split <;> rfl
  | _ => rfl

theorem described_handle_iff (h : Described s) : Described (s.handle m) ↔
    ∀ id rescode response tag, m = .reply id rescode response tag → s.asyncRequest id ≠ none →
      response.elim "" Response.extra = s.senderName := by
  unfold handle
  split
  · rename_i name msgtype args tag cliname
    refine iff_of_true ?_ nofun
    dsimp only
    split
    · exact (described_invoke (s := { s with tag := tag, senderName := cliname }) h).mpr rfl
    · exact h
  · rename_i name args id tag cliname
    refine iff_of_true ?_ nofun
    dsimp only
    split
    · exact (described_invoke (s := { s with tag := tag, senderName := cliname }) h).mpr rfl
    · exact h
  · rename_i id rescode response tag
    dsimp only
    split
    · rename_i hcalled
      rw [described_invoke (s := { s with
        tag := tag
        client := s.client.recordReply id rescode response s.received.length }) h]
      simp only [Received.origin, Option.some.injEq, Prod.mk.injEq, true_and]
      constructor
      · intro hname id' rescode' response' tag' heq _
        cases heq
        exact hname
      · exact fun hall => hall id rescode response tag rfl (Option.isSome_iff_ne_none.mp hcalled)
    · rename_i hcalled
      refine iff_of_true h ?_
      intro id' rescode' response' tag' heq hne
      cases heq
      exact absurd (Option.isSome_iff_ne_none.mpr hne) hcalled
  · rename_i hreply
    exact iff_of_true h fun id rescode response tag heq => absurd heq (hreply id rescode response tag)

theorem described_recv_iff (h : Described s) (hn : Named s) (cmd : Word) (resp : Caps) :
    Described (s.recv cmd resp) ↔ SameName s (.recv cmd resp) := by
  unfold recv
  split
  · rename_i hparse
    refine iff_of_true h fun id rescode response tag heq => ?_
    cases hparse.symm.trans heq
  · rename_i m hparse
    have hiff := described_handle_iff (m := m) h
    rw [show s.senderName = lastName s.received from hn] at hiff
    refine hiff.trans (forall_congr' fun id => forall_congr' fun rescode => forall_congr' fun response =>
      forall_congr' fun tag => imp_congr_left ?_)
    rw [hparse, Except.ok.injEq]

theorem Named.recv (hn : Named s) (cmd : Word) (resp : Caps) : Named (s.recv cmd resp) := by
  unfold MsgThread.recv
  split
  · exact hn
  · change (s.handle _).senderName = lastName (s.received ++ [_])
    rw [lastName_concat, handle_senderName, show s.senderName = lastName s.received from hn]

theorem step_client {act : Client.Action} (h : s.step (.client act) = some s') :
    ∃ c, s' = { s with client := c } := by
  unfold step at h
  split at h
  · cases h
  · obtain ⟨c, -, rfl⟩ := Option.map_eq_some_iff.mp h
    exact ⟨c, rfl⟩
  · contradiction
  · contradiction

theorem described_step_iff {act : Action} (hs : Described s ∧ Named s)
    (h : s.step act = some s') : Named s' ∧ (Described s' ↔ SameName s act) := by
  obtain ⟨hd, hn⟩ := hs
  cases act with
  | client act =>
    obtain ⟨c, rfl⟩ := step_client h
    exact ⟨hn, iff_of_true hd trivial⟩
  | connected =>
    cases h
    exact ⟨hn, iff_of_true hd trivial⟩
  | recv cmd resp =>
    simp only [step, Option.ite_none_left_eq_some, Option.some.injEq] at h
    obtain ⟨-, rfl⟩ := h
    exact ⟨hn.recv cmd resp, described_recv_iff hd hn cmd resp⟩

/-- Along a run `MsgSender` describes the message of every callback exactly if every reply with a
callback is from a client of the same name as the last post or call before it. -/
theorem described_run_iff {s₀ : MsgThread} (h₀ : Initial s₀) {as : List Action}
    (h : execute step s₀ as = some s) :
    (∀ bs s', bs <+: as → execute step s₀ bs = some s' → Described s') ↔
      (system.guard SameName).Run s₀ as s := by
  apply execute_guard_iff (I := fun s => Described s ∧ Named s)
  · exact fun s hs => hs.1
  · rintro s t act - hs hst hname
    obtain ⟨hn, hiff⟩ := described_step_iff hs hst
    exact ⟨hiff.mpr hname, hn⟩
  · rintro s t act - hs hst hd
    exact (described_step_iff hs hst).2.mp hd
  · obtain ⟨monitored, hasCallback, rfl⟩ := h₀
    exact ⟨nofun, rfl⟩
  · exact h

/-- A post by a client `name`, and a reply by the client `b` to the call made before. -/
def sampleMessages (name : String) : List Action :=
  [.connected, .recv cmdPostResp (ResponseSerializer.serializePost "p" 0 none 7 name).tail,
    .client (.beginCall false "m" none "b" 0 true), .client (.send true),
    .recv cmdReplyResp (ResponseSerializer.serializeReply 1 cliSuccess (some ⟨0, none, "b"⟩) 9).tail]

theorem described_run_same_name : ∃ s, execute step {} (sampleMessages "b") = some s ∧
    s.invoked.length = 2 ∧ Described s := by
  have hrun : execute step {} (sampleMessages "b") = some _ := rfl
  refine ⟨_, hrun, rfl, (described_run_iff ⟨_, _, rfl⟩ hrun).mpr ?_ _ _ (List.prefix_refl _) hrun⟩
  refine .cons ⟨trivial, rfl⟩ (.cons ⟨?_, rfl⟩ (.cons ⟨trivial, rfl⟩ (.cons ⟨trivial, rfl⟩
    (.cons ⟨?_, rfl⟩ (.nil _)))))
  · intro id rescode response tag hparse
    cases hparse
  · intro id rescode response tag hparse _
    cases hparse
    rfl

/-- The callback of the reply sees the name of the client that posted before. -/
theorem described_fails_reply : ¬ ∀ s, system.Reachable s → Described s := by
  intro h
  have hrun : execute step {} (sampleMessages "a") = some _ := rfl
  have hd := h _ (execute_reachable ⟨_, _, rfl⟩ hrun) ⟨.reply 1 cliSuccess (some ⟨0, none, "b"⟩) 9, 9, "a"⟩
    (List.mem_of_getElem? (i := 1) rfl)
  exact absurd hd (by decide)

end MsgThread

end Flora
