import Flora.Dispatcher.Subscriptions
import Flora.Dispatcher.PendingCalls

/-! # The service: poll threads and the dispatcher thread

`SocketPoll` and the loop of `Dispatcher::handle_cmds` around the handlers. One action is one
section under `cmd_mutex`, one `handle_cmd`, or one step a poll thread takes without the lock. Any
number of poll threads is covered, as the actions of different adapters interleave freely. -/

namespace Flora

open TransitionSystem

/-- An entry of `cmd_packets`: a null container is an erase command. -/
abbrev CmdPacket := CapsPtr × AdapterId

/-- How far the poll thread of an adapter is. `delete_adapter` closes it (`closed`), reads its
`info` (`erasing` if that is not null) and pushes the erase command (`deleted`). -/
inductive Phase where
  | absent
  | reading
  | closed
  | erasing
  | deleted
  deriving DecidableEq, Repr

/-- Where the dispatcher thread stands in `handle_cmds`. -/
inductive Pc where
  | locked
  | handling
  | waiting
  | exited
  deriving DecidableEq, Repr

/-- History of one `handle_cmd` or, without a command, of one `discard_pending_calls`: the post
that was accepted with its frame, and the writes that were made. -/
structure Entry where
  cmd : Option CmdPacket
  post : Option (PostReq × Caps)
  writes : List Write

structure Service where
  disp : Dispatcher := {}
  phase : AdapterId → Phase := fun _ => .absent
  working : Bool := true
  cmdPackets : List CmdPacket := []
  /-- `pending_cmds`, split at the iterator of the loop. -/
  doneCmds : List CmdPacket := []
  pendingCmds : List CmdPacket := []
  pc : Pc := .locked
  /-- A notification for the waiting dispatcher thread is due. -/
  notified : Bool := false
  /-- History: every push on `cmd_packets`. -/
  pushes : List CmdPacket := []
  /-- History: what the dispatcher thread has done. -/
  journal : List Entry := []

namespace Service

inductive Action where
  | accept (a : AdapterId)
  | put (a : AdapterId) (caps : Caps)
  | closeAdapter (a : AdapterId)
  | checkInfo (a : AdapterId)
  | pushErase (a : AdapterId)
  | destroy (a : AdapterId)
  | loop (tp : Nat)
  | handle (now done : Nat)
  | wake
  | close

variable (e : Env) (s : Service)

def setPhase (a : AdapterId) (p : Phase) : Service :=
  { s with phase := Function.update s.phase a p }

/-- A push with its `notify_one`. -/
def push (p : CmdPacket) : Service :=
  { s with
    cmdPackets := s.cmdPackets ++ [p]
    notified := s.notified || s.pc = .waiting
    pushes := s.pushes ++ [p] }

/-- The dispatcher thread went from `s.disp` to `d`. -/
def record (cmd : Option CmdPacket) (post : Option (PostReq × Caps)) (d : Dispatcher) : Service :=
  { s with disp := d, journal := s.journal ++ [⟨cmd, post, d.out.drop s.disp.out.length⟩] }

/-- A queue entry keeps its adapter alive. -/
def queued (a : AdapterId) : Bool :=
  (s.cmdPackets ++ s.doneCmds ++ s.pendingCmds).any fun p => p.2 == a

/-- The pass of `handle_cmds` that starts at `loop_begin_locked`. -/
def loopLocked (tp : Nat) : Option Service :=
  if !s.working then some { s with pc := .exited }
  else
    let pending := s.cmdPackets ++ s.pendingCmds
    if pending.isEmpty then
      (Dispatcher.step e s.disp (.expire tp)).map fun d =>
        { s.record none none d with pc := .waiting, notified := false }
    else some { s with cmdPackets := [], doneCmds := [], pendingCmds := pending, pc := .handling }

/-- What `handle_cmd` does with a packet. -/
def command (now done : Nat) : CmdPacket → Dispatcher.Action
  | (none, a) => .erase a now
  | (some caps, a) => .msg caps a now done

/-- The post that a packet makes. -/
def commandPost (d : Dispatcher) : CmdPacket → Option (PostReq × Caps)
  | (none, _) => none
  | (some caps, a) => d.handledPost caps a

/-- One turn of the loop over the batch; at its end the batch is cleared and the lock taken. -/
def handleNext (now done : Nat) : Option Service :=
  match s.pendingCmds with
  | [] => some { s with doneCmds := [], pc := .locked }
  | p :: rest =>
    (Dispatcher.step e s.disp (command now done p)).map fun d =>
      { s.record (some p) (commandPost s.disp p) d with
        doneCmds := s.doneCmds ++ [p], pendingCmds := rest }

def step : Action → Option Service
  | .accept a =>
    if s.phase a = .absent ∧ s.disp.alive a then some (s.setPhase a .reading) else none
  | .put a caps => if s.phase a = .reading then some (s.push (some caps, a)) else none
  | .closeAdapter a =>
    if s.phase a = .reading then some { s.setPhase a .closed with disp := s.disp.close a } else none
  | .checkInfo a =>
    if s.phase a = .closed then
      some (s.setPhase a (if (s.disp.adapters a).info = none then .deleted else .erasing))
    else none
  | .pushErase a =>
    if s.phase a = .erasing then some ((s.push (none, a)).setPhase a .deleted) else none
  | .destroy a =>
    if s.phase a = .deleted ∧ s.queued a = false then
      (Dispatcher.step e s.disp (.destroy a)).map fun d => { s with disp := d }
    else none
  | .loop tp => if s.pc = .locked then loopLocked e s tp else none
  | .handle now done => if s.pc = .handling then handleNext e s now done else none
  | .wake => if s.pc = .waiting then some { s with pc := .locked, notified := false } else none
  | .close => some { s with working := false, notified := s.notified || s.pc = .waiting }

/-- A service that has just been started: a fresh dispatcher and no connections. -/
def Initial : Prop := ∃ d, Dispatcher.Initial d ∧ s = { disp := d }

def system : System Service Action := System.ofStep Initial (step e)

theorem initial_default : Initial {} := ⟨{}, Dispatcher.initial_default, rfl⟩

variable {e : Env} {s s' : Service}

theorem step_accept {a : AdapterId} (h : step e s (.accept a) = some s') :
    s.phase a = .absent ∧ s.disp.alive a = true ∧ s' = s.setPhase a .reading := by
  simp only [step, Option.ite_none_right_eq_some, Option.some.injEq] at h
  exact ⟨h.1.1, h.1.2, h.2.symm⟩

theorem step_put {a : AdapterId} {caps : Caps} (h : step e s (.put a caps) = some s') :
    s.phase a = .reading ∧ s' = s.push (some caps, a) := by
  simp only [step, Option.ite_none_right_eq_some, Option.some.injEq] at h
  exact ⟨h.1, h.2.symm⟩

theorem step_closeAdapter {a : AdapterId} (h : step e s (.closeAdapter a) = some s') :
    s.phase a = .reading ∧ s' = { s.setPhase a .closed with disp := s.disp.close a } := by
  simp only [step, Option.ite_none_right_eq_some, Option.some.injEq] at h
  exact ⟨h.1, h.2.symm⟩

theorem step_checkInfo {a : AdapterId} (h : step e s (.checkInfo a) = some s') :
    s.phase a = .closed ∧
      s' = s.setPhase a (if (s.disp.adapters a).info = none then .deleted else .erasing) := by
  simp only [step, Option.ite_none_right_eq_some, Option.some.injEq] at h
  exact ⟨h.1, h.2.symm⟩

theorem step_pushErase {a : AdapterId} (h : step e s (.pushErase a) = some s') :
    s.phase a = .erasing ∧ s' = (s.push (none, a)).setPhase a .deleted := by
  simp only [step, Option.ite_none_right_eq_some, Option.some.injEq] at h
  exact ⟨h.1, h.2.symm⟩

theorem step_destroy {a : AdapterId} (h : step e s (.destroy a) = some s') :
    s.phase a = .deleted ∧ s.queued a = false ∧
      ∃ d, Dispatcher.step e s.disp (.destroy a) = some d ∧ s' = { s with disp := d } := by
  simp only [step, Option.ite_none_right_eq_some] at h
  obtain ⟨d, hd, rfl⟩ := Option.map_eq_some_iff.mp h.2
  exact ⟨h.1.1, h.1.2, d, hd, rfl⟩

theorem step_loop {tp : Nat} (h : step e s (.loop tp) = some s') : s.pc = .locked ∧
    ((s.working = false ∧ s' = { s with pc := .exited }) ∨
      (s.cmdPackets = [] ∧ s.pendingCmds = [] ∧
        ∃ d, Dispatcher.step e s.disp (.expire tp) = some d ∧
          s' = { s.record none none d with pc := .waiting, notified := false }) ∨
      s' = { s with
        cmdPackets := [], doneCmds := [], pendingCmds := s.cmdPackets ++ s.pendingCmds
        pc := .handling }) := by
  simp only [step, Option.ite_none_right_eq_some] at h
  obtain ⟨hpc, h⟩ := h
  refine ⟨hpc, ?_⟩
  unfold loopLocked at h
  split at h
  · rename_i hworking
    cases h
    exact .inl ⟨by simpa using hworking, rfl⟩
  · dsimp only at h
    split at h
    · rename_i hempty
      obtain ⟨d, hd, rfl⟩ := Option.map_eq_some_iff.mp h
      obtain ⟨hcmds, hpending⟩ := List.append_eq_nil_iff.mp (List.isEmpty_iff.mp hempty)
      exact .inr (.inl ⟨hcmds, hpending, d, hd, rfl⟩)
    · cases h
      exact .inr (.inr rfl)

theorem step_handle {now done : Nat} (h : step e s (.handle now done) = some s') :
    s.pc = .handling ∧
    ((s.pendingCmds = [] ∧ s' = { s with doneCmds := [], pc := .locked }) ∨
      ∃ p rest d, s.pendingCmds = p :: rest ∧
        Dispatcher.step e s.disp (command now done p) = some d ∧
        s' = { s.record (some p) (commandPost s.disp p) d with
          doneCmds := s.doneCmds ++ [p], pendingCmds := rest }) := by
  simp only [step, Option.ite_none_right_eq_some] at h
  obtain ⟨hpc, h⟩ := h
  refine ⟨hpc, ?_⟩
  unfold handleNext at h
  split at h
  · rename_i hnil
    cases h
    exact .inl ⟨hnil, rfl⟩
  · rename_i p rest hcons
    obtain ⟨d, hd, rfl⟩ := Option.map_eq_some_iff.mp h
    exact .inr ⟨p, rest, d, hcons, hd, rfl⟩

theorem step_wake (h : step e s .wake = some s') :
    s.pc = .waiting ∧ s' = { s with pc := .locked, notified := false } := by
  simp only [step, Option.ite_none_right_eq_some, Option.some.injEq] at h
  exact ⟨h.1, h.2.symm⟩

theorem command_msg {p : CmdPacket} {caps : Caps} {a : AdapterId} {now done now' done' : Nat}
    (h : command now done p = .msg caps a now' done') : now = now' ∧ done = done' := by
  obtain ⟨caps' | caps', b⟩ := p <;> cases h
  exact ⟨rfl, rfl⟩

/-- The dispatcher does nothing or takes one step; a message is handled at the time of the action. -/
theorem step_disp {act : Action} (h : step e s act = some s') :
    s'.disp = s.disp ∨ ∃ x, Dispatcher.step e s.disp x = some s'.disp ∧
      ∀ caps a now done, x = .msg caps a now done → act = .handle now done := by
  cases act with
  | accept a =>
    obtain ⟨_, _, rfl⟩ := step_accept h
    exact .inl rfl
  | put a caps =>
    obtain ⟨_, rfl⟩ := step_put h
    exact .inl rfl
  | closeAdapter a =>
    obtain ⟨_, rfl⟩ := step_closeAdapter h
    exact .inr ⟨.close a, rfl, by rintro _ _ _ _ ⟨⟩⟩
  | checkInfo a =>
    obtain ⟨_, rfl⟩ := step_checkInfo h
    exact .inl rfl
  | pushErase a =>
    obtain ⟨_, rfl⟩ := step_pushErase h
    exact .inl rfl
  | destroy a =>
    obtain ⟨_, _, d, hd, rfl⟩ := step_destroy h
    exact .inr ⟨.destroy a, hd, by rintro _ _ _ _ ⟨⟩⟩
  | loop tp =>
    obtain ⟨_, ⟨_, rfl⟩ | ⟨_, _, d, hd, rfl⟩ | rfl⟩ := step_loop h
    · exact .inl rfl
    · exact .inr ⟨.expire tp, hd, by rintro _ _ _ _ ⟨⟩⟩
    · exact .inl rfl
  | handle now done =>
    obtain ⟨_, ⟨_, rfl⟩ | ⟨p, rest, d, _, hd, rfl⟩⟩ := step_handle h
    · exact .inl rfl
    · refine .inr ⟨command now done p, hd, fun caps a now' done' heq => ?_⟩
      obtain ⟨rfl, rfl⟩ := command_msg heq
      rfl
  | wake =>
    obtain ⟨_, rfl⟩ := step_wake h
    exact .inl rfl
  | close =>
    cases h
    exact .inl rfl

/-- The journal grows by what the dispatcher thread does: a pass over the pending calls, or one
command. -/
theorem step_record {act : Action} (h : step e s act = some s') :
    (s'.journal = s.journal ∧ s'.disp.calls = s.disp.calls ∧ s'.disp.out = s.disp.out) ∨
    (∃ tp, Dispatcher.step e s.disp (.expire tp) = some s'.disp ∧
      s'.journal = s.journal ++ [⟨none, none, s'.disp.out.drop s.disp.out.length⟩]) ∨
    ∃ p now done, Dispatcher.step e s.disp (command now done p) = some s'.disp ∧
      s'.journal = s.journal ++
        [⟨some p, commandPost s.disp p, s'.disp.out.drop s.disp.out.length⟩] := by
  cases act with
  | accept a =>
    obtain ⟨_, _, rfl⟩ := step_accept h
    exact .inl ⟨rfl, rfl, rfl⟩
  | put a caps =>
    obtain ⟨_, rfl⟩ := step_put h
    exact .inl ⟨rfl, rfl, rfl⟩
  | closeAdapter a =>
    obtain ⟨_, rfl⟩ := step_closeAdapter h
    exact .inl ⟨rfl, rfl, rfl⟩
  | checkInfo a =>
    obtain ⟨_, rfl⟩ := step_checkInfo h
    exact .inl ⟨rfl, rfl, rfl⟩
  | pushErase a =>
    obtain ⟨_, rfl⟩ := step_pushErase h
    exact .inl ⟨rfl, rfl, rfl⟩
  | destroy a =>
    obtain ⟨_, _, d, hd, rfl⟩ := step_destroy h
    obtain ⟨_, _, rfl⟩ := Dispatcher.step_destroy hd
    exact .inl ⟨rfl, rfl, rfl⟩
  | loop tp =>
    obtain ⟨_, ⟨_, rfl⟩ | ⟨_, _, d, hd, rfl⟩ | rfl⟩ := step_loop h
    · exact .inl ⟨rfl, rfl, rfl⟩
    · exact .inr (.inl ⟨tp, hd, rfl⟩)
    · exact .inl ⟨rfl, rfl, rfl⟩
  | handle now done =>
    obtain ⟨_, ⟨_, rfl⟩ | ⟨p, rest, d, _, hd, rfl⟩⟩ := step_handle h
    · exact .inl ⟨rfl, rfl, rfl⟩
    · exact .inr (.inr ⟨p, now, done, hd, rfl⟩)
  | wake =>
    obtain ⟨_, rfl⟩ := step_wake h
    exact .inl ⟨rfl, rfl, rfl⟩
  | close =>
    cases h
    exact .inl ⟨rfl, rfl, rfl⟩

/-- The service runs the dispatcher system. -/
theorem disp_reachable (h : (system e).Reachable s) : (Dispatcher.system e).Reachable s.disp := by
  apply h.invariant (P := fun s => (Dispatcher.system e).Reachable s.disp)
  · rintro s ⟨d, hd, rfl⟩
    exact .start hd
  · intro s act t hs hst
    obtain heq | ⟨x, hx, -⟩ := step_disp hst
    · rw [heq]
      exact hs
    · exact hs.next hx

end Service

end Flora
