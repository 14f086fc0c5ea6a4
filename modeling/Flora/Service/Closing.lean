import Flora.Service.Queue

/-! # What a closed service still does

`Dispatcher::close` only clears `working` and wakes the thread, so that `handle_cmds` finishes the
batch it has spliced out and leaves at its next look at `working`. The commands that are still in
the queue are dropped, and so are those that the poll threads push from then on. -/

namespace Flora

open TransitionSystem

namespace Service

def Action.own : Action → Bool
  | .loop _ => true
  | .handle _ _ => true
  | .wake => true
  | _ => false

/-- What is left to do for the dispatcher thread of a closed service. -/
def leftToDo (s : Service) : Nat :=
  match s.pc with
  | .handling => s.pendingCmds.length + 2
  | .waiting => 2
  | .locked => 1
  | .exited => 0

/-- The service has been closed: `batch` is what the thread had handled or taken by then, and the
queue only grows. -/
structure Closing (batch queue : List CmdPacket) (s : Service) : Prop where
  closed : s.working = false
  batch : s.handled ++ s.pendingCmds = batch
  idle : s.pc ≠ .handling → s.pendingCmds = []
  queue : queue <+: s.cmdPackets
  woken : s.pc = .waiting → s.notified = true

variable {e : Env} {s s' : Service} {batch queue : List CmdPacket}

theorem Closing.of_eq (h : Closing batch queue s) (hworking : s'.working = s.working)
    (hjournal : s'.journal = s.journal) (hpending : s'.pendingCmds = s.pendingCmds)
    (hpc : s'.pc = s.pc) (hqueue : s.cmdPackets <+: s'.cmdPackets)
    (hnotified : s.notified = true → s'.notified = true) : Closing batch queue s' where
  closed := hworking.trans h.closed
  batch := by
    rw [handled, hjournal, hpending]
    exact h.batch
  idle hne := hpending.trans (h.idle (hpc ▸ hne))
  queue := h.queue.trans hqueue
  woken hwait := hnotified (h.woken (hpc ▸ hwait))

theorem Closing.push (h : Closing batch queue s) (p : CmdPacket) : Closing batch queue (s.push p) :=
  h.of_eq rfl rfl rfl rfl (List.prefix_append _ _) fun hnot => by
    rw [Service.push, hnot, Bool.true_or]

/-- A step of the other threads; the dispatcher thread keeps what it has. -/
theorem closing_step {act : Action} (hs : Closing batch queue s) (h : step e s act = some s') :
    Closing batch queue s' ∧ s'.leftToDo + (if act.own then 1 else 0) ≤ s.leftToDo := by
  have hsame {t : Service} (hpc : t.pc = s.pc) (hpending : t.pendingCmds = s.pendingCmds) :
      t.leftToDo + 0 ≤ s.leftToDo := by
    rw [leftToDo, leftToDo, hpc, hpending]
    exact Nat.le_refl _
  cases act with
  | accept a =>
    obtain ⟨-, -, rfl⟩ := step_accept h
    exact ⟨hs.of_eq rfl rfl rfl rfl List.prefix_rfl id, hsame rfl rfl⟩
  | put a caps =>
    obtain ⟨-, rfl⟩ := step_put h
    exact ⟨hs.push _, hsame rfl rfl⟩
  | closeAdapter a =>
    obtain ⟨-, rfl⟩ := step_closeAdapter h
    exact ⟨hs.of_eq rfl rfl rfl rfl List.prefix_rfl id, hsame rfl rfl⟩
  | checkInfo a =>
    obtain ⟨-, rfl⟩ := step_checkInfo h
    exact ⟨hs.of_eq rfl rfl rfl rfl List.prefix_rfl id, hsame rfl rfl⟩
  | pushErase a =>
    obtain ⟨-, rfl⟩ := step_pushErase h
    exact ⟨(hs.push (none, a)).of_eq rfl rfl rfl rfl List.prefix_rfl id, hsame rfl rfl⟩
  | destroy a =>
    obtain ⟨-, -, d, -, rfl⟩ := step_destroy h
    exact ⟨hs.of_eq rfl rfl rfl rfl List.prefix_rfl id, hsame rfl rfl⟩
  | loop tp =>
    simp only [step, loopLocked, hs.closed, Option.ite_none_right_eq_some] at h
    obtain ⟨hpc, hs'⟩ := h
    cases hs'
    refine ⟨⟨rfl, hs.batch, fun _ => hs.idle (by simp [hpc]), hs.queue, by simp⟩, ?_⟩
    simp [leftToDo, hpc, Action.own]
  | handle now done =>
    obtain ⟨hpc, ⟨hnil, rfl⟩ | ⟨p, rest, d, hcons, -, rfl⟩⟩ := step_handle h
    · refine ⟨⟨hs.closed, hs.batch, fun _ => hnil, hs.queue, by simp⟩, ?_⟩
      simp [leftToDo, hpc, Action.own]
    · refine ⟨⟨hs.closed, ?_, fun hne => absurd hpc hne, hs.queue, fun hwait => ?_⟩, ?_⟩
      · rw [← hs.batch, hcons]
        simp [handled, record]
      · cases hpc.symm.trans hwait
      · simp [leftToDo, record, hpc, hcons, Action.own]
  | wake =>
    obtain ⟨hpc, rfl⟩ := step_wake h
    refine ⟨⟨hs.closed, hs.batch, fun _ => hs.idle (by simp [hpc]), hs.queue, by simp⟩, ?_⟩
    simp [leftToDo, hpc, Action.own]
  | close =>
    cases h
    refine ⟨hs.of_eq hs.closed.symm rfl rfl rfl List.prefix_rfl fun hnot => ?_, hsame rfl rfl⟩
    exact Bool.or_eq_true_iff.mpr (.inl hnot)

theorem closing_start (h : (system e).Reachable s) {t : Service}
    (hclose : step e s .close = some t) :
    Closing (s.handled ++ s.pendingCmds) s.cmdPackets t ∧
      t.leftToDo ≤ s.pendingCmds.length + 2 := by
  cases hclose
  refine ⟨⟨rfl, rfl, (inOrder_reachable h).batch, List.prefix_rfl, fun hwait => ?_⟩, ?_⟩
  · exact Bool.or_eq_true_iff.mpr (.inr (decide_eq_true hwait))
  · unfold leftToDo
    split <;> simp

/-- After `close` the dispatcher thread handles nothing but the rest of its batch, in order. It
leaves after at most two steps more than that, with every command of the batch handled and every
other one left in the queue; it does not wait without a wake-up. -/
theorem closed_drains_batch {t : Service} {as : List Action} (h : (system e).Reachable s)
    (hclose : step e s .close = some t) (hrun : (system e).Run t as s') :
    s'.handled ++ s'.pendingCmds = s.handled ++ s.pendingCmds ∧
    as.countP Action.own ≤ s.pendingCmds.length + 2 ∧
    (s'.pc = .waiting → s'.notified = true) ∧
    (s'.pc = .exited → s'.handled = s.handled ++ s.pendingCmds ∧
      s'.pushes = s'.handled ++ s'.cmdPackets ∧ s.cmdPackets <+: s'.cmdPackets) := by
  obtain ⟨hstart, hleft⟩ := closing_start h hclose
  have hend : Closing (s.handled ++ s.pendingCmds) s.cmdPackets s' :=
    hrun.invariant hstart fun _ _ _ hs hst => (closing_step hs hst).1
  have hcount := hrun.countP_add_le (p := Action.own) hstart
    (fun _ _ _ hs hst => (closing_step hs hst).1) fun _ _ _ hs hst => (closing_step hs hst).2
  refine ⟨hend.batch, by omega, hend.woken, fun hexit => ?_⟩
  have hpending := hend.idle (by simp [hexit])
  have hbatch := hend.batch
  have hfifo := (inOrder_reachable ((h.next hclose).run hrun)).fifo
  rw [hpending, List.append_nil] at hbatch hfifo
  exact ⟨hbatch, hfifo, hend.queue⟩

/-- The first of two posts has been handled. -/
def sampleMidway : Service :=
  (execute (step Dispatcher.sampleEnv) {} (sampleJoins ++ samplePosts.take 4)).getD {}

def sampleClosed : Service := (step Dispatcher.sampleEnv sampleMidway .close).getD {}

/-- The service is closed between two posts of a batch; a third one is dropped. -/
theorem closed_drains_batch_midway : ∃ s', execute (step Dispatcher.sampleEnv) sampleClosed
      [.put 0 (RequestSerializer.serializePost "t" 0 none), .handle 0 0, .handle 0 0, .loop 0] =
        some s' ∧
    s'.pc = .exited ∧ s'.handled = sampleMidway.handled ++ sampleMidway.pendingCmds ∧
    sampleMidway.pendingCmds.length = 1 ∧ s'.pushes = s'.handled ++ s'.cmdPackets := by
  have hbatch : execute (step Dispatcher.sampleEnv) {} (sampleJoins ++ samplePosts.take 4) =
      some sampleMidway := rfl
  have hrest : execute (step Dispatcher.sampleEnv) sampleClosed
      [.put 0 (RequestSerializer.serializePost "t" 0 none), .handle 0 0, .handle 0 0, .loop 0] =
      some _ := rfl
  obtain ⟨-, -, -, hexit⟩ :=
    closed_drains_batch (execute_reachable initial_default hbatch) rfl (execute_run hrest)
  obtain ⟨hhandled, hpushes, -⟩ := hexit rfl
  exact ⟨_, rfl, rfl, hhandled, rfl, hpushes⟩

end Service

end Flora
