import Flora.Rpc.Deadline

/-! # A service that sleeps owes nothing

`handle_cmds` waits for a command or for the first deadline. If the wait ends at its time point, a
dispatcher thread that sleeps has handled every command and has answered every call whose time is
over; it is late only while it works. -/

namespace Flora

open TransitionSystem

namespace Service

variable {e : Env} {s s' : Service}

/-- The thread does nothing and nothing has been done to wake it. -/
def asleep (s : Service) : Bool := s.pc = .waiting && !s.notified

theorem asleep_iff : s.asleep = true ↔ s.pc = .waiting ∧ s.notified = false := by
  simp [asleep]

/-- `notify_one` wakes the thread. -/
theorem notified_of_waiting (hpc : s.pc = .waiting) : (s.notified || decide (s.pc = .waiting)) = true := by
  simp [hpc]

/-- The thread sleeps on and the calls, the queue and `working` are untouched, or it has just found
nothing to do. -/
theorem step_asleep {act : Action} (h : step e s act = some s') (hasleep : s'.asleep = true) :
    (s.asleep = true ∧ s'.disp.pendingCalls = s.disp.pendingCalls ∧ s'.cmdPackets = s.cmdPackets ∧
      s'.working = s.working) ∨
    ∃ tp, act = .loop tp ∧ s'.cmdPackets = [] ∧ s'.working = true ∧
      Dispatcher.step e s.disp (.expire tp) = some s'.disp := by
  rw [asleep_iff] at hasleep ⊢
  obtain ⟨hpc, hnot⟩ := hasleep
  cases act with
  | accept a =>
    obtain ⟨_, _, rfl⟩ := step_accept h
    exact .inl ⟨⟨hpc, hnot⟩, rfl, rfl, rfl⟩
  | put a caps =>
    obtain ⟨_, rfl⟩ := step_put h
    cases (notified_of_waiting (s := s) hpc).symm.trans hnot
  | closeAdapter a =>
    obtain ⟨_, rfl⟩ := step_closeAdapter h
    exact .inl ⟨⟨hpc, hnot⟩, rfl, rfl, rfl⟩
  | checkInfo a =>
    obtain ⟨_, rfl⟩ := step_checkInfo h
    exact .inl ⟨⟨hpc, hnot⟩, rfl, rfl, rfl⟩
  | pushErase a =>
    obtain ⟨_, rfl⟩ := step_pushErase h
    cases (notified_of_waiting (s := s) hpc).symm.trans hnot
  | destroy a =>
    obtain ⟨_, _, d, hd, rfl⟩ := step_destroy h
    obtain ⟨_, _, rfl⟩ := Dispatcher.step_destroy hd
    exact .inl ⟨⟨hpc, hnot⟩, rfl, rfl, rfl⟩
  | loop tp =>
    obtain ⟨-, ⟨-, rfl⟩ | ⟨hcmds, -, d, hd, rfl⟩ | rfl⟩ := step_loop h
    · cases hpc
    · refine .inr ⟨tp, rfl, hcmds, ?_, hd⟩
      change s.working = true
      rw [← Bool.not_eq_false]
      intro hclosed
      simp only [step, loopLocked, hclosed, Option.ite_none_right_eq_some] at h
      cases congrArg Service.pc (Option.some.inj h.2)
    · cases hpc
  | handle now done =>
    obtain ⟨hhandling, ⟨-, rfl⟩ | ⟨p, rest, d, -, -, rfl⟩⟩ := step_handle h
    · cases hpc
    · cases hhandling.symm.trans hpc
  | wake =>
    obtain ⟨-, rfl⟩ := step_wake h
    cases hpc
  | close =>
    cases h
    cases (notified_of_waiting (s := s) hpc).symm.trans hnot

end Service

namespace TimedNet

variable {e : Env} {lib : AdapterId → Bool} {s s' : TimedNet} {x : Action}

/-- A wait with a time point ends there: what happens while the thread sleeps happens by then. -/
def WakesInTime (s : TimedNet) (x : Action) : Prop :=
  s.net.service.asleep = true → ∀ t ∈ s.net.service.disp.waitUntil, x.now ≤ t

instance (s : TimedNet) (x : Action) : Decidable (WakesInTime s x) :=
  inferInstanceAs (Decidable (_ → ∀ t ∈ _, _))

/-- What a service that sleeps has done. -/
structure Rested (s : TimedNet) : Prop where
  working : s.net.service.working = true
  idle : s.net.service.cmdPackets = []
  punctual : ∀ pc ∈ s.net.service.disp.pendingCalls, s.now ≤ pc.discardTp

theorem Rested.step (hr : (Net.system e lib).Reachable s.net)
    (hs : s.net.service.asleep = true → Rested s) (hwake : WakesInTime s x)
    (hst : step e lib s x = some s') (hasleep : s'.net.service.asleep = true) : Rested s' := by
  obtain ⟨hnow, hdue, net, hnet, rfl⟩ := step_cases hst
  change net.service.asleep = true at hasleep
  have hsorted := Dispatcher.sorted_reachable (Service.disp_reachable (Net.service_reachable hr))
  -- while it sleeps the clock stays before the least deadline
  have hkeep (hold : s.net.service.asleep = true)
      (hcalls : net.service.disp.pendingCalls = s.net.service.disp.pendingCalls)
      (hcmds : net.service.cmdPackets = s.net.service.cmdPackets)
      (hworking : net.service.working = s.net.service.working) : Rested (s.after x net) := by
    obtain ⟨hold₁, hold₂, hold₃⟩ := hs hold
    refine ⟨hworking.trans hold₁, hcmds.trans hold₂, fun pc hpc => ?_⟩
    change pc ∈ net.service.disp.pendingCalls at hpc
    rw [hcalls] at hpc
    cases hwait : s.net.service.disp.waitUntil with
    | none =>
      rw [Dispatcher.waitUntil, Option.map_eq_none_iff, List.head?_eq_none_iff] at hwait
      rw [hwait] at hpc
      cases hpc
    | some t =>
      exact Nat.le_trans (hwake hold t hwait) ((Dispatcher.waitUntil_least hsorted hwait).2 pc hpc)
  obtain hsame | ⟨sact, hservice, hact⟩ := Net.step_serviceStep hnet
  · rw [hsame] at hasleep
    exact hkeep hasleep (by rw [hsame]) (by rw [hsame]) (by rw [hsame])
  · obtain ⟨hold, hcalls, hcmds, hworking⟩ | ⟨tp, rfl, hcmds, hworking, hexpire⟩ :=
      Service.step_asleep hservice hasleep
    · exact hkeep hold hcalls hcmds hworking
    · have htp : tp = x.now := by
        obtain hact | ⟨a, caps, hput⟩ := hact
        · rw [hact] at hdue
          exact beq_iff_eq.mp hdue
        · cases hput
      refine ⟨hworking, hcmds, fun pc hpc => ?_⟩
      change pc ∈ net.service.disp.pendingCalls at hpc
      change x.now ≤ pc.discardTp
      obtain ⟨expired, rest, ws, hsplit, hws, -, hexpired, hrest⟩ :=
        Dispatcher.discardPendingCalls_spec hexpire
      have hlist : SortedList.SortedBy PendingCall.discardTp (expired ++ rest) := hsplit ▸ hsorted
      rw [show net.service.disp.pendingCalls = rest from hws.pendingCalls,
        ← (hlist.split hexpired hrest).2] at hpc
      have hlater := of_decide_eq_true (List.mem_filter.mp hpc).2
      omega

theorem rested_reachable (h : ((system e lib).guard WakesInTime).Reachable s)
    (hasleep : s.net.service.asleep = true) : Rested s := by
  revert hasleep
  apply h.invariant_of (P := fun s => s.net.service.asleep = true → Rested s)
  · rintro s ⟨net, ⟨service, ⟨d, -, rfl⟩, rfl⟩, rfl⟩ hasleep
    cases hasleep
  · exact fun s x t hr hs hst hasleep =>
      Rested.step (net_reachable hr.of_guard) hs hst.1 hst.2 hasleep

/-- Whenever the dispatcher thread sleeps, the service has not been closed, every command that was
ever pushed has been handled, and every call it accepted has been answered once or is within the time
that was granted to it. -/
theorem asleep_owes_nothing (hfit : Dispatcher.ErrorRepliesFit e)
    (h : ((system e lib).guard WakesInTime).Reachable s) (hasleep : s.net.service.asleep = true) :
    s.net.service.working = true ∧ s.net.service.handled = s.net.service.pushes ∧
    ∀ i c, s.net.service.disp.calls[i]? = some c →
      s.net.service.disp.out.countP (Dispatcher.answersCall i) = 1 ∨
      s.net.service.disp.out.countP (Dispatcher.answersCall i) = 0 ∧
        s.now ≤ s.entered i + Dispatcher.grantedInterval c.req.timeout * 10 ^ 6 := by
  have hnet := net_reachable h.of_guard
  have hservice := Net.service_reachable hnet
  obtain ⟨hworking, hidle, hpunctual⟩ := rested_reachable h hasleep
  refine ⟨hworking, ?_, fun i c hc => ?_⟩
  · have horder := Service.inOrder_reachable hservice
    have hpc : s.net.service.pc ≠ .handling := by
      rw [(Service.asleep_iff.mp hasleep).1]
      simp
    rw [horder.fifo, hidle, horder.batch hpc, List.append_nil, List.append_nil]
  · have htally := Dispatcher.tally_eq_share hfit (Service.disp_reachable hservice) i
    rw [Dispatcher.tally, Dispatcher.share, if_pos (List.getElem?_eq_some_iff.mp hc).1] at htally
    by_cases hanswered : s.net.service.disp.out.countP (Dispatcher.answersCall i) = 0
    · right
      refine ⟨hanswered, ?_⟩
      rw [hanswered, Nat.add_zero] at htally
      obtain ⟨pc, hpc, hcall⟩ := List.countP_pos_iff.mp (htally ▸ Nat.one_pos)
      obtain ⟨c', hc', htp⟩ := granted_reachable h.of_guard pc hpc
      rw [show pc.call = i from beq_iff_eq.mp hcall] at hc' htp
      cases hc.symm.trans hc'
      exact htp ▸ hpunctual pc hpc
    · left
      omega

/-- A call without a timeout: the thread sleeps, wakes after 200 milliseconds, answers it and sleeps
again. -/
def expiryRun : List Action :=
  (callRun 0 ++ [Net.Action.service (.loop 0)]).map (Action.mk · 0) ++
    [⟨.service .wake, 200000000⟩, ⟨.service (.loop 200000000), 200000000⟩]

theorem asleep_owes_nothing_expired : ∃ s : TimedNet,
    execute (fun s x => if WakesInTime s x then step Dispatcher.sampleEnv (· == 0) s x else none) {}
      expiryRun = some s ∧
    s.now = 200000000 ∧ s.net.service.working = true ∧
    s.net.service.handled = s.net.service.pushes ∧ s.net.service.disp.calls.length = 1 ∧
    (s.net.service.disp.out.countP (Dispatcher.answersCall 0) = 1 ∨
      s.net.service.disp.out.countP (Dispatcher.answersCall 0) = 0 ∧
        s.now ≤ s.entered 0 + Dispatcher.grantedInterval 0 * 10 ^ 6) := by
  have hend : (execute (fun s x =>
      if WakesInTime s x then step Dispatcher.sampleEnv (· == 0) s x else none) {} expiryRun).map
        (fun s => (s.now, s.net.service.asleep, s.net.service.disp.calls.map (·.req.timeout))) =
      some (200000000, true, [0]) := by decide
  obtain ⟨s, hs, heq⟩ := Option.map_eq_some_iff.mp hend
  obtain ⟨hnow, heq⟩ := Prod.mk.inj heq
  obtain ⟨hasleep, htimeouts⟩ := Prod.mk.inj heq
  obtain ⟨c, hc, htimeout⟩ := List.map_eq_singleton_iff.mp htimeouts
  obtain ⟨hworking, hhandled, hcalls⟩ := asleep_owes_nothing Dispatcher.errorRepliesFit_sampleEnv
    ⟨{}, expiryRun, ⟨{}, ⟨{}, Service.initial_default, rfl⟩, rfl⟩, execute_guarded_run hs⟩ hasleep
  have hfirst := hcalls 0 c (by rw [hc]; rfl)
  rw [htimeout] at hfirst
  exact ⟨s, hs, hnow, hworking, hhandled, by rw [hc]; rfl, hfirst⟩

end TimedNet

end Flora
