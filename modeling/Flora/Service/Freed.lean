import Flora.Service.Zombies
import Flora.Dispatcher.Expiry
import Flora.Dispatcher.Notices

/-! # What is left of a freed adapter

A command, a name and a call each hold a `shared_ptr`, but `adapter_infos` and `monitors` hold the
address only. As long as every adapter registers before it is deleted, its erase command holds it
until it is no key any more, so an address that is taken again is not a key either. -/

namespace Flora

open TransitionSystem

namespace Dispatcher

variable {e : Env} {d d' : Dispatcher} {a : AdapterId} {act : Action}

/-- Caller and target of a call are held by a `shared_ptr` each. -/
def CallsAlive (d : Dispatcher) : Prop :=
  ∀ pc ∈ d.pendingCalls, d.alive pc.sender = true ∧ d.alive pc.target = true

theorem held_of_pending {pc : PendingCall} (hpc : pc ∈ d.pendingCalls) :
    d.held pc.sender = true ∧ d.held pc.target = true := by
  simp only [held, Bool.or_eq_true, List.any_eq_true, beq_iff_eq]
  exact ⟨.inr ⟨pc, hpc, .inl rfl⟩, .inr ⟨pc, hpc, .inr rfl⟩⟩

theorem alive_of_held (h : step e d act = some d') (ha : d.alive a = true)
    (hheld : d.held a = true) : d'.alive a = true := by
  obtain hsame | ⟨rfl, -⟩ := step_alive (a := a) h
  · rw [hsame]
    exact ha
  · rw [(step_destroy h).2.1] at hheld
    cases hheld

theorem callsAlive_step (hs : CallsAlive d) (hnames : NamesAlive d) (h : step e d act = some d') :
    CallsAlive d' := by
  intro pc hpc
  have kept (hmem : pc ∈ d.pendingCalls) : d'.alive pc.sender = true ∧ d'.alive pc.target = true :=
    ⟨alive_of_held h (hs pc hmem).1 (held_of_pending hmem).1,
      alive_of_held h (hs pc hmem).2 (held_of_pending hmem).2⟩
  obtain heq | ⟨new, heq, -, -, ⟨n, hn⟩, caps, now, done, c, rfl, -⟩ | ⟨p, heq⟩ | ⟨expired, heq⟩ :=
    step_pendingCalls h
  · exact kept (heq ▸ hpc)
  · rw [heq] at hpc
    obtain rfl | hpc := List.mem_cons.mp ((insertPendingCall_perm new _).mem_iff.mp hpc)
    · refine ⟨?_, alive_of_held h (hnames n _ hn) (held_of_named hn)⟩
      obtain hsame | ⟨hact, -⟩ := step_alive (a := pc.sender) h
      · rw [hsame]
        exact (step_msg h).1
      · cases hact
    · exact kept hpc
  · rw [heq] at hpc
    exact kept (List.mem_of_mem_eraseP hpc)
  · exact kept (by rw [heq]; exact List.mem_append_right _ hpc)

theorem references_reachable (h : (system e).Reachable d) : NamesAlive d ∧ CallsAlive d := by
  apply h.invariant (P := fun d => NamesAlive d ∧ CallsAlive d)
  · rintro s ⟨adapters, rfl, -⟩
    exact ⟨nofun, nofun⟩
  · exact fun s act t hs hst => ⟨namesAlive_step hs.1 hst, callsAlive_step hs.2 hs.1 hst⟩

end Dispatcher

namespace Service

variable {e : Env} {s s' : Service} {a : AdapterId}

/-- A freed adapter has been deleted by its poll thread, and no command of it is left. -/
def FreedLast (s : Service) : Prop :=
  ∀ a, s.disp.alive a = false →
    s.phase a = .deleted ∧ ∀ p ∈ s.cmdPackets ++ s.doneCmds ++ s.pendingCmds, p.2 ≠ a

theorem FreedLast.mono (h : FreedLast s)
    (hdead : ∀ a, s'.disp.alive a = false → s.disp.alive a = false)
    (hphase : ∀ a, s.phase a = .deleted → s'.phase a = .deleted)
    (hqueue : ∀ p ∈ s'.cmdPackets ++ s'.doneCmds ++ s'.pendingCmds,
      p ∈ s.cmdPackets ++ s.doneCmds ++ s.pendingCmds ∨ s.phase p.2 ≠ .deleted) : FreedLast s' := by
  intro a ha
  obtain ⟨hdeleted, hnone⟩ := h a (hdead a ha)
  refine ⟨hphase a hdeleted, fun p hp => ?_⟩
  obtain hp | hp := hqueue p hp
  · exact hnone p hp
  · rintro rfl
    exact hp hdeleted

theorem FreedLast.setPhase (h : FreedLast s) {p : Phase} (hfrom : s.phase a ≠ .deleted) :
    FreedLast (s.setPhase a p) := by
  refine h.mono (fun _ hb => hb) ?_ fun _ hp => .inl hp
  intro b hb
  have hba : b ≠ a := by
    rintro rfl
    exact hfrom hb
  change Function.update s.phase a p b = .deleted
  rw [Function.update_of_ne hba]
  exact hb

theorem FreedLast.push (h : FreedLast s) {p : CmdPacket} (hphase : s.phase p.2 ≠ .deleted) :
    FreedLast (s.push p) := by
  refine h.mono (fun _ hb => hb) (fun _ hb => hb) ?_
  intro q hq
  have hq : q ∈ (s.cmdPackets ++ [p]) ++ s.doneCmds ++ s.pendingCmds := hq
  simp only [List.mem_append, List.mem_singleton] at hq ⊢
  obtain ((hq | rfl) | hq) | hq := hq
  · exact .inl (.inl (.inl hq))
  · exact .inr hphase
  · exact .inl (.inl (.inr hq))
  · exact .inl (.inr hq)

theorem freedLast_step {act : Action} (hs : FreedLast s) (h : step e s act = some s') :
    FreedLast s' := by
  have quiet {x : Dispatcher.Action} {d d' : Dispatcher} (hx : Dispatcher.step e d x = some d')
      (hact : ∀ b, x ≠ .destroy b) (b : AdapterId) (hb : d'.alive b = false) : d.alive b = false := by
    obtain hsame | ⟨heq, -⟩ := Dispatcher.step_alive (a := b) hx
    · rw [← hsame]
      exact hb
    · exact absurd heq (hact b)
  cases act with
  | accept a =>
    obtain ⟨hphase, -, rfl⟩ := step_accept h
    exact hs.setPhase (by rw [hphase]; nofun)
  | put a caps =>
    obtain ⟨hphase, rfl⟩ := step_put h
    exact hs.push (p := (some caps, a)) (by rw [hphase]; nofun)
  | closeAdapter a =>
    obtain ⟨hphase, rfl⟩ := step_closeAdapter h
    refine (hs.setPhase (by rw [hphase]; nofun)).mono (fun b hb => ?_) (fun _ hb => hb)
      fun _ hp => .inl hp
    exact Dispatcher.alive_close.symm.trans hb
  | checkInfo a =>
    obtain ⟨hphase, rfl⟩ := step_checkInfo h
    exact hs.setPhase (by rw [hphase]; nofun)
  | pushErase a =>
    obtain ⟨hphase, rfl⟩ := step_pushErase h
    exact (hs.push (p := (none, a)) (by rw [hphase]; nofun)).setPhase
      (by change s.phase a ≠ _; rw [hphase]; nofun)
  | destroy a =>
    obtain ⟨hphase, hqueued, d, hd, rfl⟩ := step_destroy h
    intro b hb
    obtain hsame | ⟨heq, -⟩ := Dispatcher.step_alive (a := b) hd
    · exact hs b (hsame.symm.trans hb)
    · cases heq
      refine ⟨hphase, fun p hp hpa => ?_⟩
      have hany : s.queued a = true := List.any_eq_true.mpr ⟨p, hp, beq_iff_eq.mpr hpa⟩
      rw [hqueued] at hany
      cases hany
  | loop tp =>
    obtain ⟨-, ⟨-, rfl⟩ | ⟨-, -, d, hd, rfl⟩ | rfl⟩ := step_loop h
    · exact hs
    · exact hs.mono (quiet hd nofun) (fun _ hb => hb) fun _ hp => .inl hp
    · refine hs.mono (fun _ hb => hb) (fun _ hb => hb) fun p hp => .inl ?_
      have hp : p ∈ [] ++ [] ++ (s.cmdPackets ++ s.pendingCmds) := hp
      simp only [List.mem_append, List.not_mem_nil, false_or] at hp ⊢
      exact hp.imp .inl id
  | handle now done =>
    obtain ⟨-, ⟨hnil, rfl⟩ | ⟨p, rest, d, hcons, hd, rfl⟩⟩ := step_handle h
    · refine hs.mono (fun _ hb => hb) (fun _ hb => hb) fun p hp => .inl ?_
      have hp : p ∈ s.cmdPackets ++ [] ++ s.pendingCmds := hp
      simp only [List.mem_append, List.not_mem_nil, or_false] at hp ⊢
      exact hp.imp .inl id
    · refine hs.mono (quiet hd ?_) (fun _ hb => hb) fun q hq => .inl ?_
      · obtain ⟨caps | caps, b⟩ := p <;> exact nofun
      · have hq : q ∈ s.cmdPackets ++ (s.doneCmds ++ [p]) ++ rest := hq
        simp only [hcons, List.mem_append, List.mem_cons, List.not_mem_nil, or_false] at hq ⊢
        tauto
  | wake =>
    obtain ⟨-, rfl⟩ := step_wake h
    exact hs
  | close =>
    cases h
    exact hs

theorem freedLast_reachable (h : (system e).Reachable s) : FreedLast s := by
  apply h.invariant (P := FreedLast)
  · rintro s ⟨d, ⟨adapters, rfl, hfresh⟩, rfl⟩ a ha
    have halive : (!(adapters a).destroyed) = false := ha
    rw [(hfresh a).2.2] at halive
    cases halive
  · exact fun s act t hs hst => freedLast_step hs hst

/-- No command, name or call is left of a freed adapter, and its address is no key. -/
structure FreedApart (s : Service) : Prop where
  queued : ∀ p ∈ s.queue, s.disp.alive p.2 = true
  named : Dispatcher.NamesAlive s.disp
  calls : Dispatcher.CallsAlive s.disp
  keys : ∀ a, s.disp.alive a = false → s.disp.registry.Absent a

theorem freedApart_reachable (h : ((system e).guard (RegistersInTime e)).Reachable s) :
    FreedApart s := by
  have hfreed := freedLast_reachable h.of_guard
  have hrefs := Dispatcher.references_reachable (disp_reachable h.of_guard)
  have hunqueued (a : AdapterId) (ha : s.disp.alive a = false) : ∀ p ∈ s.queue, p.2 ≠ a := by
    intro p hp
    refine (hfreed a ha).2 p ?_
    simp only [queue, List.mem_append] at hp ⊢
    exact hp.elim .inr fun hp => .inl (.inl hp)
  refine ⟨fun p hp => ?_, hrefs.1, hrefs.2, fun a ha => ?_⟩
  · rw [← Bool.not_eq_false]
    exact fun hdead => hunqueued p.2 hdead p hp rfl
  · obtain hq | ⟨habsent, -⟩ := (tidy_reachable h).gone a (hfreed a ha).1
    · exact absurd rfl (hunqueued a ha _ hq)
    · exact habsent

theorem FreedApart.monitor (h : FreedApart s) {m : AdapterId} (hm : m ∈ s.disp.monitors.keys) :
    s.disp.alive m = true := by
  rw [← Bool.not_eq_false]
  intro hdead
  rw [Dispatcher.mem_monitors_iff] at hm
  exact hm (h.keys m hdead).monitors

end Service

end Flora
