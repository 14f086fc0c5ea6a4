import Flora.Service.Queue
import Flora.Dispatcher.Ownership

/-! # Deleted adapters leave the registry

`erase_adapter` decides on the poll thread, from `info`, whether an erase command is needed, while
an auth request of the same adapter may still be queued. As long as no such request registers and
no client registers twice, a deleted adapter has no entry left once the queue is drained. -/

namespace Flora

open TransitionSystem

namespace Registry

variable {r : Registry} {a b : AdapterId} {item : MonitorListItem}

/-- No entry of the three maps is about `a`. -/
structure Absent (r : Registry) (a : AdapterId) : Prop where
  named : ∀ n, r.named n ≠ some a
  clients : r.clients a = none
  monitors : r.monitors a = none

theorem absent_of_deref (hs : r.Sorted) (hb : r.Backed) (h : r.deref a = none) : r.Absent a := by
  have hclients : r.clients a = none := by
    apply not_not.mp
    intro hne
    rw [deref, hb.info a hne] at h
    exact hne h
  refine ⟨fun n hn => ?_, hclients, ?_⟩
  · obtain ⟨-, i, hi, -⟩ := hb.named n a hn
    rw [hclients] at hi
    cases hi
  · apply not_not.mp
    intro hne
    rw [deref, hs.info a hne] at h
    exact hne h

theorem deref_of_info (h : r.info a = none) : r.deref a = none := by
  simp only [deref, h]

theorem Absent.authenticate (h : r.Absent a) (hab : a ≠ b) {service : Word} {req : AuthReq} :
    (r.authenticate service req b).Absent a := by
  unfold Registry.authenticate
  split
  · exact h
  · split
    · split
      · refine ⟨h.named, h.clients, ?_⟩
        cases hm : r.monitors b with
        | some i => simpa only [Registry.enrolMonitor, hm] using h.monitors
        | none => simpa only [Registry.enrolMonitor, hm, Function.update_of_ne hab] using h.monitors
      · exact h
    · split
      · exact h
      · refine ⟨fun n => ?_, ?_, h.monitors⟩
        · simp only [Registry.enrolClient]
          split
          · exact h.named n
          · by_cases hn : n = req.extra
            · rw [hn, Function.update_self]
              exact fun heq => hab (Option.some.inj heq).symm
            · rw [Function.update_of_ne hn]
              exact h.named n
        · cases hk : r.clients b with
          | some i => simpa only [Registry.enrolClient, hk] using h.clients
          | none =>
            simpa only [Registry.enrolClient, hk, Function.update_of_ne hab] using h.clients

theorem Absent.leave (h : r.Absent a) (b : AdapterId) : (r.leave b).Absent a := by
  unfold Registry.leave
  split
  · exact h
  · rename_i item _
    have drop (f : AdapterId → Option MonitorListItem) (hf : f a = none) :
        Function.update f b none a = none := by
      by_cases hab : a = b
      · rw [hab, Function.update_self]
      · rw [Function.update_of_ne hab]
        exact hf
    refine ⟨fun n hn => h.named n (named_of_erase hn).1, ?_, ?_⟩ <;> simp only [Registry.erase] <;>
      split
    · exact h.clients
    · exact drop _ h.clients
    · exact drop _ h.monitors
    · exact h.monitors

theorem info_authenticate {service : Word} {req : AuthReq} (hab : a ≠ b) :
    (r.authenticate service req b).info a = r.info a := by
  unfold Registry.authenticate
  split
  · rfl
  · split
    · split
      · cases hm : r.monitors b <;> simp [Registry.enrolMonitor, hm, Function.update_of_ne hab]
      · rfl
    · split
      · rfl
      · cases hk : r.clients b <;> simp [Registry.enrolClient, hk, Function.update_of_ne hab]

theorem info_leave : (r.leave b).info a = r.info a := by
  unfold Registry.leave
  split <;> rfl

theorem absent_erase (hs : r.Sorted) (hb : r.Backed) (hitem : r.deref a = some item) :
    (r.erase a item).Absent a := by
  have hb' := hb.erase hs hitem
  cases hflag : hasMonitorFlag item.flags with
  | true =>
    obtain ⟨hinfo, -⟩ := hs.deref_monitor hitem hflag
    have hclients : (r.erase a item).clients a = none := by
      apply not_not.mp
      intro hne
      have hinfo' : r.info a = some .client := hb'.info a hne
      rw [hinfo] at hinfo'
      cases hinfo'
    refine ⟨fun n hn => ?_, hclients, by simp [Registry.erase, hflag]⟩
    obtain ⟨-, i, hi, -⟩ := hb'.named n a hn
    rw [hclients] at hi
    cases hi
  | false =>
    obtain ⟨-, hclient⟩ := hs.deref_client hitem hflag
    have hclients : (r.erase a item).clients a = none := by simp [Registry.erase, hflag]
    refine ⟨fun n hn => ?_, hclients, ?_⟩
    · obtain ⟨-, i, hi, -⟩ := hb'.named n a hn
      rw [hclients] at hi
      cases hi
    · have hmonitors := hb.disjoint a (by rw [hclient]; exact Option.some_ne_none _)
      simpa [Registry.erase, hflag] using hmonitors

end Registry

namespace Service

variable {e : Env} {s s' : Service} {a : AdapterId}

/-- The packets that are still to be handled. -/
def queue (s : Service) : List CmdPacket := s.pendingCmds ++ s.cmdPackets

theorem queue_push (s : Service) (p : CmdPacket) : (s.push p).queue = s.queue ++ [p] :=
  (List.append_assoc _ _ _).symm

/-- Nothing of an adapter is queued behind its erase command, which is the last thing its poll
thread does. -/
structure EraseLast (s : Service) : Prop where
  last : s.queue.Pairwise fun p q => p.1 = none → q.2 ≠ p.2
  erased : ∀ a, (none, a) ∈ s.queue → s.phase a = .deleted

namespace EraseLast

theorem setPhase (h : EraseLast s) {p : Phase} (hfrom : s.phase a ≠ .deleted) :
    EraseLast (s.setPhase a p) where
  last := h.last
  erased b hb := by
    have hold := h.erased b hb
    have hba : b ≠ a := by
      rintro rfl
      exact hfrom hold
    change Function.update s.phase a p b = .deleted
    rw [Function.update_of_ne hba]
    exact hold

theorem last_push (h : EraseLast s) {p : CmdPacket} (hphase : s.phase p.2 ≠ .deleted) :
    (s.push p).queue.Pairwise fun p q => p.1 = none → q.2 ≠ p.2 := by
  rw [queue_push, List.pairwise_append]
  refine ⟨h.last, List.pairwise_singleton _ _, ?_⟩
  rintro ⟨caps, b⟩ hq p' hp' rfl heq
  rw [List.mem_singleton.mp hp'] at heq
  exact hphase (heq ▸ h.erased b hq)

theorem put (h : EraseLast s) {caps : Caps} (hphase : s.phase a = .reading) :
    EraseLast (s.push (some caps, a)) where
  last := h.last_push (by rw [hphase]; nofun)
  erased b hb := by
    rw [queue_push] at hb
    obtain hb | hb := List.mem_append.mp hb
    · exact h.erased b hb
    · cases List.mem_singleton.mp hb

theorem pushErase (h : EraseLast s) (hphase : s.phase a = .erasing) :
    EraseLast ((s.push (none, a)).setPhase a .deleted) where
  last := h.last_push (by rw [hphase]; nofun)
  erased b hb := by
    change Function.update s.phase a .deleted b = .deleted
    by_cases hba : b = a
    · rw [hba, Function.update_self]
    · rw [Function.update_of_ne hba]
      have hb : (none, b) ∈ (s.push (none, a)).queue := hb
      rw [queue_push] at hb
      obtain hb | hb := List.mem_append.mp hb
      · exact h.erased b hb
      · cases List.mem_singleton.mp hb
        exact absurd rfl hba

theorem step {act : Action} (hs : EraseLast s) (hin : InOrder s) (h : step e s act = some s') :
    EraseLast s' := by
  cases act with
  | accept a =>
    obtain ⟨hphase, -, rfl⟩ := step_accept h
    exact hs.setPhase (by rw [hphase]; nofun)
  | put a caps =>
    obtain ⟨hphase, rfl⟩ := step_put h
    exact hs.put hphase
  | closeAdapter a =>
    obtain ⟨hphase, rfl⟩ := step_closeAdapter h
    obtain ⟨hlast, herased⟩ := hs.setPhase (p := .closed) (a := a) (by rw [hphase]; nofun)
    exact ⟨hlast, herased⟩
  | checkInfo a =>
    obtain ⟨hphase, rfl⟩ := step_checkInfo h
    exact hs.setPhase (by rw [hphase]; nofun)
  | pushErase a =>
    obtain ⟨hphase, rfl⟩ := step_pushErase h
    exact hs.pushErase hphase
  | destroy a =>
    obtain ⟨-, -, d, -, rfl⟩ := step_destroy h
    exact ⟨hs.last, hs.erased⟩
  | loop tp =>
    obtain ⟨hpc, ⟨-, rfl⟩ | ⟨-, -, d, -, rfl⟩ | rfl⟩ := step_loop h
    · exact ⟨hs.last, hs.erased⟩
    · exact ⟨hs.last, hs.erased⟩
    · have hqueue : (s.cmdPackets ++ s.pendingCmds) ++ [] = s.queue := by
        rw [queue, hin.batch (by rw [hpc]; nofun), List.append_nil, List.append_nil,
          List.nil_append]
      constructor
      · change ((s.cmdPackets ++ s.pendingCmds) ++ []).Pairwise _
        rw [hqueue]
        exact hs.last
      · intro a ha
        have ha : (none, a) ∈ (s.cmdPackets ++ s.pendingCmds) ++ [] := ha
        rw [hqueue] at ha
        exact hs.erased a ha
  | handle now done =>
    obtain ⟨-, ⟨-, rfl⟩ | ⟨p, rest, d, hcons, -, rfl⟩⟩ := step_handle h
    · exact ⟨hs.last, hs.erased⟩
    · have hqueue : s.queue = p :: (rest ++ s.cmdPackets) := by
        rw [queue, hcons]
        rfl
      have hlast := hs.last
      rw [hqueue] at hlast
      exact ⟨hlast.of_cons, fun a ha => hs.erased a (hqueue ▸ List.mem_cons_of_mem p ha)⟩
  | wake =>
    obtain ⟨-, rfl⟩ := step_wake h
    exact ⟨hs.last, hs.erased⟩
  | close =>
    cases h
    exact ⟨hs.last, hs.erased⟩

end EraseLast

theorem eraseLast_reachable (h : (system e).Reachable s) : EraseLast s := by
  apply h.invariant_of (P := EraseLast)
  · rintro s ⟨d, -, rfl⟩
    exact ⟨.nil, fun a ha => absurd ha List.not_mem_nil⟩
  · exact fun s act t hr hs hst => hs.step (inOrder_reachable hr) hst

/-- The auth request handled next neither registers a client a second time nor is admitted for an
adapter without a record that the poll thread has already deleted. -/
def RegistersInTime (e : Env) (s : Service) : Action → Prop
  | .handle _ _ => ∀ caps a rest req, s.pendingCmds = (some caps, a) :: rest →
    s.disp.handledAuth caps a = some req → ¬ s.disp.registry.Reregisters e.flags req a ∧
      ¬ (s.phase a = .deleted ∧ (s.disp.adapters a).info = none ∧
        s.disp.admits e req = true)
  | _ => True

/-- A deleted adapter has an erase command queued, or it is gone and will not come back: it has no
record to begin with, or nothing of it is queued. -/
def Gone (s : Service) (a : AdapterId) : Prop :=
  (none, a) ∈ s.queue ∨ s.disp.registry.Absent a ∧
    ((s.disp.adapters a).info = none ∨ ∀ p ∈ s.queue, p.2 ≠ a)

structure Tidy (s : Service) : Prop where
  sorted : s.disp.registry.Sorted
  backed : s.disp.registry.Backed
  /-- Nothing of an adapter is queued behind its erase command. -/
  last : s.queue.Pairwise fun p q => p.1 = none → q.2 ≠ p.2
  erased : ∀ a, (none, a) ∈ s.queue → s.phase a = .deleted
  gone : ∀ a, s.phase a = .deleted → Gone s a

namespace Tidy

theorem of_eq (h : Tidy s) (hlast : EraseLast s') (hreg : s'.disp.registry = s.disp.registry)
    (hqueue : s'.queue = s.queue) (hphase : s'.phase = s.phase) : Tidy s' where
  sorted := hreg ▸ h.sorted
  backed := hreg ▸ h.backed
  last := hlast.last
  erased := hlast.erased
  gone a ha := by
    have hinfo : (s'.disp.adapters a).info = (s.disp.adapters a).info :=
      congrFun (congrArg Registry.info hreg) a
    rw [hphase] at ha
    unfold Gone
    rw [hqueue, hreg, hinfo]
    exact h.gone a ha

theorem setPhase (h : Tidy s) {p : Phase} (hlast : EraseLast (s.setPhase a p))
    (hto : p = .deleted → (s.disp.adapters a).info = none) : Tidy (s.setPhase a p) where
  sorted := h.sorted
  backed := h.backed
  last := hlast.last
  erased := hlast.erased
  gone b hb := by
    have hb : Function.update s.phase a p b = .deleted := hb
    by_cases hba : b = a
    · subst hba
      rw [Function.update_self] at hb
      have hinfo := hto hb
      have hderef := Registry.deref_of_info (r := s.disp.registry) hinfo
      exact .inr ⟨Registry.absent_of_deref h.sorted h.backed hderef, .inl hinfo⟩
    · rw [Function.update_of_ne hba] at hb
      exact h.gone b hb

theorem gone_push {b : AdapterId} (h : Gone s b) {p : CmdPacket} (hpb : p.2 ≠ b) :
    Gone (s.push p) b := by
  unfold Gone
  rw [queue_push]
  obtain hq | ⟨habs, hinfo | hnone⟩ := h
  · exact .inl (List.mem_append_left _ hq)
  · exact .inr ⟨habs, .inl hinfo⟩
  · refine .inr ⟨habs, .inr fun q hq => ?_⟩
    obtain hq | hq := List.mem_append.mp hq
    · exact hnone q hq
    · rw [List.mem_singleton.mp hq]
      exact hpb

theorem put (h : Tidy s) {caps : Caps} (hphase : s.phase a = .reading)
    (hlast : EraseLast (s.push (some caps, a))) : Tidy (s.push (some caps, a)) where
  sorted := h.sorted
  backed := h.backed
  last := hlast.last
  erased := hlast.erased
  gone b hb := by
    have hb : s.phase b = .deleted := hb
    refine gone_push (h.gone b hb) ?_
    rintro rfl
    rw [hphase] at hb
    cases hb

theorem pushErase (h : Tidy s) (hlast : EraseLast ((s.push (none, a)).setPhase a .deleted)) :
    Tidy ((s.push (none, a)).setPhase a .deleted) where
  sorted := h.sorted
  backed := h.backed
  last := hlast.last
  erased := hlast.erased
  gone b hb := by
    have hb : Function.update s.phase a .deleted b = .deleted := hb
    by_cases hba : b = a
    · subst hba
      left
      change (none, b) ∈ (s.push (none, b)).queue
      rw [queue_push]
      exact List.mem_append_right _ (List.mem_singleton_self _)
    · rw [Function.update_of_ne hba] at hb
      exact gone_push (h.gone b hb) (Ne.symm hba)

theorem advance (h : Tidy s) (hlast : EraseLast s') {p : CmdPacket} {rest : List CmdPacket}
    (hcons : s.pendingCmds = p :: rest) (hqueue : s'.queue = rest ++ s.cmdPackets)
    (hphase : s'.phase = s.phase) (hsorted : s'.disp.registry.Sorted)
    (hbacked : s'.disp.registry.Backed)
    (hself : s.phase p.2 = .deleted → Gone s' p.2)
    (hother : ∀ b, b ≠ p.2 → (s.disp.registry.Absent b → s'.disp.registry.Absent b) ∧
      s'.disp.registry.info b = s.disp.registry.info b) : Tidy s' := by
  have hold : s.queue = p :: s'.queue := by
    rw [hqueue, queue, hcons]
    rfl
  refine ⟨hsorted, hbacked, hlast.last, hlast.erased, ?_⟩
  · intro b hb
    rw [hphase] at hb
    by_cases hbp : b = p.2
    · subst hbp
      exact hself hb
    · obtain ⟨habsent, hinfo⟩ := hother b hbp
      have hgone := h.gone b hb
      unfold Gone at hgone ⊢
      rw [hold] at hgone
      obtain hq | ⟨habs, hnone | hnone⟩ := hgone
      · obtain heq | hq := List.mem_cons.mp hq
        · rw [← heq] at hbp
          exact absurd rfl hbp
        · exact .inl hq
      · exact .inr ⟨habsent habs, .inl (hinfo.trans hnone)⟩
      · exact .inr ⟨habsent habs, .inr fun q hq => hnone q (List.mem_cons_of_mem p hq)⟩

theorem handleErase (h : Tidy s) (hlast' : EraseLast s') {rest : List CmdPacket}
    (hcons : s.pendingCmds = (none, a) :: rest) (hqueue : s'.queue = rest ++ s.cmdPackets)
    (hphase : s'.phase = s.phase)
    (hreg : s'.disp.registry = s.disp.registry.leave a) : Tidy s' := by
  have hall : (s.disp.registry.leave a).Sorted ∧ (s.disp.registry.leave a).Backed ∧
      (s.disp.registry.leave a).Absent a := by
    cases hitem : s.disp.registry.deref a with
    | none =>
      rw [Registry.leave_of_none hitem]
      exact ⟨h.sorted, h.backed, Registry.absent_of_deref h.sorted h.backed hitem⟩
    | some item =>
      rw [Registry.leave_of_some hitem]
      exact ⟨h.sorted.erase, h.backed.erase h.sorted hitem,
        Registry.absent_erase h.sorted h.backed hitem⟩
  rw [← hreg] at hall
  obtain ⟨hsorted, hbacked, habsent⟩ := hall
  have hlast := h.last
  rw [queue, hcons, List.cons_append, ← hqueue] at hlast
  refine h.advance hlast' hcons hqueue hphase hsorted hbacked (fun _ => .inr ⟨habsent, ?_⟩) ?_
  · exact .inr fun q hq => (List.pairwise_cons.mp hlast).1 q hq rfl
  · intro b _
    rw [hreg]
    exact ⟨fun hb => hb.leave a, Registry.info_leave⟩

theorem handleMsg (h : Tidy s) (hlast : EraseLast s') {caps : Caps} {rest : List CmdPacket}
    {now done : Nat} (hcons : s.pendingCmds = (some caps, a) :: rest)
    (hqueue : s'.queue = rest ++ s.cmdPackets) (hphase : s'.phase = s.phase)
    (hguard : RegistersInTime e s (.handle now done))
    (hreg : s'.disp.registry =
      s.disp.registry.handle e.flags (s.disp.handledAuth caps a) a) : Tidy s' := by
  have hold : s.queue = (some caps, a) :: s'.queue := by
    rw [hqueue, queue, hcons]
    rfl
  -- an erase command of `a` is still queued, unless `a` has no record and got none
  have hself (hsame : (s.disp.adapters a).info = none → s.phase a = .deleted →
      s'.disp.registry = s.disp.registry) (ha : s.phase a = .deleted) : Gone s' a := by
    have hgone := h.gone a ha
    unfold Gone at hgone ⊢
    rw [hold] at hgone
    obtain hq | ⟨habs, hinfo | hnone⟩ := hgone
    · obtain heq | hq := List.mem_cons.mp hq
      · cases heq
      · exact .inl hq
    · have hreg := hsame hinfo ha
      refine .inr ⟨hreg ▸ habs, .inl ?_⟩
      exact (congrFun (congrArg Registry.info hreg) a).trans hinfo
    · exact absurd rfl (hnone _ List.mem_cons_self)
  cases hreq : s.disp.handledAuth caps a with
  | none =>
    rw [hreq] at hreg
    refine h.advance hlast hcons hqueue hphase (hreg ▸ h.sorted) (hreg ▸ h.backed)
      (hself fun _ _ => hreg) fun b _ => ?_
    rw [hreg]
    exact ⟨fun hb => hb, rfl⟩
  | some req =>
    rw [hreq] at hreg
    obtain ⟨hre, hlate⟩ := hguard caps a rest req hcons hreq
    have hgate := Dispatcher.isMonitor_of_handledAuth hreq
    have hadm : s.disp.registry.Admitted a := fun i hi => Dispatcher.flags_of_isMonitor hgate hi
    refine h.advance hlast hcons hqueue hphase (hreg ▸ h.sorted.authenticate hadm)
      (hreg ▸ h.backed.authenticate h.sorted hadm hre) (hself fun hinfo ha => ?_) fun b hb => ?_
    · rw [hreg]
      exact Dispatcher.registry_of_refused (Bool.eq_false_iff.mpr fun hok => hlate ⟨ha, hinfo, hok⟩)
    · rw [hreg]
      exact ⟨fun habs => habs.authenticate hb, Registry.info_authenticate hb⟩

end Tidy

theorem tidy_step {act : Action} (hs : Tidy s) (hin : InOrder s) (hlast : EraseLast s')
    (h : step e s act = some s') (hguard : RegistersInTime e s act) : Tidy s' := by
  cases act with
  | accept a =>
    obtain ⟨_, _, rfl⟩ := step_accept h
    exact hs.setPhase hlast nofun
  | put a caps =>
    obtain ⟨hphase, rfl⟩ := step_put h
    exact hs.put hphase hlast
  | closeAdapter a =>
    obtain ⟨_, rfl⟩ := step_closeAdapter h
    have hmoved := hs.setPhase (p := .closed) (a := a) ⟨hlast.last, hlast.erased⟩ nofun
    exact hmoved.of_eq hlast (Dispatcher.registry_close s.disp a) rfl rfl
  | checkInfo a =>
    obtain ⟨_, rfl⟩ := step_checkInfo h
    refine hs.setPhase hlast fun hdeleted => ?_
    split at hdeleted
    · assumption
    · cases hdeleted
  | pushErase a =>
    obtain ⟨_, rfl⟩ := step_pushErase h
    exact hs.pushErase hlast
  | destroy a =>
    obtain ⟨_, _, d, hd, rfl⟩ := step_destroy h
    exact hs.of_eq hlast (Dispatcher.step_registry hd) rfl rfl
  | loop tp =>
    obtain ⟨hpc, ⟨_, rfl⟩ | ⟨_, _, d, hd, rfl⟩ | rfl⟩ := step_loop h
    · exact hs.of_eq hlast rfl rfl rfl
    · exact hs.of_eq hlast (Dispatcher.step_registry hd) rfl rfl
    · refine hs.of_eq hlast rfl ?_ rfl
      change (s.cmdPackets ++ s.pendingCmds) ++ [] = s.pendingCmds ++ s.cmdPackets
      rw [hin.batch (by rw [hpc]; nofun), List.append_nil, List.append_nil, List.nil_append]
  | handle now done =>
    obtain ⟨_, ⟨_, rfl⟩ | ⟨⟨caps, a⟩, rest, d, hcons, hd, rfl⟩⟩ := step_handle h
    · exact hs.of_eq hlast rfl rfl rfl
    · cases caps with
      | none => exact hs.handleErase hlast hcons rfl rfl (Dispatcher.step_registry hd)
      | some caps => exact hs.handleMsg hlast hcons rfl rfl hguard (Dispatcher.step_registry hd)
  | wake =>
    obtain ⟨_, rfl⟩ := step_wake h
    exact hs.of_eq hlast rfl rfl rfl
  | close =>
    cases h
    exact hs.of_eq hlast rfl rfl rfl

theorem tidy_reachable (h : ((system e).guard (RegistersInTime e)).Reachable s) : Tidy s := by
  apply h.invariant_of (P := Tidy)
  · rintro s ⟨d, hd, rfl⟩
    have hsound := Dispatcher.sound_initial hd
    exact ⟨hsound.sorted, hsound.consistent.toBacked, .nil, nofun, nofun⟩
  · intro s act t hr hs hst
    exact tidy_step hs (inOrder_reachable hr.of_guard) (eraseLast_reachable (hr.next hst).of_guard)
      hst.2 hst.1

/-- No entry of the three maps is about `a`, and only another adapter can be in the way of a client
that asks for a name. -/
structure Unregistered (e : Env) (d : Dispatcher) (a : AdapterId) : Prop where
  named : ∀ n, d.namedAdapters.lookup n ≠ some a
  adapterInfos : d.adapterInfos.lookup a = none
  monitors : d.monitors.lookup a = none
  reusable : ∀ req b, ¬ req.version < 3 → hasMonitorFlag req.flags = false →
    (Dispatcher.authenticate e req b d).2 = cliSuccess ∨
      ∃ c, c ≠ a ∧ d.namedAdapters.lookup req.extra = some c

theorem unregistered_of_absent {d : Dispatcher} (h : d.registry.Absent a) :
    Unregistered e d a where
  named := h.named
  adapterInfos := Option.map_eq_none_iff.mp h.clients
  monitors := Option.map_eq_none_iff.mp h.monitors
  reusable req b hver hflag := by
    cases hname : d.namedAdapters.lookup req.extra with
    | none => exact .inl (Dispatcher.authenticate_granted hver hflag (.inr hname))
    | some c =>
      refine .inr ⟨c, ?_, rfl⟩
      rintro rfl
      exact h.named req.extra hname

/-- In every run whose auth requests register in time, an adapter that the poll thread has deleted
is unregistered as soon as the queue is drained. -/
theorem deleted_unregistered (h : ((system e).guard (RegistersInTime e)).Reachable s)
    (ha : s.phase a = .deleted) (hbatch : s.pendingCmds = []) (hqueue : s.cmdPackets = []) :
    Unregistered e s.disp a := by
  have hempty : s.queue = [] := by rw [queue, hbatch, hqueue]; rfl
  obtain hq | ⟨habsent, -⟩ := (tidy_reachable h).gone a ha
  · rw [hempty] at hq
    cases hq
  · exact unregistered_of_absent habsent

/-- A client that registers and leaves while its auth request has already been handled. -/
def sampleLeaves : List Action :=
  [.accept 0, .put 0 (RequestSerializer.serializeAuth floraVersion "x" 1 0), .loop 0, .handle 0 0,
    .closeAdapter 0, .checkInfo 0, .pushErase 0, .handle 0 0, .loop 0, .handle 0 0]

theorem deleted_unregistered_after_auth :
    ∃ s, execute (step Dispatcher.sampleEnv) {} sampleLeaves = some s ∧ s.phase 0 = .deleted ∧
      Unregistered Dispatcher.sampleEnv s.disp 0 := by
  have hguard : ((system Dispatcher.sampleEnv).guard (RegistersInTime Dispatcher.sampleEnv)).Run
      {} sampleLeaves ((execute (step Dispatcher.sampleEnv) {} sampleLeaves).getD {}) := by
    refine .cons ⟨trivial, rfl⟩ (.cons ⟨trivial, rfl⟩ (.cons ⟨trivial, rfl⟩ (.cons ⟨?_, rfl⟩
      (.cons ⟨trivial, rfl⟩ (.cons ⟨trivial, rfl⟩ (.cons ⟨trivial, rfl⟩ (.cons ⟨?_, rfl⟩
        (.cons ⟨trivial, rfl⟩ (.cons ⟨?_, rfl⟩ (.nil _))))))))))
    · rintro caps a rest req hcons -
      cases hcons
      exact ⟨fun hre => hre.1 rfl, fun hlate => absurd hlate.1 (by decide)⟩
    · rintro caps a rest req hcons
      cases hcons
    · rintro caps a rest req hcons
      cases hcons
  exact ⟨_, rfl, rfl, deleted_unregistered ⟨_, _, initial_default, hguard⟩ rfl rfl rfl⟩

/-- A client whose connection is deleted while its auth request is still queued stays registered:
`erase_adapter` finds no record and queues nothing. -/
theorem deleted_unregistered_fails_queued_auth :
    ¬ ∀ (e : Env) (s : Service) (a : AdapterId), (system e).Reachable s → s.phase a = .deleted →
      s.pendingCmds = [] → s.cmdPackets = [] → Unregistered e s.disp a := by
  intro h
  have hrun : execute (step Dispatcher.sampleEnv) {} [.accept 0,
    .put 0 (RequestSerializer.serializeAuth floraVersion "x" 1 0), .closeAdapter 0, .checkInfo 0,
    .loop 0, .handle 0 0] = some _ := rfl
  have hzombie := h Dispatcher.sampleEnv _ 0 (execute_reachable initial_default hrun) rfl rfl rfl
  exact hzombie.named "x" rfl

end Service

end Flora
