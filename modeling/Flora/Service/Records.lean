import Flora.Service.Freed
import Flora.Dispatcher.InfoReads
import Flora.Dispatcher.Records

/-! # Freed adapters and erased records are not read

`do_erase_adapter` frees the record of an adapter and leaves `info` as it is. An erased adapter is
closed, has nothing queued and carries no name, so the reads that ask for an open adapter, a name or
a sender find a record. One read asks for nothing: the log line of `pending_call_timeout` names the
target of the call. As long as every adapter registers before it is deleted, none is freed while it
is a key of `adapter_infos` or `monitors`, so an address that is taken again is no key either. -/

namespace Flora

open TransitionSystem

namespace Registry

variable {r : Registry} {a b : AdapterId}

theorem info_authenticate_mono {service : Word} {req : AuthReq} (h : r.info a ≠ none) :
    (r.authenticate service req b).info a ≠ none := by
  by_cases hab : a = b
  · subst hab
    unfold Registry.authenticate
    split
    · exact h
    · split
      · split
        · cases hm : r.monitors a <;> simp [Registry.enrolMonitor, hm, h]
        · exact h
      · split
        · exact h
        · cases hk : r.clients a <;> simp [Registry.enrolClient, hk, h]
  · rw [info_authenticate hab]
    exact h

theorem Absent.deref_eq_none (h : r.Absent a) : r.deref a = none := by
  unfold deref
  split
  · rfl
  · exact h.clients
  · exact h.monitors

theorem deref_of_clients (h : r.Backed) (ha : r.clients a ≠ none) : r.deref a ≠ none := by
  rw [deref, h.info a ha]
  exact ha

theorem deref_of_monitors (h : r.Sorted) (ha : r.monitors a ≠ none) : r.deref a ≠ none := by
  rw [deref, h.info a ha]
  exact ha

end Registry

namespace Dispatcher

variable {e : Env} {d d' : Dispatcher} {a sender : AdapterId} {n m : String} {act : Action}

theorem isSome_deref_iff : (d.deref a).isSome = true ↔ d.registry.deref a ≠ none := by
  rw [registry_deref, Option.isSome_iff_ne_none, ne_eq, ne_eq, Option.map_eq_none_iff]

/-- A first registration leaves the sender with a record. -/
theorem deref_authenticated {req : AuthReq} (hs : d.registry.Sorted) (hb : d.registry.Backed)
    (hinfo : (d.adapters a).info = none) (hadmits : d.admits e req = true) :
    (d.registry.authenticate e.flags req a).deref a ≠ none := by
  have hinfo : d.registry.info a = none := hinfo
  have hclients : d.registry.clients a = none := by
    apply not_not.mp
    intro hne
    rw [hb.info a hne] at hinfo
    cases hinfo
  have hmonitors : d.registry.monitors a = none := by
    apply not_not.mp
    intro hne
    rw [hs.info a hne] at hinfo
    cases hinfo
  rw [← registry_authenticate, registry_authenticate_cases, if_pos hadmits]
  split
  · simp [Registry.deref, Registry.enrolMonitor, hmonitors]
  · simp [Registry.deref, Registry.enrolClient, hclients]

theorem info_step (h : step e d act = some d') (ha : (d.adapters a).info ≠ none) :
    (d'.adapters a).info ≠ none := by
  have ha : d.registry.info a ≠ none := ha
  change d'.registry.info a ≠ none
  rw [step_registry h]
  cases act with
  | msg caps sender now done =>
    simp only [registryAfter]
    cases d.handledAuth caps sender with
    | none => exact ha
    | some req => exact Registry.info_authenticate_mono ha
  | erase sender now =>
    simp only [registryAfter, Registry.info_leave]
    exact ha
  | expire tp => exact ha
  | close b => exact ha
  | destroy b => exact ha

theorem table_purge (hm : a ∈ (purge n d).table m) : a ∈ d.table m := by
  unfold purge at hm
  split at hm
  · exact hm
  · rw [table_setSubscribers] at hm
    split at hm
    · rename_i heq
      subst heq
      exact (List.mem_filter.mp hm).1
    · exact hm

theorem table_checkSubscriptions {now : Nat} (hm : a ∈ (checkSubscriptions now d).table m) :
    a ∈ d.table m := by
  have hclear (hc : a ∈ (clearSubGabages d).table m) : a ∈ d.table m := by
    rw [table_clearSubGabages] at hc
    exact (List.mem_filter.mp hc).1
  unfold checkSubscriptions at hm
  split at hm
  · exact hclear hm
  · split at hm
    · exact hclear hm
    · exact hm

/-- Only a subscription adds to the stored lists. -/
theorem table_msgHandler {caps : Caps} {now : Nat} {cmd : Int} {ok : Bool}
    (h : msgHandler e now cmd caps sender d = some (d', ok)) (ha : a ∈ d'.table m) :
    a ∈ d.table m ∨ a = sender ∧ (d.adapters sender).info ≠ none := by
  by_cases hcmd : cmd = 1
  · subst hcmd
    obtain ⟨-, rfl, -⟩ | ⟨name, hname, -, ⟨-, rfl⟩ | ⟨-, ws, hws, -⟩⟩ := handleSubscribeReq_spec h
    · exact .inl ha
    · exact .inl ha
    · rw [table, hws.subscriptions] at ha
      have ha : a ∈ (addSubscription name sender d).table m := ha
      rw [table_addSubscription] at ha
      split at ha
      · obtain ha | ha := List.mem_append.mp ha
        · exact .inl ha
        · refine .inr ⟨List.mem_singleton.mp ha, fun hinfo => ?_⟩
          rw [requestedName, if_pos hinfo] at hname
          cases hname
      · exact .inl ha
  · left
    replace h := msgHandler_updates h
    induction h with
    | refl => exact ha
    | tail _ hup ih =>
      apply ih
      cases hup with
      | authenticate req =>
        rw [table, (registryOnly_authenticate e req sender _).subscriptions] at ha
        exact ha
      | subscribe => exact absurd rfl hcmd
      | unsubscribe hlook =>
        rw [table_setSubscribers] at ha
        split at ha
        · rename_i heq
          subst heq
          rw [table, hlook]
          exact (List.mem_filter.mp ha).1
        · exact ha
      | purge name => exact table_purge ha
      | persist name msgtype args =>
        rw [persistPost_rest] at ha
        exact ha
      | methods names _ _ =>
        rw [table, (registryOnly_setInfo _ sender _).subscriptions] at ha
        exact ha
      | write hws =>
        rw [table, hws.subscriptions] at ha
        exact ha
      | reply | refuse | enter => exact ha

theorem table_step (h : step e d act = some d') (ha : a ∈ d'.table m) :
    a ∈ d.table m ∨ (d.adapters a).info ≠ none := by
  cases act with
  | msg caps sender now done =>
    obtain ⟨rfl, -⟩ | ⟨cmd, rest, d₁, ok, -, hh, rfl⟩ := handleMsg_request (step_msg h).2
    · exact .inl ha
    · have ha : a ∈ d₁.table m := by cases ok <;> exact ha
      obtain ha | ⟨rfl, hinfo⟩ := table_msgHandler hh ha
      · exact .inl ha
      · exact .inr hinfo
  | erase sender now =>
    obtain ⟨-, rfl⟩ | ⟨info, d₁, ws, -, hws, -, rfl⟩ := doEraseAdapter_spec (step_erase h).2
    · exact .inl ha
    · have ha := table_checkSubscriptions ha
      have ha : a ∈ d₁.table m := by
        split at ha <;> exact ha
      rw [table, hws.subscriptions, (registryOnly_eraseName info.name d).subscriptions] at ha
      exact .inl ha
  | expire tp =>
    obtain ⟨expired, rest, ws, -, hws, -⟩ := discardPendingCalls_spec h
    rw [table, hws.subscriptions] at ha
    exact .inl ha
  | close b =>
    cases h
    exact .inl ha
  | destroy b =>
    obtain ⟨-, -, rfl⟩ := step_destroy h
    exact .inl ha

theorem info_step_of_ne (hact : ¬ act.isOf a) (h : step e d act = some d') :
    (d'.adapters a).info = (d.adapters a).info := by
  change d'.registry.info a = d.registry.info a
  rw [step_registry h]
  cases act with
  | msg caps sender now done =>
    simp only [registryAfter]
    cases d.handledAuth caps sender with
    | none => rfl
    | some req => exact Registry.info_authenticate fun heq => hact heq.symm
  | erase sender now => exact Registry.info_leave
  | expire tp => rfl
  | close b => rfl
  | destroy b => rfl

/-- Whoever subscribed or takes part in a call had a record then, so its `info` is set. -/
structure Introduced (d : Dispatcher) : Prop where
  subscribed : ∀ m, ∀ a ∈ d.table m, (d.adapters a).info ≠ none
  pending : ∀ pc ∈ d.pendingCalls,
    (d.adapters pc.sender).info ≠ none ∧ (d.adapters pc.target).info ≠ none

theorem info_of_isSome (h : (d.deref a).isSome = true) : (d.adapters a).info ≠ none := by
  obtain ⟨info, hinfo⟩ := Option.isSome_iff_exists.mp h
  exact info_of_deref hinfo

theorem Introduced.step (hi : Introduced d) (h : step e d act = some d') : Introduced d' where
  subscribed m a ha := by
    obtain hold | hinfo := table_step h ha
    · exact info_step h (hi.subscribed m a hold)
    · exact info_step h hinfo
  pending pc hpc := by
    have kept (hmem : pc ∈ d.pendingCalls) :
        (d'.adapters pc.sender).info ≠ none ∧ (d'.adapters pc.target).info ≠ none :=
      ⟨info_step h (hi.pending pc hmem).1, info_step h (hi.pending pc hmem).2⟩
    obtain heq | ⟨new, heq, hsender, htarget, -⟩ | ⟨p, heq⟩ | ⟨expired, heq⟩ := step_pendingCalls h
    · exact kept (heq ▸ hpc)
    · rw [heq] at hpc
      obtain rfl | hpc := List.mem_cons.mp ((insertPendingCall_perm new _).mem_iff.mp hpc)
      · exact ⟨info_step h (info_of_isSome hsender), info_step h (info_of_isSome htarget)⟩
      · exact kept hpc
    · rw [heq] at hpc
      exact kept (List.mem_of_mem_eraseP hpc)
    · exact kept (by rw [heq]; exact List.mem_append_right _ hpc)

theorem introduced_reachable (h : (system e).Reachable d) : Introduced d := by
  apply h.invariant (P := Introduced)
  · rintro s ⟨adapters, rfl, -⟩
    exact ⟨fun _ _ ha => absurd ha List.not_mem_nil, fun _ hpc => absurd hpc List.not_mem_nil⟩
  · exact fun s act t hs hst => hs.step hst

end Dispatcher

namespace Service

variable {e : Env} {s s' : Service} {a : AdapterId}

/-- An auth request that is admitted is the first of its sender to be so: `info` is still null. -/
def AuthOnce (e : Env) (s : Service) : Action → Prop
  | .handle _ _ => ∀ caps a rest req, s.pendingCmds = (some caps, a) :: rest →
    s.disp.handledAuth caps a = some req →
    s.disp.admits e req = true → (s.disp.adapters a).info = none
  | _ => True

theorem handled_record (s : Service) (cmd : Option CmdPacket) (post : Option (PostReq × Caps))
    (d : Dispatcher) : (s.record cmd post d).handled = s.handled ++ cmd.toList := by
  rw [handled, record, List.filterMap_append]
  cases cmd <;> rfl

/-- An adapter whose erase command has been handled is deleted, hence closed, and has nothing queued;
no other adapter lacks the record its `info` points to. -/
structure RecordsKept (s : Service) : Prop where
  sorted : s.disp.registry.Sorted
  backed : s.disp.registry.Backed
  closed : ∀ a, s.phase a ≠ .absent → s.phase a ≠ .reading → (s.disp.adapters a).closed = true
  erased : ∀ a, (none, a) ∈ s.handled →
    s.phase a = .deleted ∧ s.disp.deref a = none ∧ ∀ p ∈ s.queue, p.2 ≠ a
  missing : ∀ a, (s.disp.adapters a).info ≠ none → s.disp.deref a = none → (none, a) ∈ s.handled

namespace RecordsKept

theorem deref_of_queued (h : RecordsKept s) {p : CmdPacket} (hp : p ∈ s.queue)
    (hinfo : (s.disp.adapters p.2).info ≠ none) : (s.disp.deref p.2).isSome = true := by
  rw [Option.isSome_iff_ne_none]
  exact fun hnone => (h.erased p.2 (h.missing p.2 hinfo hnone)).2.2 p hp rfl

theorem deref_of_open (h : RecordsKept s) (hinfo : (s.disp.adapters a).info ≠ none)
    (hopen : (s.disp.adapters a).closed = false) : (s.disp.deref a).isSome = true := by
  rw [Option.isSome_iff_ne_none]
  intro hnone
  obtain ⟨hphase, -⟩ := h.erased a (h.missing a hinfo hnone)
  have hclosed := h.closed a (by rw [hphase]; nofun) (by rw [hphase]; nofun)
  rw [hopen] at hclosed
  cases hclosed

theorem quiet (h : RecordsKept s) {x : Dispatcher.Action} (hx : ∀ a, ¬ x.isOf a)
    (hd : Dispatcher.step e s.disp x = some s'.disp) (hphase : s'.phase = s.phase)
    (hqueue : s'.queue = s.queue) (hhandled : s'.handled = s.handled) : RecordsKept s' where
  sorted := Dispatcher.sorted_step h.sorted hd
  backed := by
    have hreg : s'.disp.registry = s.disp.registry := by
      rw [Dispatcher.step_registry hd]
      cases x with
      | msg caps sender now done => exact absurd rfl (hx sender)
      | erase sender now => exact absurd rfl (hx sender)
      | expire tp => rfl
      | close b => rfl
      | destroy b => rfl
    rw [hreg]
    exact h.backed
  closed a habsent hreading := by
    rw [hphase] at habsent hreading
    exact Dispatcher.step_closed hd (h.closed a habsent hreading)
  erased a ha := by
    rw [hhandled] at ha
    rw [hphase, hqueue, Dispatcher.deref_step (hx a) hd]
    exact h.erased a ha
  missing a hinfo hderef := by
    rw [Dispatcher.info_step_of_ne (hx a) hd] at hinfo
    rw [Dispatcher.deref_step (hx a) hd] at hderef
    rw [hhandled]
    exact h.missing a hinfo hderef

theorem setPhase (h : RecordsKept s) {p : Phase} (hfrom : s.phase a ≠ .deleted)
    (hto : p ≠ .reading → (s.disp.adapters a).closed = true) : RecordsKept (s.setPhase a p) where
  sorted := h.sorted
  backed := h.backed
  closed b habsent hreading := by
    have habsent : Function.update s.phase a p b ≠ .absent := habsent
    have hreading : Function.update s.phase a p b ≠ .reading := hreading
    by_cases hba : b = a
    · subst hba
      rw [Function.update_self] at hreading
      exact hto hreading
    · rw [Function.update_of_ne hba] at habsent hreading
      exact h.closed b habsent hreading
  erased b hb := by
    obtain ⟨hphase, hrest⟩ := h.erased b hb
    have hba : b ≠ a := by
      rintro rfl
      exact hfrom hphase
    refine ⟨?_, hrest⟩
    change Function.update s.phase a p b = .deleted
    rw [Function.update_of_ne hba]
    exact hphase
  missing := h.missing

theorem push (h : RecordsKept s) {p : CmdPacket} (hphase : s.phase p.2 ≠ .deleted) :
    RecordsKept (s.push p) where
  sorted := h.sorted
  backed := h.backed
  closed := h.closed
  erased b hb := by
    obtain ⟨hdeleted, hderef, hqueue⟩ := h.erased b hb
    refine ⟨hdeleted, hderef, fun q hq => ?_⟩
    rw [queue_push] at hq
    obtain hq | hq := List.mem_append.mp hq
    · exact hqueue q hq
    · rw [List.mem_singleton.mp hq]
      rintro rfl
      exact hphase hdeleted
  missing := h.missing

theorem of_eq (h : RecordsKept s) (hdisp : s'.disp = s.disp) (hphase : s'.phase = s.phase)
    (hqueue : s'.queue = s.queue) (hhandled : s'.handled = s.handled) : RecordsKept s' where
  sorted := hdisp ▸ h.sorted
  backed := hdisp ▸ h.backed
  closed a := by
    rw [hdisp, hphase]
    exact h.closed a
  erased a := by
    rw [hdisp, hphase, hqueue, hhandled]
    exact h.erased a
  missing a := by
    rw [hdisp, hhandled]
    exact h.missing a

/-- A command of `a` is taken off the queue; what it does to the record of `a` is left open. -/
theorem advance (h : RecordsKept s) {x : Dispatcher.Action} {p : CmdPacket}
    (hx : ∀ b, b ≠ p.2 → ¬ x.isOf b) (hd : Dispatcher.step e s.disp x = some s'.disp)
    (hphase : s'.phase = s.phase) (hqueue : s.queue = p :: s'.queue)
    (hhandled : s'.handled = s.handled ++ [p]) (hbacked : s'.disp.registry.Backed)
    (herased : (none, p.2) ∈ s'.handled → s.phase p.2 = .deleted ∧ s'.disp.deref p.2 = none ∧
      ∀ q ∈ s'.queue, q.2 ≠ p.2)
    (hmissing : (s'.disp.adapters p.2).info ≠ none → s'.disp.deref p.2 = none →
      (none, p.2) ∈ s'.handled) : RecordsKept s' where
  sorted := Dispatcher.sorted_step h.sorted hd
  backed := hbacked
  closed b habsent hreading := by
    rw [hphase] at habsent hreading
    exact Dispatcher.step_closed hd (h.closed b habsent hreading)
  erased b hb := by
    rw [hphase]
    by_cases hba : b = p.2
    · subst hba
      exact herased hb
    · rw [hhandled] at hb
      obtain hb | hb := List.mem_append.mp hb
      · obtain ⟨hdeleted, hderef, hnone⟩ := h.erased b hb
        rw [Dispatcher.deref_step (hx b hba) hd]
        exact ⟨hdeleted, hderef, fun q hq => hnone q (by rw [hqueue]; exact List.mem_cons_of_mem _ hq)⟩
      · rw [← List.mem_singleton.mp hb] at hba
        exact absurd rfl hba
  missing b hinfo hderef := by
    by_cases hba : b = p.2
    · subst hba
      exact hmissing hinfo hderef
    · rw [Dispatcher.info_step_of_ne (hx b hba) hd] at hinfo
      rw [Dispatcher.deref_step (hx b hba) hd] at hderef
      rw [hhandled]
      exact List.mem_append_left _ (h.missing b hinfo hderef)

theorem handleErase (h : RecordsKept s) (hlast : EraseLast s) {now : Nat}
    (hd : Dispatcher.step e s.disp (.erase a now) = some s'.disp) (hphase : s'.phase = s.phase)
    (hqueue : s.queue = (none, a) :: s'.queue) (hhandled : s'.handled = s.handled ++ [(none, a)]) :
    RecordsKept s' := by
  have hself : (none, a) ∈ s'.handled := by
    rw [hhandled]
    exact List.mem_append_right _ (List.mem_singleton_self _)
  have hreg := Dispatcher.step_registry hd
  simp only [Dispatcher.registryAfter] at hreg
  have hgone : s'.disp.registry.Backed ∧ s'.disp.registry.deref a = none := by
    rw [hreg]
    cases hitem : s.disp.registry.deref a with
    | none =>
      rw [Registry.leave_of_none hitem]
      exact ⟨h.backed, hitem⟩
    | some item =>
      rw [Registry.leave_of_some hitem]
      have habsent := Registry.absent_erase h.sorted h.backed hitem
      exact ⟨h.backed.erase h.sorted hitem, habsent.deref_eq_none⟩
  have hother (b : AdapterId) (hb : b ≠ a) : ¬ (Dispatcher.Action.erase a now).isOf b :=
    fun heq => hb heq.symm
  refine h.advance (p := (none, a)) hother hd hphase hqueue hhandled hgone.1
    (fun _ => ?_) fun _ _ => hself
  have hlater := hlast.last
  rw [hqueue] at hlater
  refine ⟨hlast.erased a (by rw [hqueue]; exact List.mem_cons_self), ?_, fun q hq => ?_⟩
  · have hnone := hgone.2
    rw [Dispatcher.registry_deref, Option.map_eq_none_iff] at hnone
    exact hnone
  · exact (List.pairwise_cons.mp hlater).1 q hq rfl

/-- A message of `a` leaves the registry as it is, or gives `a` its first record. -/
theorem registry_handleMsg (h : RecordsKept s) {caps : Caps} {rest : List CmdPacket} {now done : Nat}
    (hcons : s.pendingCmds = (some caps, a) :: rest)
    (hd : Dispatcher.step e s.disp (.msg caps a now done) = some s'.disp)
    (honce : AuthOnce e s (.handle now done)) :
    s'.disp.registry = s.disp.registry ∨
      s'.disp.registry.Backed ∧ s'.disp.registry.deref a ≠ none := by
  have hreg := Dispatcher.step_registry hd
  simp only [Dispatcher.registryAfter] at hreg
  cases hreq : s.disp.handledAuth caps a with
  | none =>
    rw [hreq] at hreg
    exact .inl hreg
  | some req =>
    rw [hreq] at hreg
    have hreg : s'.disp.registry = s.disp.registry.authenticate e.flags req a := hreg
    by_cases hres : s.disp.admits e req = true
    · have hinfo := honce caps a rest req hcons hreq hres
      have hre : ¬ s.disp.registry.Reregisters e.flags req a := by
        rintro ⟨hclient, -⟩
        have hpoint : (s.disp.adapters a).info = some .client := h.backed.info a hclient
        rw [hinfo] at hpoint
        cases hpoint
      have hgate := Dispatcher.isMonitor_of_handledAuth hreq
      right
      rw [hreg]
      exact ⟨h.backed.authenticate h.sorted
        (fun i hi => Dispatcher.flags_of_isMonitor hgate hi) hre,
        Dispatcher.deref_authenticated h.sorted h.backed hinfo hres⟩
    · rw [Dispatcher.registry_of_refused (Bool.eq_false_iff.mpr hres)] at hreg
      exact .inl hreg

theorem handleMsg (h : RecordsKept s) {caps : Caps} {rest : List CmdPacket} {now done : Nat}
    (hcons : s.pendingCmds = (some caps, a) :: rest)
    (hd : Dispatcher.step e s.disp (.msg caps a now done) = some s'.disp)
    (hphase : s'.phase = s.phase) (hqueue : s.queue = (some caps, a) :: s'.queue)
    (hhandled : s'.handled = s.handled ++ [(some caps, a)])
    (honce : AuthOnce e s (.handle now done)) : RecordsKept s' := by
  have hhead : (some caps, a) ∈ s.queue := by
    rw [hqueue]
    exact List.mem_cons_self
  have hself (hinfo : (s.disp.adapters a).info ≠ none) : (s.disp.deref a).isSome = true :=
    h.deref_of_queued hhead hinfo
  have hcases := h.registry_handleMsg hcons hd honce
  have hother (b : AdapterId) (hb : b ≠ a) : ¬ (Dispatcher.Action.msg caps a now done).isOf b :=
    fun heq => hb heq.symm
  refine h.advance (p := (some caps, a)) hother hd hphase hqueue hhandled ?_
    (fun hmem => ?_) fun hinfo hderef => ?_
  · obtain hsame | ⟨hbacked, -⟩ := hcases
    · rw [hsame]
      exact h.backed
    · exact hbacked
  · rw [hhandled] at hmem
    obtain hmem | hmem := List.mem_append.mp hmem
    · exact absurd rfl ((h.erased a hmem).2.2 _ hhead)
    · cases List.mem_singleton.mp hmem
  · obtain hsame | ⟨-, hrecord⟩ := hcases
    · have hinfo : (s.disp.adapters a).info ≠ none := by
        have hinfo : s'.disp.registry.info a ≠ none := hinfo
        rw [hsame] at hinfo
        exact hinfo
      have hfound := Dispatcher.isSome_deref_iff.mp (hself hinfo)
      rw [← hsame, ← Dispatcher.isSome_deref_iff, hderef] at hfound
      cases hfound
    · rw [← Dispatcher.isSome_deref_iff, hderef] at hrecord
      cases hrecord

end RecordsKept

theorem recordsKept_step {act : Action} (hs : RecordsKept s) (hin : InOrder s) (hlast : EraseLast s)
    (h : step e s act = some s') (honce : AuthOnce e s act) : RecordsKept s' := by
  cases act with
  | accept a =>
    obtain ⟨hphase, _, rfl⟩ := step_accept h
    exact hs.setPhase (by rw [hphase]; nofun) fun hne => absurd rfl hne
  | put a caps =>
    obtain ⟨hphase, rfl⟩ := step_put h
    exact hs.push (p := (some caps, a)) (by rw [hphase]; nofun)
  | closeAdapter a =>
    obtain ⟨hphase, rfl⟩ := step_closeAdapter h
    have hclosed : RecordsKept { s with disp := s.disp.close a } :=
      hs.quiet (e := e) (x := .close a) (fun b => id) rfl rfl rfl rfl
    refine hclosed.setPhase (by rw [hphase]; nofun) fun _ => ?_
    change ((s.disp.close a).adapters a).closed = true
    rw [Dispatcher.close_adapters, beq_self_eq_true, Bool.or_true]
  | checkInfo a =>
    obtain ⟨hphase, rfl⟩ := step_checkInfo h
    refine hs.setPhase (by rw [hphase]; nofun) fun _ => ?_
    exact hs.closed a (by rw [hphase]; nofun) (by rw [hphase]; nofun)
  | pushErase a =>
    obtain ⟨hphase, rfl⟩ := step_pushErase h
    have hpushed := hs.push (p := (none, a)) (by rw [hphase]; nofun)
    refine hpushed.setPhase (by change s.phase a ≠ _; rw [hphase]; nofun) fun _ => ?_
    exact hs.closed a (by rw [hphase]; nofun) (by rw [hphase]; nofun)
  | destroy a =>
    obtain ⟨_, _, d, hd, rfl⟩ := step_destroy h
    exact hs.quiet (x := .destroy a) (fun b => id) hd rfl rfl rfl
  | loop tp =>
    obtain ⟨hpc, ⟨_, rfl⟩ | ⟨_, _, d, hd, rfl⟩ | rfl⟩ := step_loop h
    · exact hs.of_eq rfl rfl rfl rfl
    · refine hs.quiet (x := .expire tp) (fun b => id) hd rfl rfl ?_
      exact (handled_record s none none d).trans (List.append_nil _)
    · refine hs.of_eq rfl rfl ?_ rfl
      change (s.cmdPackets ++ s.pendingCmds) ++ [] = s.pendingCmds ++ s.cmdPackets
      rw [hin.batch (by rw [hpc]; nofun), List.append_nil, List.append_nil, List.nil_append]
  | handle now done =>
    obtain ⟨_, ⟨_, rfl⟩ | ⟨⟨caps, a⟩, rest, d, hcons, hd, rfl⟩⟩ := step_handle h
    · exact hs.of_eq rfl rfl rfl rfl
    · have hqueue : s.queue = (caps, a) :: (rest ++ s.cmdPackets) := by
        rw [queue, hcons, List.cons_append]
      cases caps with
      | none => exact hs.handleErase hlast hd rfl hqueue (handled_record s (some _) _ d)
      | some caps => exact hs.handleMsg hcons hd rfl hqueue (handled_record s (some _) _ d) honce
  | wake =>
    obtain ⟨_, rfl⟩ := step_wake h
    exact hs.of_eq rfl rfl rfl rfl
  | close =>
    cases h
    exact hs.of_eq rfl rfl rfl rfl

theorem recordsKept_reachable (h : ((system e).guard (AuthOnce e)).Reachable s) :
    RecordsKept s := by
  apply h.invariant_of (P := RecordsKept)
  · rintro s ⟨d, hd, rfl⟩
    have hsound := Dispatcher.sound_initial hd
    obtain ⟨adapters, rfl, hfresh⟩ := hd
    refine ⟨hsound.sorted, hsound.consistent.toBacked, fun _ habsent => absurd rfl habsent, ?_, ?_⟩
    · exact fun _ ha => absurd ha List.not_mem_nil
    · exact fun a hinfo => absurd (hfresh a).1 hinfo
  · intro s act t hr hs hst
    exact recordsKept_step hs (inOrder_reachable hr.of_guard) (eraseLast_reachable hr.of_guard)
      hst.2 hst.1

/-- Every adapter registers at most once, and not after it has been deleted. -/
def RegistersOnce (e : Env) (s : Service) (act : Action) : Prop :=
  AuthOnce e s act ∧ RegistersInTime e s act

/-- What the dispatcher thread does next: a pass over the pending calls, or a command. -/
inductive Next (e : Env) (s : Service) : Dispatcher.Action → Prop
  | pass {tp : Nat} : s.pc = .locked → s.working = true → s.cmdPackets = [] → s.pendingCmds = [] →
    Next e s (.expire tp)
  | command {now done : Nat} {p : CmdPacket} {rest : List CmdPacket} : s.pc = .handling →
    s.pendingCmds = p :: rest → AuthOnce e s (.handle now done) → Next e s (command now done p)

variable {caps : Caps} {now done tp : Nat}

theorem reads_msg (h : RecordsKept s) (hf : FreedApart s) (hi : Dispatcher.Introduced s.disp)
    {rest : List CmdPacket} (hcons : s.pendingCmds = (some caps, a) :: rest)
    (honce : AuthOnce e s (.handle now done)) :
    Dispatcher.ReadsRecords e s.disp (.msg caps a now done) := by
  have hhead : (some caps, a) ∈ s.queue := by
    rw [queue, hcons]
    exact List.mem_cons_self
  have halive : s.disp.alive a = true := hf.queued _ hhead
  have hkept (req : AuthReq) (b : AdapterId) :
      (Dispatcher.authenticate e req a s.disp).1.alive b = s.disp.alive b := by
    rw [Dispatcher.alive, (Dispatcher.registryOnly_authenticate e req a s.disp).destroyed]
    rfl
  intro x b hread
  cases hread with
  | sender hinfo => exact ⟨halive, h.deref_of_queued hhead hinfo⟩
  | registered hreq hres _ =>
    rw [hkept, Dispatcher.isSome_deref_iff, Dispatcher.registry_authenticate]
    have hadmits := (Dispatcher.authenticate_result _ a s.disp).mp hres
    exact ⟨halive, Dispatcher.deref_authenticated h.sorted h.backed
      (honce caps a rest _ hcons hreq hadmits) hadmits⟩
  | listAdd hreq hres hflag hm =>
    have hlisted := (Dispatcher.mem_monitors_authenticate hflag).mp hm
    have hgate := Dispatcher.isMonitor_of_handledAuth hreq
    rw [Dispatcher.mem_monitors_iff, Dispatcher.registry_authenticate] at hm
    rw [hkept, Dispatcher.isSome_deref_iff, Dispatcher.registry_authenticate]
    refine ⟨hf.monitor hlisted, Registry.deref_of_monitors (h.sorted.authenticate fun i hi => ?_) hm⟩
    exact Dispatcher.flags_of_isMonitor hgate hi
  | subscriber _ hb =>
    obtain ⟨hmem, hlive⟩ := List.mem_filter.mp hb
    refine ⟨Dispatcher.alive_of_live hlive, ?_⟩
    rw [Dispatcher.live, Bool.and_eq_true, Bool.not_eq_true', Bool.not_eq_true'] at hlive
    exact h.deref_of_open (hi.subscribed _ b hmem) hlive.2
  | target _ _ _ hname =>
    obtain ⟨-, i, hclient, -⟩ := h.backed.named _ b hname
    rw [Dispatcher.isSome_deref_iff]
    exact ⟨hf.named _ b hname,
      Registry.deref_of_clients h.backed (by rw [hclient]; exact Option.some_ne_none i)⟩
  | caller _ _ _ hfind hopen =>
    have hmem := List.mem_of_find?_eq_some hfind
    exact ⟨(hf.calls _ hmem).1, h.deref_of_open (hi.pending _ hmem).1 hopen⟩

theorem reads_erase (h : RecordsKept s) (hf : FreedApart s) {rest : List CmdPacket}
    (hcons : s.pendingCmds = (none, a) :: rest) :
    Dispatcher.ReadsRecords e s.disp (.erase a now) := by
  have hhead : (none, a) ∈ s.queue := by
    rw [queue, hcons]
    exact List.mem_cons_self
  intro x b hread
  cases hread with
  | erased hinfo => exact ⟨hf.queued _ hhead, h.deref_of_queued hhead hinfo⟩
  | listRemove _ _ hm =>
    refine ⟨hf.monitor hm, ?_⟩
    rw [Dispatcher.mem_monitors_iff] at hm
    rw [Dispatcher.isSome_deref_iff]
    exact Registry.deref_of_monitors h.sorted hm

/-- The caller of a call that times out is open; its target is read without a check. -/
theorem reads_expire_iff (h : RecordsKept s) (hf : FreedApart s)
    (hi : Dispatcher.Introduced s.disp) : Dispatcher.ReadsRecords e s.disp (.expire tp) ↔
      ∀ pc, Dispatcher.TimesOut e tp s.disp pc → (none, pc.target) ∉ s.handled := by
  have hpending {pc : PendingCall} (hout : Dispatcher.TimesOut e tp s.disp pc) :
      pc ∈ s.disp.pendingCalls := by
    obtain ⟨pre, post, hsplit, -⟩ := hout
    rw [hsplit]
    exact List.mem_append_right _ List.mem_cons_self
  constructor
  · intro hreads pc hout herased
    have hfound :=
      (hreads s.disp pc.target (.expired hout (.inr rfl) (hi.pending pc (hpending hout)).2)).2
    rw [(h.erased pc.target herased).2.1] at hfound
    cases hfound
  · intro hkept x b hread
    cases hread with
    | expired hout heq hinfo =>
      have hparties := hf.calls _ (hpending hout)
      obtain rfl | rfl := heq
      · obtain ⟨_, _, -, -, -, hopen, -⟩ := hout
        exact ⟨hparties.1, h.deref_of_open hinfo hopen⟩
      · refine ⟨hparties.2, ?_⟩
        rw [Option.isSome_iff_ne_none]
        exact fun hnone => hkept _ hout (h.missing _ hinfo hnone)

/-- In every run whose adapters register at most once and before they are deleted, what the
dispatcher thread does next finds all adapters and records it reads, unless it is a pass over the
pending calls in which the answer for a call to an erased target times out. Nothing else than such
a read, a dead sender or a negative command word stops it. -/
theorem reads_live_records (h : ((system e).guard (RegistersOnce e)).Reachable s)
    {act : Dispatcher.Action} (hnext : Next e s act) :
    (Dispatcher.ReadsRecords e s.disp act ↔
      ∀ tp pc, act = .expire tp → Dispatcher.TimesOut e tp s.disp pc →
        (none, pc.target) ∉ s.handled) ∧
    (Dispatcher.ReadsRecords e s.disp act → s.disp.Startable act →
      ∃ d, Dispatcher.step e s.disp act = some d) := by
  have hkept := recordsKept_reachable (h.guard_mono fun _ _ => And.left)
  have hf := freedApart_reachable (h.guard_mono fun _ _ => And.right)
  have hi := Dispatcher.introduced_reachable (disp_reachable h.of_guard)
  refine ⟨?_, fun hreads hstart =>
    Option.isSome_iff_exists.mp (Dispatcher.step_isSome hreads hstart)⟩
  cases hnext with
  | pass =>
    rw [reads_expire_iff hkept hf hi]
    constructor
    · rintro hall tp pc heq
      cases heq
      exact hall pc
    · exact fun hall pc => hall _ pc rfl
  | @command now done p rest _ hcons honce =>
    obtain ⟨caps, a⟩ := p
    cases caps with
    | none => exact iff_of_true (reads_erase hkept hf hcons) nofun
    | some caps => exact iff_of_true (reads_msg hkept hf hi hcons honce) nofun

/-- A service on which the fourth write times out. -/
def sampleSlowEnv : Env :=
  { Dispatcher.sampleEnv with os := fun n => if n = 3 then .timeout else .success }

/-- Adapter 0 calls a method of adapter 1, whose connection is then lost and erased. -/
def sampleVanishes : List Action :=
  [.accept 0, .accept 1, .put 0 (RequestSerializer.serializeAuth floraVersion "c" 1 0),
    .put 1 (RequestSerializer.serializeAuth floraVersion "s" 2 0),
    .put 1 (RequestSerializer.serializeDeclareMethod "m"),
    .put 0 (RequestSerializer.serializeCall "m" none "s" 7 0), .loop 0, .handle 0 0, .handle 0 0,
    .handle 0 0, .handle 0 0, .closeAdapter 1, .checkInfo 1, .pushErase 1, .handle 0 0, .loop 0,
    .handle 0 0, .handle 0 0]

def sampleVanished : Service := (execute (step sampleSlowEnv) {} sampleVanishes).getD {}

/-- The next command is no auth request, or its sender has no record yet and is not deleted. -/
def HeadFirst (s : Service) (_ : Action) : Prop :=
  ∀ p ∈ s.pendingCmds.head?, p.1.bind (s.disp.handledAuth · p.2) = none ∨
    (s.disp.adapters p.2).info = none ∧ s.disp.adapterInfos.lookup p.2 = none ∧
      s.phase p.2 ≠ .deleted

instance : ∀ s act, Decidable (HeadFirst s act) :=
  fun s _ => inferInstanceAs (Decidable (∀ p ∈ s.pendingCmds.head?, _))

theorem registersOnce_of_headFirst {act : Action} (h : HeadFirst s act) :
    RegistersOnce e s act := by
  cases act with
  | handle now done =>
    have hfirst {caps : Caps} {a : AdapterId} {rest : List CmdPacket} {req : AuthReq}
        (hcons : s.pendingCmds = (some caps, a) :: rest)
        (hreq : s.disp.handledAuth caps a = some req) : (s.disp.adapters a).info = none ∧
          s.disp.adapterInfos.lookup a = none ∧ s.phase a ≠ .deleted := by
      obtain hno | hfirst := h (some caps, a) (by rw [hcons]; rfl)
      · rw [Option.bind_some, hreq] at hno
        cases hno
      · exact hfirst
    constructor
    · exact fun caps a rest req hcons hreq _ => (hfirst hcons hreq).1
    · intro caps a rest req hcons hreq
      obtain ⟨-, hkey, hphase⟩ := hfirst hcons hreq
      exact ⟨fun hre => hre.1 (Option.map_eq_none_iff.mpr hkey), fun hlate => hphase hlate.1⟩
  | _ => exact ⟨trivial, trivial⟩

theorem sampleVanished_reachable :
    ((system sampleSlowEnv).guard (RegistersOnce sampleSlowEnv)).Reachable sampleVanished := by
  have hrun : ((system sampleSlowEnv).guard HeadFirst).Run {} sampleVanishes sampleVanished :=
    execute_guarded_run rfl
  exact ⟨{}, sampleVanishes, initial_default,
    hrun.guard_mono fun _ _ => registersOnce_of_headFirst⟩

theorem reads_live_records_early :
    Next sampleSlowEnv sampleVanished (.expire 0) ∧
      Dispatcher.ReadsRecords sampleSlowEnv sampleVanished.disp (.expire 0) := by
  have hnext : Next sampleSlowEnv sampleVanished (.expire 0) := .pass rfl rfl rfl rfl
  refine ⟨hnext, (reads_live_records sampleVanished_reachable hnext).1.mpr fun tp pc heq hout => ?_⟩
  obtain ⟨pre, post, hsplit, -, hdue, -⟩ := hout
  cases heq
  have hlate : ∀ p ∈ sampleVanished.disp.pendingCalls, 0 < p.discardTp := by decide
  exact absurd hdue (Nat.not_le.mpr (hlate pc (by rw [hsplit]; simp)))

/-- The answer for the call to the erased adapter times out, and its log line names the target. -/
theorem reads_live_records_fails_erased_target :
    ¬ ∀ (e : Env) (s : Service) (act : Dispatcher.Action),
      ((system e).guard (AuthOnce e)).Reachable s → Next e s act →
        Dispatcher.ReadsRecords e s.disp act := by
  intro h
  have hreach := sampleVanished_reachable.guard_mono fun _ _ => And.left
  obtain ⟨pc, hpending, hopen, hinfo, htarget⟩ : ∃ pc, sampleVanished.disp.pendingCalls = [pc] ∧
      (sampleVanished.disp.adapters pc.sender).closed = false ∧
      (sampleVanished.disp.adapters pc.target).info ≠ none ∧
      sampleVanished.disp.deref pc.target = none := ⟨_, rfl, rfl, nofun, rfl⟩
  have hreads := h sampleSlowEnv sampleVanished (.expire pc.discardTp) hreach
    (.pass rfl rfl rfl rfl)
  have hout : Dispatcher.TimesOut sampleSlowEnv pc.discardTp sampleVanished.disp pc :=
    ⟨[], [], hpending, nofun, Nat.le_refl _, hopen, nofun, rfl⟩
  have hfound := (hreads sampleVanished.disp pc.target (.expired hout (.inr rfl) hinfo)).2
  rw [htarget] at hfound
  cases hfound

end Service

end Flora
