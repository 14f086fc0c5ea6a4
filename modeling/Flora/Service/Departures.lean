import Flora.Service.Records

/-! # Dead subscriptions are cleared

`check_subscriptions` counts the adapters that leave and purges the whole table when enough of them
have. An adapter that is destroyed while it is subscribed stays in the table for fewer departures
than that. -/

namespace Flora

open TransitionSystem

namespace Dispatcher

variable {e : Env} {d d' : Dispatcher} {a : AdapterId} {m : String} {act : Action}

theorem msgHandler_clearSubPrio {caps : Caps} {sender : AdapterId} {now : Nat} {cmd : Int}
    {ok : Bool} (h : msgHandler e now cmd caps sender d = some (d', ok)) :
    d'.clearSubPrio = d.clearSubPrio := by
  replace h := msgHandler_updates h
  induction h with
  | refl => rfl
  | tail _ hup ih =>
    rw [← ih]
    cases hup with
    | authenticate req => rw [(registryOnly_authenticate e req sender _).rest]
    | unsubscribe =>
      unfold setSubscribers
      split <;> rfl
    | purge name => rw [purge_rest]
    | persist name msgtype args => rw [persistPost_rest]
    | methods names _ _ => rw [(registryOnly_setInfo _ sender _).rest]
    | write hws => rw [hws.rest]
    | subscribe | reply | refuse | enter => rfl

/-- A departure is counted, or it purges the table. -/
theorem checkSubscriptions_counts (now : Nat) (d : Dispatcher) :
    (d.clearSubPrio + 1 < clearSubscriptionThreshold ∧
      (checkSubscriptions now d).clearSubPrio = d.clearSubPrio + 1) ∨
    ((checkSubscriptions now d).clearSubPrio = 0 ∧
      ∀ m, ∀ a ∈ (checkSubscriptions now d).table m, d.alive a = true) := by
  have hpurged (m : String) (a : AdapterId) (ha : a ∈ (clearSubGabages d).table m) :
      d.alive a = true := by
    rw [table_clearSubGabages] at ha
    exact (List.mem_filter.mp ha).2
  unfold checkSubscriptions
  split
  · exact .inr ⟨rfl, hpurged⟩
  · split
    · exact .inr ⟨rfl, hpurged⟩
    · rename_i hbelow
      exact .inl ⟨Nat.lt_of_not_le hbelow, rfl⟩

theorem erase_counts {now : Nat} (hinfo : (d.adapters a).info ≠ none)
    (h : doEraseAdapter e now a d = some d') :
    (d.clearSubPrio + 1 < clearSubscriptionThreshold ∧ d'.clearSubPrio = d.clearSubPrio + 1) ∨
    (d'.clearSubPrio = 0 ∧ ∀ m, ∀ b ∈ d'.table m, d.alive b = true) := by
  obtain ⟨hnone, -⟩ | ⟨info, d₁, ws, -, hws, -, rfl⟩ := doEraseAdapter_spec h
  · exact absurd hnone hinfo
  · have hprio : d₁.clearSubPrio = d.clearSubPrio := by
      rw [hws.rest, (registryOnly_eraseName info.name d).rest]
    have halive : d₁.alive = d.alive := by
      funext b
      rw [alive, hws.destroyed, (registryOnly_eraseName info.name d).destroyed]
      rfl
    rw [← hprio, ← halive]
    split
    · exact checkSubscriptions_counts now { d₁ with monitors := d₁.monitors.erase a }
    · exact checkSubscriptions_counts now { d₁ with adapterInfos := d₁.adapterInfos.erase a }

theorem erase_unknown {now : Nat} (hinfo : (d.adapters a).info = none)
    (h : doEraseAdapter e now a d = some d') : d' = d := by
  rw [doEraseAdapter, if_pos hinfo] at h
  exact (Option.some.inj h).symm

theorem step_clearSubPrio (h : step e d act = some d') (hact : ∀ a now, act ≠ .erase a now) :
    d'.clearSubPrio = d.clearSubPrio := by
  cases act with
  | msg caps sender now done =>
    obtain ⟨rfl, -⟩ | ⟨cmd, rest, d₁, ok, -, hh, rfl⟩ := handleMsg_request (step_msg h).2
    · rfl
    · have hprio := msgHandler_clearSubPrio hh
      cases ok <;> exact hprio
  | erase sender now => exact absurd rfl (hact sender now)
  | expire tp =>
    obtain ⟨expired, rest, ws, -, hws, -⟩ := discardPendingCalls_spec h
    rw [hws.rest]
  | close b =>
    cases h
    rfl
  | destroy b =>
    obtain ⟨-, -, rfl⟩ := step_destroy h
    rfl

theorem step_dead (h : step e d act = some d') (ha : d.alive a = false) : d'.alive a = false := by
  obtain heq | ⟨-, hdead⟩ := step_alive (a := a) h
  · rw [heq]
    exact ha
  · exact hdead

theorem step_dead_table (h : step e d act = some d') (ha : d.alive a = false)
    (hm : a ∈ d'.table m) : a ∈ d.table m := by
  cases act with
  | msg caps sender now done =>
    obtain ⟨halive, h⟩ := step_msg h
    obtain ⟨rfl, -⟩ | ⟨cmd, rest, d₁, ok, -, hh, rfl⟩ := handleMsg_request h
    · exact hm
    · have hm : a ∈ d₁.table m := by cases ok <;> exact hm
      obtain hm | ⟨rfl, -⟩ := table_msgHandler hh hm
      · exact hm
      · exact absurd (halive.symm.trans ha) (by simp)
  | erase sender now =>
    obtain ⟨-, rfl⟩ | ⟨info, d₁, ws, -, hws, -, rfl⟩ := doEraseAdapter_spec (step_erase h).2
    · exact hm
    · have hm := table_checkSubscriptions hm
      have hm : a ∈ d₁.table m := by
        split at hm <;> exact hm
      rw [table, hws.subscriptions, (registryOnly_eraseName info.name d).subscriptions] at hm
      exact hm
  | expire tp =>
    obtain ⟨expired, rest, ws, -, hws, -⟩ := discardPendingCalls_spec h
    rw [table, hws.subscriptions] at hm
    exact hm
  | close b =>
    cases h
    exact hm
  | destroy b =>
    obtain ⟨-, -, rfl⟩ := step_destroy h
    exact hm

theorem clearSubPrio_lt (h : (system e).Reachable d) :
    d.clearSubPrio < clearSubscriptionThreshold := by
  apply h.invariant (P := fun d => d.clearSubPrio < clearSubscriptionThreshold)
  · rintro d ⟨adapters, rfl, -⟩
    exact Nat.zero_lt_succ _
  · intro d act d' hd hst
    by_cases hact : ∃ a now, act = .erase a now
    · obtain ⟨a, now, rfl⟩ := hact
      have herase := (step_erase hst).2
      by_cases hinfo : (d.adapters a).info = none
      · rw [erase_unknown hinfo herase]
        exact hd
      · obtain ⟨hlt, hprio⟩ | ⟨hprio, -⟩ := erase_counts hinfo herase
        · rw [hprio]
          exact hlt
        · rw [hprio]
          decide
    · rw [step_clearSubPrio hst fun a now heq => hact ⟨a, now, heq⟩]
      exact hd

end Dispatcher

namespace Service

variable {e : Env} {s s' : Service} {a : AdapterId}

/-- The erase commands that have been handled. -/
def departures (js : List Entry) : Nat := js.countP fun j => j.cmd.any (·.1.isNone)

/-- Only an adapter with a record has an erase command. -/
structure Known (s : Service) : Prop where
  erasing : ∀ a, s.phase a = .erasing → (s.disp.adapters a).info ≠ none
  queued : ∀ a, (none, a) ∈ s.queue → (s.disp.adapters a).info ≠ none

theorem Known.setPhase (h : Known s) {p : Phase}
    (hp : p = .erasing → (s.disp.adapters a).info ≠ none) : Known (s.setPhase a p) where
  erasing b hb := by
    by_cases hba : b = a
    · subst hba
      exact hp (by simpa [Service.setPhase] using hb)
    · exact h.erasing b (by simpa [Service.setPhase, Function.update_of_ne hba] using hb)
  queued := h.queued

theorem Known.push (h : Known s) {p : CmdPacket}
    (hp : p.1 = none → (s.disp.adapters p.2).info ≠ none) : Known (s.push p) where
  erasing := h.erasing
  queued b hb := by
    rw [queue_push] at hb
    obtain hb | hb := List.mem_append.mp hb
    · exact h.queued b hb
    · rw [← List.mem_singleton.mp hb] at hp
      exact hp rfl

theorem Known.advance (h : Known s) {x : Dispatcher.Action} (hphase : s'.phase = s.phase)
    (hqueue : s'.queue ⊆ s.queue) (hst : Dispatcher.step e s.disp x = some s'.disp) : Known s' where
  erasing b hb := Dispatcher.info_step hst (h.erasing b (hphase ▸ hb))
  queued b hb := Dispatcher.info_step hst (h.queued b (hqueue hb))

theorem known_step {act : Action} (hs : Known s) (h : step e s act = some s') : Known s' := by
  cases act with
  | accept a =>
    obtain ⟨-, -, rfl⟩ := step_accept h
    exact hs.setPhase (by simp)
  | put a caps =>
    obtain ⟨-, rfl⟩ := step_put h
    exact hs.push (by simp)
  | closeAdapter a =>
    obtain ⟨-, rfl⟩ := step_closeAdapter h
    have hclosed : Known { s with disp := s.disp.close a } :=
      hs.advance (e := e) (x := .close a) rfl (List.Subset.refl _) rfl
    exact hclosed.setPhase (by simp)
  | checkInfo a =>
    obtain ⟨-, rfl⟩ := step_checkInfo h
    apply hs.setPhase
    split
    · simp
    · rename_i hinfo
      exact fun _ => hinfo
  | pushErase a =>
    obtain ⟨hphase, rfl⟩ := step_pushErase h
    exact (hs.push fun _ => hs.erasing a hphase).setPhase (by simp)
  | destroy a =>
    obtain ⟨-, -, d, hd, rfl⟩ := step_destroy h
    exact hs.advance rfl (List.Subset.refl _) hd
  | loop tp =>
    obtain ⟨-, ⟨-, rfl⟩ | ⟨-, -, d, hd, rfl⟩ | rfl⟩ := step_loop h
    · exact ⟨hs.erasing, hs.queued⟩
    · exact hs.advance rfl (List.Subset.refl _) hd
    · refine ⟨hs.erasing, fun b hb => hs.queued b ?_⟩
      simpa [queue, or_comm] using hb
  | handle now done =>
    obtain ⟨-, ⟨-, rfl⟩ | ⟨p, rest, d, hcons, hd, rfl⟩⟩ := step_handle h
    · exact ⟨hs.erasing, hs.queued⟩
    · refine hs.advance rfl ?_ hd
      intro q hq
      rw [queue, hcons]
      exact List.mem_cons_of_mem p hq
  | wake =>
    obtain ⟨-, rfl⟩ := step_wake h
    exact ⟨hs.erasing, hs.queued⟩
  | close =>
    cases h
    exact ⟨hs.erasing, hs.queued⟩

theorem known_reachable (h : (system e).Reachable s) : Known s := by
  apply h.invariant
  · rintro s ⟨d, -, rfl⟩
    exact ⟨by simp, by simp [queue]⟩
  · exact fun s act t hs hst => known_step hs hst

/-- Since the state `s`, in which `a` was destroyed, the departures have been counted, or the table
has been purged of `a`. -/
structure Fading (s : Service) (a : AdapterId) (s' : Service) : Prop where
  dead : s'.disp.alive a = false
  journal : ∃ js, s'.journal = s.journal ++ js ∧
    (s'.disp.clearSubPrio = s.disp.clearSubPrio + departures js ∨ ∀ m, a ∉ s'.disp.table m)

theorem Fading.of_eq {t t' : Service} (h : Fading s a t) (hdisp : t'.disp = t.disp)
    (hjournal : t'.journal = t.journal) : Fading s a t' where
  dead := hdisp ▸ h.dead
  journal := hdisp ▸ hjournal ▸ h.journal

theorem Fading.advance {t t' : Service} {x : Dispatcher.Action} {ks : List Entry}
    (h : Fading s a t) (hx : Dispatcher.step e t.disp x = some t'.disp)
    (hjournal : t'.journal = t.journal ++ ks)
    (hcount : t'.disp.clearSubPrio = t.disp.clearSubPrio + departures ks ∨
      ∀ m, a ∉ t'.disp.table m) : Fading s a t' where
  dead := Dispatcher.step_dead hx h.dead
  journal := by
    obtain ⟨js, hjs, hold⟩ := h.journal
    refine ⟨js ++ ks, by rw [hjournal, hjs, List.append_assoc], ?_⟩
    obtain hcount | hgone := hcount
    · obtain hold | hgone := hold
      · left
        rw [hcount, hold, departures, departures, departures, List.countP_append, Nat.add_assoc]
      · exact .inr fun m hm => hgone m (Dispatcher.step_dead_table hx h.dead hm)
    · exact .inr hgone

theorem Fading.quiet {t t' : Service} {x : Dispatcher.Action} (h : Fading s a t) (ks : List Entry)
    (hx : Dispatcher.step e t.disp x = some t'.disp) (hact : ∀ b now, x ≠ .erase b now)
    (hjournal : t'.journal = t.journal ++ ks) (hks : departures ks = 0) : Fading s a t' :=
  h.advance hx hjournal (.inl (by rw [hks]; exact Dispatcher.step_clearSubPrio hx hact))

theorem fading_step {t t' : Service} {act : Action} (hk : Known t) (h : Fading s a t)
    (hst : step e t act = some t') : Fading s a t' := by
  cases act with
  | accept b =>
    obtain ⟨-, -, rfl⟩ := step_accept hst
    exact h.of_eq rfl rfl
  | put b caps =>
    obtain ⟨-, rfl⟩ := step_put hst
    exact h.of_eq rfl rfl
  | closeAdapter b =>
    obtain ⟨-, rfl⟩ := step_closeAdapter hst
    have hx : Dispatcher.step e t.disp (.close b) = some (t.disp.close b) := rfl
    exact h.quiet [] hx (by simp) (List.append_nil _).symm rfl
  | checkInfo b =>
    obtain ⟨-, rfl⟩ := step_checkInfo hst
    exact h.of_eq rfl rfl
  | pushErase b =>
    obtain ⟨-, rfl⟩ := step_pushErase hst
    exact h.of_eq rfl rfl
  | destroy b =>
    obtain ⟨-, -, d, hd, rfl⟩ := step_destroy hst
    exact h.quiet [] hd (by simp) (List.append_nil _).symm rfl
  | loop tp =>
    obtain ⟨-, ⟨-, rfl⟩ | ⟨-, -, d, hd, rfl⟩ | rfl⟩ := step_loop hst
    · exact h.of_eq rfl rfl
    · exact h.quiet _ hd (by simp) rfl rfl
    · exact h.of_eq rfl rfl
  | handle now done =>
    obtain ⟨-, ⟨-, rfl⟩ | ⟨⟨caps, b⟩, rest, d, hcons, hd, rfl⟩⟩ := step_handle hst
    · exact h.of_eq rfl rfl
    · cases caps with
      | some caps => exact h.quiet _ hd (by simp [command]) rfl rfl
      | none =>
        have hinfo := hk.queued b (by simp [queue, hcons])
        refine h.advance hd rfl ?_
        obtain ⟨-, hprio⟩ | ⟨-, hpurged⟩ :=
          Dispatcher.erase_counts hinfo (Dispatcher.step_erase hd).2
        · exact .inl hprio
        · exact .inr fun m hm => absurd (hpurged m a hm) (by simp [h.dead])
  | wake =>
    obtain ⟨-, rfl⟩ := step_wake hst
    exact h.of_eq rfl rfl
  | close =>
    cases hst
    exact h.of_eq rfl rfl

theorem fading_run {as : List Action} (h : (system e).Reachable s) (hrun : (system e).Run s as s')
    (ha : s.disp.alive a = false) : Fading s a s' := by
  have hrun := hrun.invariant (P := fun t => Known t ∧ Fading s a t)
    ⟨known_reachable h, ha, [], (List.append_nil _).symm, .inl rfl⟩
    (fun t act t' ht hst => ⟨known_step ht.1 hst, fading_step ht.1 ht.2 hst⟩)
  exact hrun.2

/-- The table does not fill up with dead subscriptions: one that is still there since an adapter
was destroyed has seen fewer departures than the threshold of `check_subscriptions`. -/
theorem dead_subscriptions_fade {as : List Action} {m : String} (h : (system e).Reachable s)
    (hrun : (system e).Run s as s') (ha : s.disp.alive a = false) (hm : a ∈ s'.disp.table m) :
    ∃ js, s'.journal = s.journal ++ js ∧ departures js < clearSubscriptionThreshold := by
  obtain ⟨-, js, hjs, hcount | hgone⟩ := fading_run h hrun ha
  · refine ⟨js, hjs, ?_⟩
    have hlt := Dispatcher.clearSubPrio_lt (disp_reachable (h.run hrun))
    omega
  · exact absurd hm (hgone m)

/-- A subscribed client leaves and is destroyed. -/
def sampleDeparts : List Action :=
  [.accept 0, .put 0 (RequestSerializer.serializeAuth floraVersion "x" 1 0),
    .put 0 (RequestSerializer.serializeSubscribe "n"), .loop 0, .handle 0 0, .handle 0 0,
    .handle 0 0, .closeAdapter 0, .checkInfo 0, .pushErase 0, .loop 0, .handle 0 0, .handle 0 0,
    .destroy 0]

def sampleDeparted : Service := (execute (step Dispatcher.sampleEnv) {} sampleDeparts).getD {}

/-- Another client registers, leaves and is erased. -/
def sampleFollows : List Action :=
  [.accept 1, .put 1 (RequestSerializer.serializeAuth floraVersion "y" 2 0), .loop 0, .handle 0 0,
    .handle 0 0, .closeAdapter 1, .checkInfo 1, .pushErase 1, .loop 0, .handle 0 0, .handle 0 0]

def sampleFollowed : Service :=
  (execute (step Dispatcher.sampleEnv) sampleDeparted sampleFollows).getD {}

theorem dead_subscriptions_fade_departed : 0 ∈ sampleFollowed.disp.table "n" ∧
    departures (sampleFollowed.journal.drop sampleDeparted.journal.length) = 1 ∧
    ∃ js, sampleFollowed.journal = sampleDeparted.journal ++ js ∧
      departures js < clearSubscriptionThreshold := by
  have hrun : execute (step Dispatcher.sampleEnv) {} sampleDeparts = some sampleDeparted := rfl
  have hlater : execute (step Dispatcher.sampleEnv) sampleDeparted sampleFollows =
    some sampleFollowed := rfl
  have hm : 0 ∈ sampleFollowed.disp.table "n" := by decide
  exact ⟨hm, by decide, dead_subscriptions_fade (execute_reachable initial_default hrun)
    (execute_run hlater) rfl hm⟩

end Service

end Flora
