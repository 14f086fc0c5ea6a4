import Flora.Dispatcher.System
import Flora.Lib.PubSub

/-! # The subscription table refines eager publish/subscribe

The table keeps closed and destroyed adapters until one of four passes meets them. Seen through
`subscribers`, which leaves them out, these passes do nothing: a step acts on the eager table as
its request says, and the adapters it closed leave. -/

namespace Flora

open TransitionSystem

namespace Dispatcher

variable {e : Env} {d d' d'' : Dispatcher} {ws us : List Write} {caps : Caps} {sender : AdapterId}

/-- The stored list of a name. -/
def table (d : Dispatcher) (n : String) : List AdapterId := (d.subscriptions.lookup n).getD []

theorem live_iff {a : AdapterId} : d.live a = true ↔
    (d.adapters a).destroyed = false ∧ (d.adapters a).closed = false := by
  simp [live]

/-- Between `d` and `d'` the writes `ws` were made and nothing was subscribed or unsubscribed. -/
structure Quiet (d : Dispatcher) (ws : List Write) (d' : Dispatcher) : Prop where
  out : d'.out = d.out ++ ws
  live : ∀ a, d'.live a = true ↔ d.live a = true ∧ ∀ w ∈ ws, w.dest = a → w.result = .success
  order : ∀ a, (d'.adapters a).serializeFlags = (d.adapters a).serializeFlags
  table : ∀ n, (d'.table n).filter d'.live = (d.table n).filter d'.live

theorem filter_filter_of_imp {α : Type} {p q : α → Bool} (h : ∀ a, p a = true → q a = true)
    (l : List α) : (l.filter q).filter p = l.filter p := by
  rw [List.filter_filter]
  congr 1
  funext a
  cases hp : p a with
  | false => rfl
  | true => rw [h a hp]; rfl

namespace Quiet

theorem subscribers (h : Quiet d ws d') (n : String) :
    d'.subscribers n = (d.subscribers n).filter d'.live :=
  calc (d'.table n).filter d'.live = (d.table n).filter d'.live := h.table n
    _ = ((d.table n).filter d.live).filter d'.live :=
      (filter_filter_of_imp (fun a ha => ((h.live a).mp ha).1) _).symm

theorem trans (h : Quiet d ws d') (h' : Quiet d' us d'') : Quiet d (ws ++ us) d'' where
  out := by rw [h'.out, h.out, List.append_assoc]
  live a := by
    rw [h'.live a, h.live a, and_assoc]
    simp only [List.mem_append, or_imp, forall_and]
  order a := (h'.order a).trans (h.order a)
  table n :=
    have mono : ∀ a, d''.live a = true → d'.live a = true := fun a ha => ((h'.live a).mp ha).1
    calc (d''.table n).filter d''.live = (d'.table n).filter d''.live := h'.table n
      _ = ((d'.table n).filter d'.live).filter d''.live := (filter_filter_of_imp mono _).symm
      _ = ((d.table n).filter d'.live).filter d''.live := by rw [h.table n]
      _ = (d.table n).filter d''.live := filter_filter_of_imp mono _

theorem of_eq (hout : d'.out = d.out) (hsubs : d'.subscriptions = d.subscriptions)
    (hadapter : ∀ a, (d'.adapters a).closed = (d.adapters a).closed ∧
      (d'.adapters a).destroyed = (d.adapters a).destroyed ∧
      (d'.adapters a).serializeFlags = (d.adapters a).serializeFlags) : Quiet d [] d' where
  out := by rw [hout, List.append_nil]
  live a := by simp [live_iff, hadapter]
  order a := (hadapter a).2.2
  table n := by rw [Dispatcher.table, hsubs]; rfl

theorem of_purge (hout : d'.out = d.out) (hadapters : d'.adapters = d.adapters)
    (htable : ∀ n, (d'.table n).filter d.live = (d.table n).filter d.live) : Quiet d [] d' where
  out := by rw [hout, List.append_nil]
  live a := by simp [live_iff, hadapters]
  order a := by rw [hadapters]
  table n := by
    have hlive : d'.live = d.live := by
      funext a
      simp only [Dispatcher.live, hadapters]
    rw [hlive]
    exact htable n

theorem refl (d : Dispatcher) : Quiet d [] d := of_eq rfl rfl fun _ => ⟨rfl, rfl, rfl⟩

end Quiet

theorem Writes.quiet (h : Writes d ws d') : Quiet d ws d' where
  out := h.out
  live a := by
    have hopen : (d'.adapters a).closed = false ↔ (d.adapters a).closed = false ∧
        ∀ w ∈ ws, w.dest = a → w.result = .success := by
      rw [← Bool.not_eq_true, h.closed_iff a, not_or]
      simp only [Bool.not_eq_true, not_exists, not_and, ne_eq, not_not]
    rw [live_iff, live_iff, h.destroyed, hopen, and_assoc]
  order := h.serializeFlags
  table n := by rw [table, h.subscriptions]; rfl

theorem RegistryOnly.quiet (h : RegistryOnly d d') : Quiet d [] d' :=
  .of_eq h.out h.subscriptions fun a => ⟨h.closed a, h.destroyed a, h.serializeFlags a⟩

theorem table_setSubscribers (name n : String) (kept : List AdapterId) (d : Dispatcher) :
    (setSubscribers name kept d).table n = if n = name then kept else d.table n := by
  unfold setSubscribers table
  by_cases hn : n = name
  · subst hn
    rw [if_pos rfl]
    cases kept with
    | nil => simp
    | cons a l => simp
  · rw [if_neg hn]
    split
    · rw [AList.lookup_erase_ne hn]
    · rw [AList.lookup_insert_ne hn]

theorem quiet_purge (name : String) (d : Dispatcher) : Quiet d [] (purge name d) := by
  unfold purge
  split
  · exact .refl d
  · refine .of_purge rfl rfl fun n => ?_
    rw [table_setSubscribers]
    split
    · rename_i hn
      subst hn
      exact filter_filter_of_imp (fun _ h => h) _
    · rfl

theorem table_clearSubGabages (d : Dispatcher) (n : String) :
    (clearSubGabages d).table n = (d.table n).filter d.alive := by
  simp only [clearSubGabages, table, AssocMap.lookup_filterMapValues]
  cases d.subscriptions.lookup n with
  | none => rfl
  | some adapters =>
    simp only [Option.bind_some, Option.getD_some]
    split
    · rename_i hempty
      rw [List.isEmpty_iff.mp hempty]
      rfl
    · rfl

theorem quiet_clearSubGabages (d : Dispatcher) : Quiet d [] (clearSubGabages d) := by
  refine .of_purge rfl rfl fun n => ?_
  rw [table_clearSubGabages]
  exact filter_filter_of_imp (fun _ => alive_of_live) _

theorem quiet_checkSubscriptions (now : Nat) (d : Dispatcher) :
    Quiet d [] (checkSubscriptions now d) := by
  unfold checkSubscriptions
  split
  · exact (quiet_clearSubGabages d).trans (.of_eq rfl rfl fun _ => ⟨rfl, rfl, rfl⟩)
  · split
    · exact (quiet_clearSubGabages d).trans (.of_eq rfl rfl fun _ => ⟨rfl, rfl, rfl⟩)
    · exact .of_eq rfl rfl fun _ => ⟨rfl, rfl, rfl⟩

theorem quiet_doEraseAdapter {now : Nat} (h : doEraseAdapter e now sender d = some d') :
    ∃ ws, Quiet d ws d' := by
  obtain ⟨_, rfl⟩ | ⟨info, d₁, ws, _, hws, _, rfl⟩ := doEraseAdapter_spec h
  · exact ⟨[], .refl d'⟩
  · have hmaps : Quiet d₁ [] (if hasMonitorFlag info.flags then
        { d₁ with monitors := d₁.monitors.erase sender }
        else { d₁ with adapterInfos := d₁.adapterInfos.erase sender }) := by
      split <;> exact .of_eq rfl rfl fun _ => ⟨rfl, rfl, rfl⟩
    exact ⟨_, (((registryOnly_eraseName info.name d).quiet.trans hws.quiet).trans hmaps).trans
      (quiet_checkSubscriptions now _)⟩

theorem quiet_msgHandler {now : Nat} {cmd : Int} {ok : Bool}
    (h : msgHandler e now cmd caps sender d = some (d', ok)) (hsub : cmd ≠ 1) (hunsub : cmd ≠ 2) :
    ∃ ws, Quiet d ws d' := by
  replace h := msgHandler_updates h
  induction h with
  | refl => exact ⟨[], .refl d⟩
  | tail _ hup ih =>
    obtain ⟨ws, hquiet⟩ := ih
    cases hup with
    | authenticate req => exact ⟨_, hquiet.trans (registryOnly_authenticate e req sender _).quiet⟩
    | subscribe => exact absurd rfl hsub
    | unsubscribe => exact absurd rfl hunsub
    | purge name => exact ⟨_, hquiet.trans (quiet_purge name _)⟩
    | persist name msgtype args =>
      rw [persistPost_rest]
      exact ⟨_, hquiet.trans (.of_eq rfl rfl fun _ => ⟨rfl, rfl, rfl⟩)⟩
    | methods names _ _ => exact ⟨_, hquiet.trans (registryOnly_setInfo _ sender _).quiet⟩
    | write hws => exact ⟨_, hquiet.trans hws.quiet⟩
    | reply | refuse | enter => exact ⟨_, hquiet.trans (.of_eq rfl rfl fun _ => ⟨rfl, rfl, rfl⟩)⟩

/-- What a step asks of the table. -/
def pubSubEvent (d : Dispatcher) : Action → PubSub.Event String AdapterId
  | .msg caps sender _ _ =>
    match (d.request cmdSubscribeReq caps sender).bind fun rest =>
        requestedName RequestParser.parseSubscribe rest sender d with
    | some name => .subscribe name sender
    | none =>
      match (d.request cmdUnsubscribeReq caps sender).bind fun rest =>
          requestedName RequestParser.parseUnsubscribe rest sender d with
      | some name => .unsubscribe name sender
      | none => .silent
  | _ => .silent

/-- The step may close `a` itself: it closes or destroys it, or handles a message of it. -/
def Closes (act : Action) (a : AdapterId) : Prop :=
  act = .close a ∨ act = .destroy a ∨ ∃ caps now done, act = .msg caps a now done

/-- `d'` is `d` after the event `ev` and the departure of closed adapters. `c` holds of those that
may have been closed for another reason than a failed write. -/
structure Effect (d : Dispatcher) (ev : PubSub.Event String AdapterId) (c : AdapterId → Prop)
    (d' : Dispatcher) : Prop where
  live : ∀ a, d'.live a = true → d.live a = true
  order : ∀ a, (d'.adapters a).serializeFlags = (d.adapters a).serializeFlags
  writes : ∃ ws, d'.out = d.out ++ ws ∧
    (∀ a, d'.live a = true → ∀ w ∈ ws, w.dest = a → w.result = .success) ∧
    ∀ a, d.live a = true → ¬ c a → (∀ w ∈ ws, w.dest = a → w.result = .success) → d'.live a = true
  topics : ∀ t : PubSub.Topics String AdapterId, t.subscribers = d.subscribers →
    d'.subscribers = ((t.apply ev).restrict d'.live).subscribers

variable {c : AdapterId → Prop} {ev : PubSub.Event String AdapterId}

theorem Quiet.effect (h : Quiet d ws d') : Effect d .silent c d' where
  live a ha := ((h.live a).mp ha).1
  order := h.order
  writes := ⟨ws, h.out, fun a ha => ((h.live a).mp ha).2,
    fun a ha _ hws => (h.live a).mpr ⟨ha, hws⟩⟩
  topics t ht := by
    funext n
    rw [h.subscribers n, ← ht]
    rfl

theorem Effect.quiet (h : Effect d ev c d') (h' : Quiet d' ws d'') : Effect d ev c d'' where
  live a ha := h.live a ((h'.live a).mp ha).1
  order a := (h'.order a).trans (h.order a)
  writes := by
    obtain ⟨us, hout, hgone, hstays⟩ := h.writes
    refine ⟨us ++ ws, by rw [h'.out, hout, List.append_assoc], fun a ha w hw => ?_,
      fun a ha hc hws => ?_⟩
    · obtain ⟨hd', hws⟩ := (h'.live a).mp ha
      obtain hw | hw := List.mem_append.mp hw
      · exact hgone a hd' w hw
      · exact hws w hw
    · have hd' := hstays a ha hc fun w hw => hws w (List.mem_append_left ws hw)
      exact (h'.live a).mpr ⟨hd', fun w hw => hws w (List.mem_append_right us hw)⟩
  topics t ht := by
    funext n
    rw [h'.subscribers n, h.topics t ht]
    exact filter_filter_of_imp (fun a ha => ((h'.live a).mp ha).1) _

theorem subscribers_close (d : Dispatcher) (a : AdapterId) (n : String) :
    (d.close a).subscribers n = (d.subscribers n).filter (d.close a).live := by
  refine (filter_filter_of_imp (fun b hb => ?_) _).symm
  rw [live_iff, close_adapters] at hb
  rw [live_iff]
  exact ⟨hb.1, (Bool.or_eq_false_iff.mp hb.2).1⟩

theorem live_close {a b : AdapterId} : (d.close a).live b = true ↔ d.live b = true ∧ b ≠ a := by
  simp only [live_iff, close_adapters, Bool.or_eq_false_iff, beq_eq_false_iff_ne, and_assoc]

theorem Effect.close (h : Effect d ev c d') {a : AdapterId} (ha : c a) :
    Effect d ev c (d'.close a) where
  live b hb := h.live b (live_close.mp hb).1
  order b := by
    rw [close_adapters]
    exact h.order b
  writes := by
    obtain ⟨ws, hout, hgone, hstays⟩ := h.writes
    refine ⟨ws, hout, fun b hb => hgone b (live_close.mp hb).1,
      fun b hb hc hws => live_close.mpr ⟨hstays b hb hc hws, ?_⟩⟩
    rintro rfl
    exact hc ha
  topics t ht := by
    funext n
    rw [subscribers_close, h.topics t ht]
    exact filter_filter_of_imp (fun b hb => (live_close.mp hb).1) _

theorem any_alive_iff {l : List AdapterId} (halive : d.alive sender = true) :
    (l.any fun a => d.alive a && a == sender) = true ↔ sender ∈ l := by
  simp only [List.any_eq_true, Bool.and_eq_true, beq_iff_eq]
  constructor
  · rintro ⟨a, ha, -, rfl⟩
    exact ha
  · exact fun hmem => ⟨sender, hmem, halive, rfl⟩

theorem effect_subscribed {name : String} (hmem : sender ∈ d.table name) :
    Effect d (.subscribe name sender) c d where
  live _ ha := ha
  order _ := rfl
  writes := ⟨[], by rw [List.append_nil], nofun, fun _ ha _ _ => ha⟩
  topics t ht := by
    funext n
    change d.subscribers n = ((t.apply (.subscribe name sender)).subscribers n).filter d.live
    have hself : (d.subscribers n).filter d.live = d.subscribers n :=
      filter_filter_of_imp (fun _ ha => ha) _
    rw [PubSub.Topics.apply_subscribe, ht]
    split
    · rename_i hn
      subst hn
      unfold PubSub.enter
      split
      · exact hself.symm
      · rename_i hnot
        -- the sender is in the table but not a subscriber, so it is closed
        have hclosed : d.live sender = false := by
          rw [← Bool.not_eq_true]
          exact fun hlive => hnot (List.mem_filter.mpr ⟨hmem, hlive⟩)
        rw [List.filter_append, List.filter_singleton, hclosed, hself]
        exact (List.append_nil _).symm
    · exact hself.symm

theorem table_addSubscription (name n : String) (d : Dispatcher) :
    (addSubscription name sender d).table n =
      if n = name then d.table n ++ [sender] else d.table n := by
  unfold addSubscription table
  by_cases hn : n = name
  · subst hn
    simp
  · simp [hn, AList.lookup_insert_ne hn]

theorem effect_addSubscription {name : String} (hmem : sender ∉ d.table name) :
    Effect d (.subscribe name sender) c (addSubscription name sender d) where
  live _ ha := ha
  order _ := rfl
  writes := ⟨[], (List.append_nil _).symm, nofun, fun _ ha _ _ => ha⟩
  topics t ht := by
    funext n
    change ((addSubscription name sender d).table n).filter d.live =
      ((t.apply (.subscribe name sender)).subscribers n).filter d.live
    have hself : (d.subscribers n).filter d.live = (d.table n).filter d.live :=
      filter_filter_of_imp (fun _ ha => ha) _
    rw [PubSub.Topics.apply_subscribe, ht, table_addSubscription]
    split
    · rename_i hn
      subst hn
      have hnot : sender ∉ d.subscribers n := fun h => hmem (List.mem_filter.mp h).1
      rw [PubSub.enter, if_neg hnot, List.filter_append, List.filter_append, hself]
    · exact hself.symm

theorem effect_subscribe {ok : Bool} {name : String} (halive : d.alive sender = true)
    (h : handleSubscribeReq e caps sender d = some (d', ok))
    (hname : requestedName RequestParser.parseSubscribe caps sender d = some name) :
    Effect d (.subscribe name sender) c d' := by
  obtain ⟨hnone, _, _⟩ | ⟨name', hname', _, ⟨hany, rfl⟩ | ⟨hany, ws, hws, _⟩⟩ :=
    handleSubscribeReq_spec h
  · rw [hname] at hnone
    cases hnone
  · cases hname.symm.trans hname'
    exact effect_subscribed ((any_alive_iff halive).mp hany)
  · cases hname.symm.trans hname'
    have hmem : sender ∉ d.table name := fun hmem =>
      Bool.false_ne_true (hany.symm.trans ((any_alive_iff halive).mpr hmem))
    exact (effect_addSubscription hmem).quiet hws.quiet

theorem effect_unsubscribe {ok : Bool} {name : String}
    (h : handleUnsubscribeReq caps sender d = some (d', ok))
    (hname : requestedName RequestParser.parseUnsubscribe caps sender d = some name) :
    Effect d (.unsubscribe name sender) c d' := by
  have htable : d'.out = d.out ∧ d'.adapters = d.adapters ∧ ∀ n, (d'.table n).filter d.live =
      if n = name then ((d.table n).filter fun a => a ≠ sender).filter d.live
      else (d.table n).filter d.live := by
    obtain ⟨hnone, _, _⟩ | ⟨name', hname', _, ⟨hlook, rfl⟩ | ⟨adapters, hlook, rfl⟩⟩ :=
      handleUnsubscribeReq_spec h
    · rw [hname] at hnone
      cases hnone
    · cases hname.symm.trans hname'
      refine ⟨rfl, rfl, fun n => ?_⟩
      split
      · rename_i hn
        subst hn
        simp [table, hlook]
      · rfl
    · cases hname.symm.trans hname'
      refine ⟨rfl, rfl, fun n => ?_⟩
      rw [table_setSubscribers]
      split
      · rename_i hn
        subst hn
        have hadapters : d.table n = adapters := by
          rw [table, hlook]
          rfl
        rw [hadapters, List.filter_filter, List.filter_filter]
        congr 1
        funext a
        cases hlive : d.live a with
        | false => rfl
        | true => simp [alive_of_live hlive, bne, beq_eq_decide]
      · rfl
  obtain ⟨hout, hadapters, htable⟩ := htable
  have hlive : d'.live = d.live := by
    funext a
    simp only [live, hadapters]
  refine ⟨fun a ha => hlive ▸ ha, fun a => by rw [hadapters],
    ⟨[], by rw [hout, List.append_nil], fun _ _ w hw => absurd hw List.not_mem_nil,
      fun a ha _ _ => hlive ▸ ha⟩, fun t ht => ?_⟩
  funext n
  change (d'.table n).filter d'.live =
    ((t.apply (.unsubscribe name sender)).subscribers n).filter d'.live
  have hself : (d.subscribers n).filter d.live = (d.table n).filter d.live :=
    filter_filter_of_imp (fun _ ha => ha) _
  rw [hlive, htable n, PubSub.Topics.apply_unsubscribe, ht]
  split
  · rw [List.filter_comm, List.filter_comm (d.live), hself]
  · exact hself.symm

theorem effect_handleMsg {now done : Nat} (halive : d.alive sender = true)
    (h : handleMsg e now done caps sender d = some d') (hc : c sender) :
    Effect d (d.pubSubEvent (.msg caps sender now done)) c d' := by
  obtain ⟨rfl, hnone⟩ | ⟨cmd, rest, d₁, ok, hreq, hh, rfl⟩ := handleMsg_request h
  · simp only [pubSubEvent, hnone cmdSubscribeReq (by decide), hnone cmdUnsubscribeReq (by decide)]
    exact (Quiet.refl d).effect.close hc
  · have hhandler : Effect d (d.pubSubEvent (.msg caps sender now done)) c d₁ := by
      by_cases hsub : cmd = cmdSubscribeReq
      · subst hsub
        have hh : handleSubscribeReq e rest sender d = some (d₁, ok) := hh
        have hother := request_unique hreq (by decide : cmdUnsubscribeReq ≠ cmdSubscribeReq)
        simp only [pubSubEvent, hreq, hother, Option.bind_some, Option.bind_none]
        cases hname : requestedName RequestParser.parseSubscribe rest sender d with
        | some name => exact effect_subscribe halive hh hname
        | none =>
          obtain ⟨_, rfl, _⟩ | ⟨name, hname', _⟩ := handleSubscribeReq_spec hh
          · exact (Quiet.refl _).effect
          · cases hname.symm.trans hname'
      · by_cases hunsub : cmd = cmdUnsubscribeReq
        · subst hunsub
          have hh : handleUnsubscribeReq rest sender d = some (d₁, ok) := hh
          simp only [pubSubEvent, hreq, request_unique hreq (Ne.symm hsub), Option.bind_some,
            Option.bind_none]
          cases hname : requestedName RequestParser.parseUnsubscribe rest sender d with
          | some name => exact effect_unsubscribe hh hname
          | none =>
            obtain ⟨_, rfl, _⟩ | ⟨name, hname', _⟩ := handleUnsubscribeReq_spec hh
            · exact (Quiet.refl _).effect
            · cases hname.symm.trans hname'
        · simp only [pubSubEvent, request_unique hreq (Ne.symm hsub),
            request_unique hreq (Ne.symm hunsub), Option.bind_none]
          obtain ⟨ws, hquiet⟩ := quiet_msgHandler hh
            (fun hcmd => hsub (BitVec.eq_of_toInt_eq hcmd))
            (fun hcmd => hunsub (BitVec.eq_of_toInt_eq hcmd))
          exact hquiet.effect
    have hverdict : Effect d (d.pubSubEvent (.msg caps sender now done)) c
        (if ok then d₁ else d₁.close sender) := by
      cases ok
      · exact hhandler.close hc
      · exact hhandler
    exact hverdict.quiet (.of_eq rfl rfl fun _ => ⟨rfl, rfl, rfl⟩)

theorem step_effect {act : Action} (h : step e d act = some d') :
    Effect d (d.pubSubEvent act) (Closes act) d' := by
  cases act with
  | msg caps sender now done =>
    obtain ⟨halive, h⟩ := step_msg h
    exact effect_handleMsg halive h (.inr (.inr ⟨caps, now, done, rfl⟩))
  | erase sender now =>
    obtain ⟨ws, hquiet⟩ := quiet_doEraseAdapter (step_erase h).2
    exact hquiet.effect
  | expire tp =>
    obtain ⟨expired, rest, ws, _, hws, _, _, _⟩ := discardPendingCalls_spec h
    have hpending : Quiet d [] { d with pendingCalls := rest } :=
      .of_eq rfl rfl fun _ => ⟨rfl, rfl, rfl⟩
    exact (hpending.trans hws.quiet).effect
  | close a =>
    cases h
    exact (Quiet.refl d).effect.close (.inl rfl)
  | destroy a =>
    obtain ⟨_, _, rfl⟩ := step_destroy h
    have hmono (b : AdapterId) (hb : (d.setAdapter a { d.adapters a with
        closed := true, destroyed := true }).live b = true) : d.live b = true := by
      rw [live_iff, setAdapter_adapters] at hb
      split at hb
      · cases hb.1
      · exact live_iff.mpr hb
    refine ⟨hmono, fun b => ?_, ⟨[], (List.append_nil _).symm, nofun, fun b hb hc _ => ?_⟩,
      fun t ht => ?_⟩
    · rw [setAdapter_adapters]
      split
      · rename_i hb
        rw [hb]
      · rfl
    · have hba : b ≠ a := by
        rintro rfl
        exact hc (.inr (.inl rfl))
      rw [live_iff, setAdapter_adapters, if_neg hba]
      exact live_iff.mp hb
    · funext n
      change (d.table n).filter _ = (t.subscribers n).filter _
      rw [ht]
      exact (filter_filter_of_imp hmono _).symm

theorem postFrames_perm {name : String}
    (hfits : ∀ a ∈ d.subscribers name, e.fits (d.adapters a).serializeFlags caps = true) :
    (postFrames e d name caps).Perm
      ((d.subscribers name).map fun a => (a, (d.adapters a).serializeFlags, caps, none)) := by
  have hframe (order : ByteOrder) (l : List AdapterId)
      (hl : ∀ a ∈ l, a ∈ d.subscribers name ∧ (d.adapters a).serializeFlags = order) :
      l.flatMap (fun a => frame e a order caps none) =
        l.map fun a => (a, (d.adapters a).serializeFlags, caps, none) := by
    rw [List.map_eq_flatMap]
    apply List.flatMap_congr
    intro a ha
    obtain ⟨hmem, horder⟩ := hl a ha
    rw [horder]
    exact frame_of_fits (horder ▸ hfits a hmem)
  unfold postFrames
  rw [hframe .host, hframe .net, ← List.map_append]
  · exact (List.perm_append_comm.trans (List.filter_append_perm _ _)).map _
  · intro a ha
    obtain ⟨hmem, hnet⟩ := List.mem_filter.mp ha
    exact ⟨hmem, beq_iff_eq.mp hnet⟩
  · intro a ha
    obtain ⟨hmem, hhost⟩ := List.mem_filter.mp ha
    refine ⟨hmem, ?_⟩
    cases horder : (d.adapters a).serializeFlags with
    | host => rfl
    | net =>
      rw [horder] at hhost
      cases hhost

theorem filter_flatMap_frame {order : ByteOrder} {x : AdapterId} {l : List AdapterId}
    (hl : l.Nodup) :
    (l.flatMap fun a => frame e a order caps none).filter (fun r => r.1 == x) =
      if x ∈ l then frame e x order caps none else [] := by
  induction l with
  | nil => rfl
  | cons a l ih =>
    obtain ⟨hmem, hl⟩ := List.nodup_cons.mp hl
    have hhead : (frame e a order caps none).filter (fun r => r.1 == x) =
        if x = a then frame e x order caps none else [] := by
      split
      · rename_i hxa
        subst hxa
        refine List.filter_eq_self.mpr fun r hr => ?_
        rw [mem_frame hr]
        exact beq_self_eq_true x
      · rename_i hxa
        refine List.filter_eq_nil_iff.mpr fun r hr => ?_
        rw [mem_frame hr, beq_iff_eq]
        exact fun hax => hxa hax.symm
    rw [List.flatMap_cons, List.filter_append, ih hl, hhead]
    by_cases hxa : x = a
    · subst hxa
      simp [hmem]
    · simp [hxa]

theorem filter_postFrames {name : String} {x : AdapterId} (hnodup : (d.subscribers name).Nodup)
    (hx : x ∈ d.subscribers name) (hfits : e.fits (d.adapters x).serializeFlags caps = true) :
    (postFrames e d name caps).filter (fun r => r.1 == x) =
      [(x, (d.adapters x).serializeFlags, caps, none)] := by
  rw [postFrames, List.filter_append, filter_flatMap_frame (hnodup.filter _),
    filter_flatMap_frame (hnodup.filter _)]
  simp only [List.mem_filter, hx, true_and]
  cases horder : (d.adapters x).serializeFlags with
  | host =>
    rw [horder] at hfits
    simp [frame_of_fits hfits]
  | net =>
    rw [horder] at hfits
    simp [frame_of_fits hfits]

/-- The post a step accepts, with the frame it is delivered in. -/
def handledPost (d : Dispatcher) (caps : Caps) (sender : AdapterId) : Option (PostReq × Caps) :=
  (d.request cmdPostReq caps sender).bind fun rest =>
    (acceptedPost rest sender d).map fun (req, info) => (req, postResp sender d req info)

theorem handledPost_writes {now done : Nat} {req : PostReq} {resp : Caps}
    (h : handleMsg e now done caps sender d = some d')
    (hpost : d.handledPost caps sender = some (req, resp)) :
    ∃ ws, d'.out = d.out ++ ws ∧ ws.map Write.request = postFrames e d req.name resp := by
  obtain ⟨rest, hrest, hpost⟩ := Option.bind_eq_some_iff.mp hpost
  obtain ⟨⟨req', info⟩, hacc, heq⟩ := Option.map_eq_some_iff.mp hpost
  cases heq
  obtain ⟨_, hnone⟩ | ⟨cmd, rest', d₁, ok, hreq, hh, rfl⟩ := handleMsg_request h
  · rw [hnone cmdPostReq (by decide)] at hrest
    cases hrest
  · have hcmd : cmd = cmdPostReq := by
      by_contra hne
      rw [request_unique hreq (Ne.symm hne)] at hrest
      cases hrest
    subst hcmd
    cases hreq.symm.trans hrest
    have hh : handlePostReq e rest sender d = some (d₁, ok) := hh
    obtain ⟨hnone, _, _⟩ | ⟨req'', info'', d₂, ws, hacc', rfl, hws, rfl, hreqs⟩ :=
      handlePostReq_spec hh
    · rw [hacc] at hnone
      cases hnone
    · cases hacc.symm.trans hacc'
      refine ⟨ws, ?_, hreqs⟩
      rw [persistPost_rest]
      exact hws.out.trans (by rw [purge_rest])

theorem subscribers_nodup (h : (system e).Reachable d) (n : String) :
    (d.subscribers n).Nodup := by
  apply h.invariant (P := fun d => ∀ n, (d.subscribers n).Nodup) _ _ n
  · rintro s ⟨adapters, rfl, -⟩ n
    exact List.nodup_nil
  · intro s act t hs hst n
    rw [(step_effect hst).topics ⟨s.subscribers, hs⟩ rfl]
    exact PubSub.Topics.nodup _ n

/-- The eager table a reachable state stands for. -/
def topics (d : Dispatcher) (h : (system e).Reachable d) : PubSub.Topics String AdapterId where
  subscribers := d.subscribers
  nodup := subscribers_nodup h

/-- Every step acts on the eager table as its request says, after which the adapters that were
closed are gone; a post is written once to each of its subscribers and to nobody else. -/
theorem step_refines_topics {act : Action} (hd : (system e).Reachable d)
    (h : step e d act = some d') :
    topics d' (hd.next h) = ((topics d hd).apply (d.pubSubEvent act)).restrict d'.live ∧
    ∃ ws, d'.out = d.out ++ ws ∧
      (∀ a, d'.live a = true → d.live a = true ∧
        ∀ w ∈ ws, w.dest = a → w.result = .success) ∧
      (∀ a, d.live a = true → ¬ Closes act a →
        (∀ w ∈ ws, w.dest = a → w.result = .success) → d'.live a = true) ∧
      ∀ caps sender now done req resp, act = .msg caps sender now done →
        d.handledPost caps sender = some (req, resp) →
        (∀ a ∈ (topics d hd).subscribers req.name,
          e.fits (d.adapters a).serializeFlags resp = true) →
        (ws.map Write.request).Perm (((topics d hd).subscribers req.name).map
          fun a => (a, (d.adapters a).serializeFlags, resp, none)) := by
  have heffect := step_effect h
  refine ⟨PubSub.Topics.ext (heffect.topics (topics d hd) rfl), ?_⟩
  obtain ⟨ws, hout, hgone, hstays⟩ := heffect.writes
  refine ⟨ws, hout, fun a ha => ⟨heffect.live a ha, hgone a ha⟩, hstays, ?_⟩
  rintro caps sender now done req resp rfl hpost hfits
  obtain ⟨us, hout', hreqs⟩ := handledPost_writes (step_msg h).2 hpost
  cases List.append_cancel_left (hout.symm.trans hout')
  rw [hreqs]
  exact postFrames_perm hfits

theorem step_refines_topics_post :
    ∃ d d' ws, execute (step sampleEnv) {} [sampleAuth 0 "p" 0, sampleAuth 1 "s" 0,
        .msg (RequestSerializer.serializeSubscribe "t") 1 0 0] = some d ∧
      step sampleEnv d (.msg (RequestSerializer.serializePost "t" 0 none) 0 0 0) = some d' ∧
      d'.subscribers "t" = [1] ∧ d'.out = d.out ++ ws ∧ (ws.map Write.request).Perm
        [(1, .host, ResponseSerializer.serializePost "t" 0 none 1 "p", none)] := by
  have hrun : execute (step sampleEnv) {} [sampleAuth 0 "p" 0, sampleAuth 1 "s" 0,
    .msg (RequestSerializer.serializeSubscribe "t") 1 0 0] = some _ := rfl
  have hd := execute_reachable initial_default hrun
  obtain ⟨-, ws, hout, -, -, hpost⟩ := step_refines_topics hd
    (show step sampleEnv _ (.msg (RequestSerializer.serializePost "t" 0 none) 0 0 0) = _ from rfl)
  refine ⟨_, _, ws, hrun, rfl, rfl, hout, ?_⟩
  refine hpost _ _ _ _ _ _ rfl rfl ?_
  intro a ha
  cases List.mem_singleton.mp (show a ∈ [1] from ha)
  decide

end Dispatcher

end Flora
