import Flora.Dispatcher.Subscriptions
import Flora.Dispatcher.Responses

/-! # Persistent messages

The value of a persistent message reaches a subscriber by two paths: `handle_subscribe_req` replays
what is stored, `post_msg` writes what it is about to store. Whatever the order of posts and
subscriptions, the last value written to a subscriber is the stored one. -/

namespace Flora

open TransitionSystem

namespace Dispatcher

variable {e : Env} {d d' : Dispatcher} {n : String} {a sender : AdapterId} {caps : Caps}
  {act : Action}

/-- The args of a message, if it is a persistent one on `n`. -/
def persistArgs (n : String) (caps : Caps) : Option CapsPtr :=
  caps.readWord.bind fun (cmd, rest) =>
    if cmd = cmdPostResp then
      (ResponseParser.parsePost rest).bind fun (name, msgtype, args, _, _) =>
        if name = n ∧ msgtype = msgtypePersist then some args else none
    else none

theorem persistArgs_serializePost (name : String) (msgtype : Word) (args : CapsPtr)
    (tag : BitVec 64) (cliname : String) :
    persistArgs n (ResponseSerializer.serializePost name msgtype args tag cliname) =
      if name = n ∧ msgtype = msgtypePersist then some args else none := rfl

theorem persistArgs_of_command {cmd : Word} (h : command caps = some cmd)
    (hne : cmd ≠ cmdPostResp) : persistArgs n caps = none := by
  obtain ⟨⟨cmd', rest⟩, hread, rfl⟩ := Option.map_eq_some_iff.mp h
  rw [persistArgs, hread]
  exact if_neg hne

/-- The args of the persistent messages on `n` among the writes to `a`, in order. -/
def persistsTo (n : String) (a : AdapterId) (ws : List Write) : List CapsPtr :=
  (ws.map Write.request).filterMap fun r => if r.1 = a then persistArgs n r.2.2.1 else none

theorem persistsTo_append (ws us : List Write) :
    persistsTo n a (ws ++ us) = persistsTo n a ws ++ persistsTo n a us := by
  rw [persistsTo, List.map_append, List.filterMap_append]
  rfl

theorem persistsTo_of_commands {ws : List Write} {cmds : List Word}
    (h : ∀ w ∈ ws, ∃ cmd ∈ cmds, command w.caps = some cmd) (hne : cmdPostResp ∉ cmds) :
    persistsTo n a ws = [] := by
  refine List.filterMap_eq_nil_iff.mpr fun r hr => ?_
  obtain ⟨w, hw, rfl⟩ := List.mem_map.mp hr
  obtain ⟨cmd, hmem, hcmd⟩ := h w hw
  have hnone : persistArgs n w.caps = none := by
    refine persistArgs_of_command hcmd ?_
    rintro rfl
    exact hne hmem
  exact (congrArg (ite _ · none) hnone).trans (ite_self _)

def seen (d : Dispatcher) (n : String) (a : AdapterId) : List CapsPtr := persistsTo n a d.out

/-- The args of the persistent post on `n` that a step accepts. -/
def acceptedPersist (d : Dispatcher) (n : String) : Action → Option CapsPtr
  | .msg caps sender _ _ => (d.handledPost caps sender).bind fun (req, _) =>
    if req.name = n ∧ req.msgtype = msgtypePersist then some req.args else none
  | _ => none

def acceptedPersists (e : Env) (n : String) : Dispatcher → List Action → List CapsPtr
  | _, [] => []
  | d, act :: as => (d.acceptedPersist n act).toList ++
    (step e d act).elim [] fun d' => acceptedPersists e n d' as

/-- The step subscribes `a`, which the stored list of `n` does not hold yet. -/
def NewSubscription (d : Dispatcher) (n : String) (a : AdapterId) (act : Action) : Prop :=
  d.pubSubEvent act = .subscribe n a ∧ a ∉ d.table n

/-- What the step has to write to `a` about `n` fits the buffer: a persistent post `a` is subscribed
to, or the replay of its new subscription. -/
structure Fitted (e : Env) (n : String) (a : AdapterId) (d : Dispatcher) (act : Action) : Prop where
  post : ∀ caps sender now done req resp, act = .msg caps sender now done →
    d.handledPost caps sender = some (req, resp) → req.name = n → req.msgtype = msgtypePersist →
    a ∈ d.subscribers n → e.fits (d.adapters a).serializeFlags resp = true
  replay : ∀ args, NewSubscription d n a act → d.persistMsgs.lookup n = some args →
    e.fits (d.adapters a).serializeFlags
      (ResponseSerializer.serializePost n msgtypePersist args 0 "") = true

/-- `l` is what a step has to write to `a` about `n`: the stored message to a new subscriber, the
message of the post to the others. -/
structure Delivers (d : Dispatcher) (n : String) (a : AdapterId) (act : Action) (l : List CapsPtr) :
    Prop where
  replay : NewSubscription d n a act → l = (d.persistMsgs.lookup n).toList
  post : ¬ NewSubscription d n a act → a ∈ d.subscribers n → l = (d.acceptedPersist n act).toList
  other : ¬ NewSubscription d n a act → a ∉ d.subscribers n → l = []

theorem pubSubEvent_eq_subscribe : d.pubSubEvent act = .subscribe n a ↔
    ∃ caps now done rest, act = .msg caps a now done ∧
      d.request cmdSubscribeReq caps a = some rest ∧
      requestedName RequestParser.parseSubscribe rest a d = some n := by
  constructor
  · intro h
    cases act with
    | msg caps sender now done =>
      unfold pubSubEvent at h
      dsimp only at h
      split at h
      · rename_i name hname
        cases h
        obtain ⟨rest, hrest, hname⟩ := Option.bind_eq_some_iff.mp hname
        exact ⟨caps, now, done, rest, rfl, hrest, hname⟩
      · split at h <;> cases h
    | erase => cases h
    | expire => cases h
    | close => cases h
    | destroy => cases h
  · rintro ⟨caps, now, done, rest, rfl, hrest, hname⟩
    simp only [pubSubEvent, hrest, Option.bind_some, hname]

theorem handledPost_of_request {rest : Caps} {cmd : Word}
    (h : d.request cmd caps sender = some rest) (hne : cmd ≠ cmdPostReq) :
    d.handledPost caps sender = none := by
  rw [handledPost, request_unique h (Ne.symm hne)]
  rfl

theorem acceptedPersist_of_subscribe (h : d.pubSubEvent act = .subscribe n a) (m : String) :
    d.acceptedPersist m act = none := by
  obtain ⟨caps, now, done, rest, rfl, hrest, -⟩ := pubSubEvent_eq_subscribe.mp h
  simp only [acceptedPersist, handledPost_of_request hrest (by decide), Option.bind_none]

theorem not_newSubscription {rest : Caps} {cmd : Word} {now done : Nat}
    (h : d.request cmd caps sender = some rest) (hne : cmd ≠ cmdSubscribeReq) :
    ¬ NewSubscription d n a (.msg caps sender now done) := by
  rintro ⟨hev, -⟩
  obtain ⟨caps', now', done', rest', heq, hrest, -⟩ := pubSubEvent_eq_subscribe.mp hev
  cases heq
  rw [request_unique h (Ne.symm hne)] at hrest
  cases hrest

theorem Delivers.silent (hsub : ¬ NewSubscription d n a act) (hpost : d.acceptedPersist n act = none) :
    Delivers d n a act [] where
  replay h := absurd h hsub
  post _ _ := by rw [hpost]; rfl
  other _ _ := rfl

theorem newSubscription_iff {rest : Caps} {now done : Nat}
    (hreq : d.request cmdSubscribeReq caps sender = some rest) :
    NewSubscription d n a (.msg caps sender now done) ↔ sender = a ∧
      requestedName RequestParser.parseSubscribe rest sender d = some n ∧ a ∉ d.table n := by
  rw [NewSubscription, pubSubEvent_eq_subscribe]
  constructor
  · rintro ⟨⟨caps', now', done', rest', heq, hrest, hname⟩, hmem⟩
    cases heq
    cases hreq.symm.trans hrest
    exact ⟨rfl, hname, hmem⟩
  · rintro ⟨rfl, hname, hmem⟩
    exact ⟨⟨caps, now, done, rest, rfl, hreq, hname⟩, hmem⟩

/-- The replay of `handle_subscribe_req` is the stored message. -/
theorem persistsTo_replay {name : String} {ws : List Write}
    (hreqs : ws.map Write.request = (d.persistMsgs.lookup name).elim [] fun data =>
      frame e sender (d.adapters sender).serializeFlags
        (ResponseSerializer.serializePost name msgtypePersist data 0 "") none)
    (hfit : sender = a ∧ name = n → ∀ args, d.persistMsgs.lookup name = some args →
      e.fits (d.adapters sender).serializeFlags
        (ResponseSerializer.serializePost name msgtypePersist args 0 "") = true) :
    persistsTo n a ws =
      if sender = a ∧ name = n then (d.persistMsgs.lookup name).toList else [] := by
  rw [persistsTo, hreqs]
  cases hstored : d.persistMsgs.lookup name with
  | none => rw [Option.elim_none, Option.toList_none, ite_self, List.filterMap_nil]
  | some args =>
    by_cases hboth : sender = a ∧ name = n
    · rw [if_pos hboth, Option.elim_some, frame_of_fits (hfit hboth args hstored)]
      simp [persistArgs_serializePost, hboth.1, hboth.2]
    · rw [if_neg hboth]
      refine List.filterMap_eq_nil_iff.mpr fun r hr => ?_
      rw [mem_frame hr]
      dsimp only
      rw [persistArgs_serializePost, ← ite_and]
      exact if_neg fun hall => hboth ⟨hall.1, hall.2.1⟩

theorem delivers_subscribe {rest : Caps} {now done : Nat} {ok : Bool}
    (halive : d.alive sender = true) (hreq : d.request cmdSubscribeReq caps sender = some rest)
    (hfit : Fitted e n a d (.msg caps sender now done))
    (h : handleSubscribeReq e rest sender d = some (d', ok)) :
    ∃ ws, d'.out = d.out ++ ws ∧
      Delivers d n a (.msg caps sender now done) (persistsTo n a ws) := by
  have hnone : d.acceptedPersist n (.msg caps sender now done) = none := by
    simp only [acceptedPersist, handledPost_of_request hreq (by decide), Option.bind_none]
  have hnew : NewSubscription d n a (.msg caps sender now done) ↔ _ := newSubscription_iff hreq
  obtain ⟨hrej, rfl, -⟩ | ⟨name, hname, -, ⟨hany, rfl⟩ | ⟨hany, ws, hws, hreqs⟩⟩ :=
    handleSubscribeReq_spec h
  · refine ⟨[], (List.append_nil _).symm, .silent (fun hsub => ?_) hnone⟩
    obtain ⟨-, hname, -⟩ := hnew.mp hsub
    rw [hrej] at hname
    cases hname
  · refine ⟨[], (List.append_nil _).symm, .silent (fun hsub => ?_) hnone⟩
    obtain ⟨rfl, hname', hmem⟩ := hnew.mp hsub
    cases hname.symm.trans hname'
    exact hmem ((any_alive_iff halive).mp hany)
  · have hmem : sender ∉ d.table name := fun hmem =>
      Bool.false_ne_true (hany.symm.trans ((any_alive_iff halive).mpr hmem))
    have hsub : NewSubscription d n a (.msg caps sender now done) ↔ sender = a ∧ name = n := by
      rw [hnew, hname, Option.some.injEq]
      constructor
      · exact fun hall => ⟨hall.1, hall.2.1⟩
      · rintro ⟨rfl, rfl⟩
        exact ⟨rfl, rfl, hmem⟩
    refine ⟨ws, hws.out, ?_⟩
    rw [persistsTo_replay hreqs fun hboth => ?fits]
    case fits =>
      obtain ⟨rfl, rfl⟩ := hboth
      exact fun args => hfit.replay args (hsub.mpr ⟨rfl, rfl⟩)
    by_cases hboth : sender = a ∧ name = n
    · rw [if_pos hboth, hboth.2]
      exact ⟨fun _ => rfl, fun hnot => absurd (hsub.mpr hboth) hnot,
        fun hnot => absurd (hsub.mpr hboth) hnot⟩
    · rw [if_neg hboth]
      exact .silent (fun hnew => hboth (hsub.mp hnew)) hnone

theorem persistsTo_post {name : String} {msgtype : Word} {args : CapsPtr} {tag : BitVec 64}
    {cliname : String} {ws : List Write} (hnodup : (d.subscribers name).Nodup)
    (hws : ws.map Write.request = postFrames e d name
      (ResponseSerializer.serializePost name msgtype args tag cliname))
    (hfit : name = n → msgtype = msgtypePersist → a ∈ d.subscribers n →
      e.fits (d.adapters a).serializeFlags
        (ResponseSerializer.serializePost name msgtype args tag cliname) = true) :
    persistsTo n a ws = if (name = n ∧ msgtype = msgtypePersist) ∧ a ∈ d.subscribers n then [args]
      else [] := by
  rw [persistsTo, hws]
  generalize hcaps : ResponseSerializer.serializePost name msgtype args tag cliname = resp at hfit ⊢
  have hargs : persistArgs n resp =
      if name = n ∧ msgtype = msgtypePersist then some args else none := by
    rw [← hcaps, persistArgs_serializePost]
  have hmem (r : WriteRequest) (hr : r ∈ postFrames e d name resp) :
      r.1 ∈ d.subscribers name ∧ r.2.2.1 = resp := by
    obtain hr | hr := List.mem_append.mp hr <;>
    · obtain ⟨b, hb, hr⟩ := List.mem_flatMap.mp hr
      rw [mem_frame hr]
      exact ⟨(List.mem_filter.mp hb).1, rfl⟩
  split
  · rename_i hcond
    obtain ⟨⟨rfl, htype⟩, ha⟩ := hcond
    -- only the frame of `a` counts, and it is written once
    have hone := filter_postFrames hnodup ha (hfit rfl htype ha)
    have hfilter : (postFrames e d name resp).filterMap
        (fun r => if r.1 = a then persistArgs name r.2.2.1 else none) =
        ((postFrames e d name resp).filter fun r => r.1 == a).filterMap
          fun r => persistArgs name r.2.2.1 := by
      rw [List.filterMap_filter]
      simp only [beq_iff_eq]
    rw [if_pos ⟨rfl, htype⟩] at hargs
    rw [hfilter, hone]
    simp [hargs]
  · rename_i hcond
    refine List.filterMap_eq_nil_iff.mpr fun r hr => ?_
    obtain ⟨hsub, hr⟩ := hmem r hr
    rw [hr, hargs, ← ite_and]
    refine if_neg ?_
    rintro ⟨rfl, rfl, htype⟩
    exact hcond ⟨⟨rfl, htype⟩, hsub⟩

theorem handledPost_eq {rest : Caps} (hreq : d.request cmdPostReq caps sender = some rest) :
    d.handledPost caps sender =
      (acceptedPost rest sender d).map fun p => (p.1, postResp sender d p.1 p.2) := by
  rw [handledPost, hreq]
  rfl

theorem delivers_post {rest : Caps} {now done : Nat} {ok : Bool}
    (hnodup : ∀ m, (d.subscribers m).Nodup) (hreq : d.request cmdPostReq caps sender = some rest)
    (hfit : Fitted e n a d (.msg caps sender now done))
    (h : handlePostReq e rest sender d = some (d', ok)) :
    ∃ ws, d'.out = d.out ++ ws ∧
      Delivers d n a (.msg caps sender now done) (persistsTo n a ws) := by
  have hsub : ¬ NewSubscription d n a (.msg caps sender now done) :=
    not_newSubscription hreq (by decide)
  have hhandled := handledPost_eq hreq
  obtain ⟨hrej, rfl, -⟩ | ⟨req, info, d₁, ws, hacc, -, hws, rfl, hreqs⟩ := handlePostReq_spec h
  · refine ⟨[], (List.append_nil _).symm, .silent hsub ?_⟩
    simp only [acceptedPersist, hhandled, hrej, Option.map_none, Option.bind_none]
  · rw [hacc, Option.map_some] at hhandled
    refine ⟨ws, ?_, ?_⟩
    · rw [persistPost_rest]
      exact hws.out.trans (by rw [purge_rest])
    · have hlist := persistsTo_post (n := n) (a := a) (hnodup req.name) hreqs fun hname htype ha =>
        hfit.post _ _ _ _ _ _ rfl hhandled hname htype ha
      rw [hlist]
      refine ⟨fun hnew => absurd hnew hsub, fun _ ha => ?_, fun _ ha => if_neg fun hall => ha hall.2⟩
      simp only [acceptedPersist, hhandled, Option.bind_some]
      by_cases hcond : req.name = n ∧ req.msgtype = msgtypePersist
      · rw [if_pos ⟨hcond, ha⟩, if_pos hcond]
        rfl
      · rw [if_neg fun hall => hcond hall.1, if_neg hcond]
        rfl

theorem step_delivers (hd : (system e).Reachable d) (h : step e d act = some d')
    (hfit : Fitted e n a d act) :
    ∃ ws, d'.out = d.out ++ ws ∧ Delivers d n a act (persistsTo n a ws) := by
  have silent (cmds : List Word) (hresp : Responds cmds d d') (hne : cmdPostResp ∉ cmds)
      (hsub : ¬ NewSubscription d n a act) (hpost : d.acceptedPersist n act = none) :
      ∃ ws, d'.out = d.out ++ ws ∧ Delivers d n a act (persistsTo n a ws) := by
    obtain ⟨ws, hout, hws⟩ := hresp
    exact ⟨ws, hout, persistsTo_of_commands (n := n) (a := a) hws hne ▸ .silent hsub hpost⟩
  have noSub (hact : ∀ caps sender now done, act ≠ .msg caps sender now done) :
      ¬ NewSubscription d n a act := by
    rintro ⟨hev, -⟩
    obtain ⟨caps, now, done, rest, rfl, -⟩ := pubSubEvent_eq_subscribe.mp hev
    exact hact _ _ _ _ rfl
  cases act with
  | msg caps sender now done =>
    obtain ⟨halive, h⟩ := step_msg h
    obtain ⟨rfl, hnone⟩ | ⟨cmd, rest, d₁, ok, hreq, hh, rfl⟩ := handleMsg_request h
    · refine silent [] (.silent rfl) List.not_mem_nil ?_ ?_
      · rintro ⟨hev, -⟩
        obtain ⟨_, _, _, _, heq, hrest, -⟩ := pubSubEvent_eq_subscribe.mp hev
        cases heq
        rw [hnone cmdSubscribeReq (by decide)] at hrest
        cases hrest
      · simp only [acceptedPersist, handledPost, hnone cmdPostReq (by decide), Option.bind_none]
    · have hout : ({ (if ok then d₁ else d₁.close sender) with handleCmdTp := done } :
          Dispatcher).out = d₁.out := by cases ok <;> rfl
      by_cases hsub : cmd = cmdSubscribeReq
      · subst hsub
        rw [hout]
        exact delivers_subscribe halive hreq hfit hh
      · by_cases hpost : cmd = cmdPostReq
        · subst hpost
          rw [hout]
          exact delivers_post (subscribers_nodup hd) hreq hfit hh
        · have hresp : Responds (responses cmd.toInt) d _ :=
            (msgHandler_responds hh).trans (.silent hout)
          refine silent _ hresp ?_ (not_newSubscription hreq hsub) ?_
          · have h1 : cmd.toInt ≠ 1 := fun hcmd => hsub (BitVec.eq_of_toInt_eq hcmd)
            have h3 : cmd.toInt ≠ 3 := fun hcmd => hpost (BitVec.eq_of_toInt_eq hcmd)
            unfold responses
            simp only [h1, h3, or_self, if_false]
            split
            · decide
            · split
              · decide
              · split
                · decide
                · split <;> decide
          · simp only [acceptedPersist, handledPost_of_request hreq hpost, Option.bind_none]
  | erase sender now =>
    exact silent _ (responds_doEraseAdapter (step_erase h).2) (by decide) (noSub nofun) rfl
  | expire tp => exact silent _ (responds_discardPendingCalls h) (by decide) (noSub nofun) rfl
  | close b =>
    cases h
    exact silent [] (.silent rfl) List.not_mem_nil (noSub nofun) rfl
  | destroy b =>
    obtain ⟨-, -, rfl⟩ := step_destroy h
    exact silent [] (.silent rfl) List.not_mem_nil (noSub nofun) rfl

theorem persistMsgs_msgHandler {now : Nat} {cmd : Int} {ok : Bool} (hcmd : cmd ≠ 3)
    (h : msgHandler e now cmd caps sender d = some (d', ok)) : d'.persistMsgs = d.persistMsgs := by
  replace h := msgHandler_updates h
  induction h with
  | refl => rfl
  | tail _ hup ih =>
    refine Eq.trans ?_ ih
    cases hup with
    | authenticate req => rw [(registryOnly_authenticate e req sender _).rest]
    | purge | persist => exact absurd rfl hcmd
    | methods names _ _ => rw [(registryOnly_setInfo _ sender _).rest]
    | write hws => exact hws.persistMsgs
    | subscribe | unsubscribe | reply | refuse | enter => rfl

theorem lookup_persistPost {name : String} {msgtype : Word} {args : CapsPtr} (d : Dispatcher) :
    (persistPost name msgtype args d).persistMsgs.lookup n =
      (if name = n ∧ msgtype = msgtypePersist then some args else none).or
        (d.persistMsgs.lookup n) := by
  unfold persistPost
  by_cases htype : msgtype = msgtypePersist
  · by_cases hname : n = name
    · subst hname
      simp [htype]
    · simp [htype, AList.lookup_insert_ne hname, Ne.symm hname]
  · simp [htype]

/-- `persist_msgs` holds the args of the last accepted persistent post. -/
theorem step_persistMsgs (h : step e d act = some d') :
    d'.persistMsgs.lookup n = (d.acceptedPersist n act).or (d.persistMsgs.lookup n) := by
  cases act with
  | msg caps sender now done =>
    obtain ⟨rfl, hnone⟩ | ⟨cmd, rest, d₁, ok, hreq, hh, rfl⟩ := handleMsg_request (step_msg h).2
    · simp only [acceptedPersist, handledPost, hnone cmdPostReq (by decide), Option.bind_none,
        Option.none_or]
      rfl
    · have hsame : ({ (if ok then d₁ else d₁.close sender) with handleCmdTp := done } :
          Dispatcher).persistMsgs = d₁.persistMsgs := by cases ok <;> rfl
      rw [hsame]
      by_cases hpost : cmd = cmdPostReq
      · subst hpost
        have hhandled := handledPost_eq hreq
        have hh : handlePostReq e rest sender d = some (d₁, ok) := hh
        obtain ⟨hrej, rfl, -⟩ | ⟨req, info, d₂, ws, hacc, -, hws, rfl, -⟩ := handlePostReq_spec hh
        · simp only [acceptedPersist, hhandled, hrej, Option.map_none, Option.bind_none,
            Option.none_or]
        · have hstored : d₂.persistMsgs = d.persistMsgs := hws.persistMsgs.trans (by rw [purge_rest])
          rw [lookup_persistPost, hstored]
          simp only [acceptedPersist, hhandled, hacc, Option.map_some, Option.bind_some]
      · rw [persistMsgs_msgHandler (fun hcmd => hpost (BitVec.eq_of_toInt_eq hcmd)) hh]
        simp only [acceptedPersist, handledPost_of_request hreq hpost, Option.bind_none,
          Option.none_or]
  | erase sender now =>
    obtain ⟨-, rfl⟩ | ⟨info, d₁, ws, -, hws, -, rfl⟩ := doEraseAdapter_spec (step_erase h).2
    · rfl
    · have hname : d₁.persistMsgs = d.persistMsgs := by
        rw [hws.persistMsgs, (registryOnly_eraseName info.name d).rest]
      rw [checkSubscriptions_rest, ← hname]
      split <;> rfl
  | expire tp =>
    obtain ⟨expired, rest, ws, -, hws, -⟩ := discardPendingCalls_spec h
    rw [hws.persistMsgs]
    rfl
  | close b =>
    cases h
    rfl
  | destroy b =>
    obtain ⟨-, -, rfl⟩ := step_destroy h
    rfl

theorem persistMsgs_run {d₀ : Dispatcher} {as : List Action} (h : (system e).Run d₀ as d) :
    d.persistMsgs.lookup n =
      (acceptedPersists e n d₀ as).getLast?.or (d₀.persistMsgs.lookup n) := by
  induction h with
  | nil => rfl
  | cons hst _ ih =>
    have hst : step e _ _ = some _ := hst
    rw [ih, step_persistMsgs hst, acceptedPersists, hst, Option.elim_some, List.getLast?_append,
      ← Option.or_assoc]
    congr 2
    cases acceptedPersist _ n _ <;> rfl

theorem subscribers_step (hd : (system e).Reachable d) (h : step e d act = some d')
    (ha : a ∈ d'.subscribers n) : a ∈ d.subscribers n ∨ NewSubscription d n a act := by
  have heffect := step_effect h
  have hlive : d'.live a = true := (List.mem_filter.mp ha).2
  rw [heffect.topics (topics d hd) rfl] at ha
  have ha : a ∈ ((topics d hd).apply (d.pubSubEvent act)).subscribers n := (List.mem_filter.mp ha).1
  by_cases hev : d.pubSubEvent act = .subscribe n a
  · by_cases hmem : a ∈ d.table n
    · exact .inl (List.mem_filter.mpr ⟨hmem, heffect.live a hlive⟩)
    · exact .inr ⟨hev, hmem⟩
  · left
    cases hact : d.pubSubEvent act with
    | subscribe m b =>
      rw [hact, PubSub.Topics.apply_subscribe] at ha
      split at ha
      · rename_i hm
        obtain rfl | ha := PubSub.mem_enter.mp ha
        · rw [hact, hm] at hev
          exact absurd rfl hev
        · exact ha
      · exact ha
    | unsubscribe m b =>
      rw [hact, PubSub.Topics.apply_unsubscribe] at ha
      split at ha
      · exact (List.mem_filter.mp ha).1
      · exact ha
    | silent =>
      rw [hact] at ha
      exact ha

/-- Nothing was written about a name without a stored message, and the last message written to a
subscriber is the stored one. -/
structure Converged (n : String) (a : AdapterId) (d : Dispatcher) : Prop where
  unstored : d.persistMsgs.lookup n = none → seen d n a = []
  last : a ∈ d.subscribers n → (seen d n a).getLast? = d.persistMsgs.lookup n

theorem Converged.step (hc : Converged n a d) (hd : (system e).Reachable d)
    (h : step e d act = some d') (hfit : Fitted e n a d act) : Converged n a d' := by
  obtain ⟨ws, hout, hdel⟩ := step_delivers hd h hfit
  have hseen : seen d' n a = seen d n a ++ persistsTo n a ws := by
    rw [seen, hout, persistsTo_append]
    rfl
  have hstored := step_persistMsgs (n := n) h
  constructor
  · intro hnone
    obtain ⟨hacc, hnone⟩ := Option.or_eq_none_iff.mp (hstored.symm.trans hnone)
    have hempty : persistsTo n a ws = [] := by
      by_cases hnew : NewSubscription d n a act
      · rw [hdel.replay hnew, hnone]
        rfl
      · by_cases ha : a ∈ d.subscribers n
        · rw [hdel.post hnew ha, hacc]
          rfl
        · exact hdel.other hnew ha
    rw [hseen, hc.unstored hnone, hempty]
    rfl
  · intro ha
    rw [hseen, hstored, List.getLast?_append]
    by_cases hnew : NewSubscription d n a act
    · rw [hdel.replay hnew, acceptedPersist_of_subscribe hnew.1]
      cases hvalue : d.persistMsgs.lookup n with
      | none =>
        rw [hc.unstored hvalue]
        rfl
      | some args => rfl
    · obtain hold | hnew' := subscribers_step hd h ha
      · rw [hdel.post hnew hold, hc.last hold]
        cases d.acceptedPersist n act <;> rfl
      · exact absurd hnew' hnew

theorem writes_succeeded (h : (system e).Reachable d) (ha : d.live a = true) :
    ∀ w ∈ d.out, w.dest = a → w.result = .success := by
  refine h.invariant (P := fun d => d.live a = true → ∀ w ∈ d.out, w.dest = a → w.result = .success)
    ?_ ?_ ha
  · rintro s ⟨adapters, rfl, -⟩ - w hw
    cases hw
  · intro s act t hs hst ht w hw hdest
    have heffect := step_effect hst
    obtain ⟨ws, hout, hgone, -⟩ := heffect.writes
    rw [hout] at hw
    obtain hw | hw := List.mem_append.mp hw
    · exact hs (heffect.live a ht) w hw hdest
    · exact hgone a ht w hw hdest

theorem subscription_writes (hev : d.pubSubEvent act = .subscribe n a)
    (h : step e d act = some d') :
    ∃ ws, d'.out = d.out ++ ws ∧ (a ∈ d.table n → ws = []) ∧
      (a ∉ d.table n → ws.map Write.request = (d.persistMsgs.lookup n).elim [] fun args =>
        frame e a (d.adapters a).serializeFlags
          (ResponseSerializer.serializePost n msgtypePersist args 0 "") none) := by
  obtain ⟨caps, now, done, rest, rfl, hrest, hname⟩ := pubSubEvent_eq_subscribe.mp hev
  obtain ⟨halive, h⟩ := step_msg h
  obtain ⟨-, hnone⟩ | ⟨cmd, rest', d₁, ok, hreq, hh, rfl⟩ := handleMsg_request h
  · rw [hnone cmdSubscribeReq (by decide)] at hrest
    cases hrest
  · have hcmd : cmd = cmdSubscribeReq := by
      by_contra hne
      rw [request_unique hreq (Ne.symm hne)] at hrest
      cases hrest
    subst hcmd
    cases hreq.symm.trans hrest
    have hout : ({ (if ok then d₁ else d₁.close a) with handleCmdTp := done } :
        Dispatcher).out = d₁.out := by cases ok <;> rfl
    rw [hout]
    have hh : handleSubscribeReq e rest a d = some (d₁, ok) := hh
    obtain ⟨hrej, -, -⟩ | ⟨name, hname', -, ⟨hany, rfl⟩ | ⟨hany, ws, hws, hreqs⟩⟩ :=
      handleSubscribeReq_spec hh
    · rw [hname] at hrej
      cases hrej
    · cases hname.symm.trans hname'
      refine ⟨[], (List.append_nil _).symm, fun _ => rfl, fun hmem => ?_⟩
      exact absurd ((any_alive_iff halive).mp hany) hmem
    · cases hname.symm.trans hname'
      refine ⟨ws, hws.out, fun hmem => ?_, fun _ => hreqs⟩
      exact absurd (hany.symm.trans ((any_alive_iff halive).mpr hmem)) Bool.false_ne_true

/-- In every run, `persist_msgs` holds the last persistent post that was accepted; the last
persistent message written to a subscriber carries its args, if what was written fitted; and a
subscription writes that message once if it is new, and nothing if it is repeated. -/
theorem persistent_converges {d₀ : Dispatcher} {as : List Action} (h₀ : Initial d₀)
    (hrun : (system e).Run d₀ as d) (n : String) :
    d.persistMsgs.lookup n = (acceptedPersists e n d₀ as).getLast? ∧
    (∀ a ∈ d.subscribers n, ((system e).guard (Fitted e n a)).Run d₀ as d →
      (seen d n a).getLast? = (acceptedPersists e n d₀ as).getLast? ∧
      ∀ w ∈ d.out, w.dest = a → w.result = .success) ∧
    ∀ a act d', d.pubSubEvent act = .subscribe n a → step e d act = some d' →
      ∃ ws, d'.out = d.out ++ ws ∧ (a ∈ d.table n → ws = []) ∧
        (a ∉ d.table n → Fitted e n a d act →
          persistsTo n a ws = (acceptedPersists e n d₀ as).getLast?.toList ∧
          ws.length = (persistsTo n a ws).length) := by
  have hd : (system e).Reachable d := ⟨d₀, as, h₀, hrun⟩
  have hempty : d₀.persistMsgs.lookup n = none ∧ ∀ a, seen d₀ n a = [] := by
    obtain ⟨adapters, rfl, -⟩ := h₀
    exact ⟨rfl, fun _ => rfl⟩
  have hstored : d.persistMsgs.lookup n = (acceptedPersists e n d₀ as).getLast? := by
    rw [persistMsgs_run hrun, hempty.1, Option.or_none]
  refine ⟨hstored, fun a ha hfit => ⟨?_, writes_succeeded hd (List.mem_filter.mp ha).2⟩, ?_⟩
  · have hreach : ((system e).guard (Fitted e n a)).Reachable d := ⟨d₀, as, h₀, hfit⟩
    have hconv : Converged n a d := by
      apply hreach.invariant_of (P := Converged n a)
      · rintro s ⟨adapters, rfl, -⟩
        exact ⟨fun _ => rfl, fun _ => rfl⟩
      · exact fun s act t hs hc hst => hc.step hs.of_guard hst.2 hst.1
    rw [hconv.last ha, hstored]
  · intro a act d' hev hst
    obtain ⟨ws, hout, hrepeated, hnew⟩ := subscription_writes hev hst
    refine ⟨ws, hout, hrepeated, fun hmem hfit => ?_⟩
    have hreqs := hnew hmem
    rw [← hstored]
    have hlength : ws.length = (ws.map Write.request).length := (List.length_map _).symm
    rw [hlength, persistsTo, hreqs]
    cases hvalue : d.persistMsgs.lookup n with
    | none => exact ⟨rfl, rfl⟩
    | some args =>
      rw [Option.elim_some, frame_of_fits (hfit.replay args ⟨hev, hmem⟩ hvalue)]
      simp [persistArgs_serializePost]

theorem fitted_sampleEnv (n : String) (a : AdapterId) (d : Dispatcher) (act : Action) :
    Fitted sampleEnv n a d act where
  post caps sender now done req resp _ hpost _ _ _ := by
    obtain ⟨rest, -, hpost⟩ := Option.bind_eq_some_iff.mp hpost
    obtain ⟨⟨req', info⟩, -, heq⟩ := Option.map_eq_some_iff.mp hpost
    cases heq
    rfl
  replay _ _ _ := rfl

theorem persistent_converges_replayed :
    ∃ as d, execute (step sampleEnv) {} as = some d ∧ d.subscribers "t" = [1] ∧
      seen d "t" 1 = [none, some []] ∧
      (seen d "t" 1).getLast? = (acceptedPersists sampleEnv "t" {} as).getLast? := by
  have hrun : execute (step sampleEnv) {} [sampleAuth 0 "p" 0, sampleAuth 1 "s" 0,
      .msg (RequestSerializer.serializePost "t" msgtypePersist none) 0 0 0,
      .msg (RequestSerializer.serializeSubscribe "t") 1 0 0,
      .msg (RequestSerializer.serializePost "t" msgtypePersist (some [])) 0 0 0] = some _ := rfl
  have hconv := persistent_converges initial_default (execute_run hrun) "t"
  refine ⟨_, _, hrun, rfl, rfl, ?_⟩
  refine (hconv.2.1 1 (by decide) ?_).1
  exact (execute_run hrun).guard fun d act => fitted_sampleEnv "t" 1 d act

end Dispatcher

end Flora
