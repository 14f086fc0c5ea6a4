import Flora.Dispatcher.Registry

/-! # Rejected messages

A message is rejected when `handle_cmd` closes its sender without calling a handler or because the
handler returned false. Most handlers check first and act last; the exceptions are a command word
below zero, which indexes in front of `msg_handlers`, and the two handlers that find out after
their work that the response has no room. -/

namespace Flora

open TransitionSystem

namespace Dispatcher

variable {e : Env} {d d' d'' : Dispatcher} {caps : Caps} {sender : AdapterId}

/-- An ordered map is determined by its lookups. -/
structure SameMaps (d d' : Dispatcher) : Prop where
  subscriptions : ∀ name, d'.subscriptions.lookup name = d.subscriptions.lookup name
  persistMsgs : ∀ name, d'.persistMsgs.lookup name = d.persistMsgs.lookup name
  namedAdapters : ∀ name, d'.namedAdapters.lookup name = d.namedAdapters.lookup name
  adapterInfos : ∀ a, d'.adapterInfos.lookup a = d.adapterInfos.lookup a
  monitors : ∀ a, d'.monitors.lookup a = d.monitors.lookup a
  pendingCalls : d'.pendingCalls = d.pendingCalls

namespace SameMaps

theorem refl (d : Dispatcher) : SameMaps d d :=
  ⟨fun _ => rfl, fun _ => rfl, fun _ => rfl, fun _ => rfl, fun _ => rfl, rfl⟩

theorem trans (h : SameMaps d d') (h' : SameMaps d' d'') : SameMaps d d'' where
  subscriptions name := (h'.subscriptions name).trans (h.subscriptions name)
  persistMsgs name := (h'.persistMsgs name).trans (h.persistMsgs name)
  namedAdapters name := (h'.namedAdapters name).trans (h.namedAdapters name)
  adapterInfos a := (h'.adapterInfos a).trans (h.adapterInfos a)
  monitors a := (h'.monitors a).trans (h.monitors a)
  pendingCalls := h'.pendingCalls.trans h.pendingCalls

theorem setAdapter (d : Dispatcher) (a : AdapterId) (x : Adapter) :
    SameMaps d (d.setAdapter a x) :=
  ⟨fun _ => rfl, fun _ => rfl, fun _ => rfl, fun _ => rfl, fun _ => rfl, rfl⟩

end SameMaps

theorem Writes.sameMaps {ws : List Write} (h : Writes d ws d') : SameMaps d d' where
  subscriptions _ := by rw [h.subscriptions]
  persistMsgs _ := by rw [h.persistMsgs]
  namedAdapters _ := by rw [h.namedAdapters]
  adapterInfos _ := by rw [h.adapterInfos]
  monitors _ := by rw [h.monitors]
  pendingCalls := h.pendingCalls

theorem sameMaps_setInfo {info : AdapterInfo} (h : d.deref sender = some info) :
    SameMaps d (d.setInfo sender info) := by
  have same (m : AdapterInfoMap) (hm : m.lookup sender = some info) (a : AdapterId) :
      (m.insert sender info).lookup a = m.lookup a := by
    by_cases ha : a = sender
    · subst ha
      rw [AList.lookup_insert, hm]
    · exact AList.lookup_insert_ne ha
  cases hinfo : (d.adapters sender).info with
  | none => simp [deref, hinfo] at h
  | some ref =>
    cases ref with
    | client =>
      have hm : d.adapterInfos.lookup sender = some info := by simpa [deref, hinfo] using h
      simp only [setInfo, hinfo]
      exact ⟨fun _ => rfl, fun _ => rfl, fun _ => rfl, same _ hm, fun _ => rfl, rfl⟩
    | monitor =>
      have hm : d.monitors.lookup sender = some info := by simpa [deref, hinfo] using h
      simp only [setInfo, hinfo]
      exact ⟨fun _ => rfl, fun _ => rfl, fun _ => rfl, fun _ => rfl, same _ hm, rfl⟩

/-- The auth request makes a new record or takes a new name. -/
def registers (e : Env) (req : AuthReq) (sender : AdapterId) (d : Dispatcher) : Bool :=
  !(req.version < 3) &&
    if hasMonitorFlag req.flags then hasMonitorFlag e.flags && (d.monitors.lookup sender).isNone
    else if req.extra.length > 0 then (d.namedAdapters.lookup req.extra).isNone
    else (d.adapterInfos.lookup sender).isNone

theorem addMonitor_maps (name : String) (flags : Word) (sender : AdapterId) (d : Dispatcher) :
    if (d.monitors.lookup sender).isNone then
      ((addMonitor name flags sender d).monitors.lookup sender).isSome = true
    else SameMaps d (addMonitor name flags sender d) := by
  cases hkey : d.monitors.lookup sender with
  | some info =>
    simp only [addMonitor, hkey]
    exact ⟨fun _ => rfl, fun _ => rfl, fun _ => rfl, fun _ => rfl, fun _ => rfl, rfl⟩
  | none => simp [addMonitor, hkey]

theorem addAdapterInfo_maps (name : String) (flags pid : Word) (sender : AdapterId)
    (d : Dispatcher) : (addAdapterInfo name flags pid sender d).namedAdapters = d.namedAdapters ∧
    if (d.adapterInfos.lookup sender).isNone then
      ((addAdapterInfo name flags pid sender d).adapterInfos.lookup sender).isSome = true
    else SameMaps d (addAdapterInfo name flags pid sender d) := by
  cases hkey : d.adapterInfos.lookup sender with
  | some info =>
    simp only [addAdapterInfo, hkey]
    exact ⟨trivial, fun _ => rfl, fun _ => rfl, fun _ => rfl, fun _ => rfl, fun _ => rfl, rfl⟩
  | none => simp [addAdapterInfo, hkey, setAdapter]

theorem addAdapter_maps (name : String) (flags pid : Word) (sender : AdapterId) (d : Dispatcher) :
    if name.length > 0 then
      if (d.namedAdapters.lookup name).isNone then
        (addAdapter name flags pid sender d).2 = true ∧
          ((addAdapter name flags pid sender d).1.namedAdapters.lookup name).isSome = true
      else addAdapter name flags pid sender d = (d, false)
    else addAdapter name flags pid sender d = (addAdapterInfo name flags pid sender d, true) := by
  unfold addAdapter
  split
  · cases hkey : d.namedAdapters.lookup name with
    | some b => simp [AssocMap.insertNew_of_some hkey]
    | none =>
      simp only [AssocMap.insertNew_of_none hkey, Option.isNone_none, if_true]
      rw [(addAdapterInfo_maps ..).1]
      simp
  · rfl

theorem not_sameMaps_of_lookup {β : Type} {x y : Option β} (hx : x.isNone = true)
    (hy : y.isSome = true) : y ≠ x := by
  rintro rfl
  rw [Option.isNone_iff_eq_none] at hx
  rw [hx] at hy
  cases hy

/-- An auth request that registers nothing changes no map; one that registers succeeds. -/
theorem authenticate_maps (e : Env) (req : AuthReq) (sender : AdapterId) (d : Dispatcher) :
    if registers e req sender d then
      (authenticate e req sender d).2 = cliSuccess ∧ ¬ SameMaps d (authenticate e req sender d).1
    else SameMaps d (authenticate e req sender d).1 := by
  unfold registers authenticate
  by_cases hver : req.version < 3
  · simp only [hver]
    exact .refl d
  · simp only [hver, if_false, decide_false, Bool.not_false, Bool.true_and]
    generalize htag : (if (d.adapters sender).tag = 0 then req.pid.setWidth 64
      else (d.adapters sender).tag) = t
    have hset := SameMaps.setAdapter d sender { d.adapters sender with tag := t }
    generalize d.setAdapter sender { d.adapters sender with tag := t } = d₁ at hset ⊢
    rw [← hset.monitors, ← hset.namedAdapters, ← hset.adapterInfos]
    by_cases hmon : hasMonitorFlag req.flags = true
    · simp only [hmon, if_true]
      by_cases hsvc : hasMonitorFlag e.flags = true
      · simp only [hsvc, if_true, Bool.true_and]
        have hadd := addMonitor_maps req.extra req.flags sender d₁
        split at hadd
        · rename_i hnew
          rw [if_pos hnew]
          refine ⟨trivial, fun hsame => not_sameMaps_of_lookup hnew hadd ?_⟩
          rw [hsame.monitors, hset.monitors]
        · rename_i hnew
          rw [if_neg hnew]
          exact hset.trans hadd
      · simp only [hsvc]
        exact hset
    · simp only [hmon, Bool.false_eq_true, if_false]
      have hadd := addAdapter_maps req.extra req.flags req.pid sender d₁
      generalize hres : addAdapter req.extra req.flags req.pid sender d₁ = res at hadd ⊢
      obtain ⟨d₂, ok⟩ := res
      by_cases hlen : req.extra.length > 0
      · simp only [hlen, if_true] at hadd ⊢
        split at hadd
        · rename_i hnew
          obtain ⟨hok, hsome⟩ := hadd
          cases hok
          simp only [hnew, if_true]
          refine ⟨trivial, fun hsame => not_sameMaps_of_lookup hnew hsome ?_⟩
          rw [hsame.namedAdapters, hset.namedAdapters]
        · rename_i hnew
          cases hadd
          simp only [hnew]
          exact hset
      · simp only [hlen, if_false] at hadd ⊢
        cases hadd
        have hinfo := (addAdapterInfo_maps req.extra req.flags req.pid sender d₁).2
        split at hinfo
        · rename_i hnew
          simp only [hnew, if_true]
          refine ⟨trivial, fun hsame => not_sameMaps_of_lookup hnew hinfo ?_⟩
          rw [hsame.adapterInfos, hset.adapterInfos]
        · rename_i hnew
          simp only [hnew]
          exact hset.trans hinfo

/-- The response to an auth request that registered its sender has room. -/
def AuthFits (e : Env) (d : Dispatcher) (sender : AdapterId) (caps : Caps) : Prop :=
  ∀ req, RequestParser.parseAuth caps = some req → registers e req sender d = true →
    e.fits (d.adapters sender).serializeFlags
      (ResponseSerializer.serializeAuth cliSuccess floraVersion) = true

/-- The `CMD_CALL_RESP` that `handle_call_req` makes of a request. -/
def callResp (d : Dispatcher) (sender : AdapterId) (req : CallReq) (info : AdapterInfo) : Caps :=
  ResponseSerializer.serializeCall req.name req.args (BitVec.ofNat 32 (d.reqseq + 1))
    (d.adapters sender).tag info.name

/-- A call that finds its method has room for the `CMD_CALL_RESP`. -/
def CallFits (e : Env) (d : Dispatcher) (sender : AdapterId) (caps : Caps) : Prop :=
  ∀ req info target, RequestParser.parseCall caps = some req → d.deref sender = some info →
    findMethod req.target req.name d = some (some target) →
    e.fits (d.adapters target).serializeFlags (callResp d sender req info) = true

theorem serializeFlags_authenticate (req : AuthReq) (sender : AdapterId) (d : Dispatcher) :
    ((authenticate e req sender d).1.adapters sender).serializeFlags =
      (d.adapters sender).serializeFlags :=
  (registryOnly_authenticate e req sender d).serializeFlags sender

theorem handleAuthReq_rejected (h : handleAuthReq e caps sender d = some (d', false))
    (hfits : AuthFits e d sender caps) : SameMaps d d' := by
  simp only [handleAuthReq] at h
  split at h
  · cases h
    exact .refl d
  · rename_i req hparse
    have hmaps := authenticate_maps e req sender d
    rw [serializeFlags_authenticate] at h
    by_cases hreg : registers e req sender d = true
    · rw [if_pos hreg] at hmaps
      rw [hmaps.1, if_pos (hfits req hparse hreg), if_pos rfl] at h
      obtain ⟨_, _, heq⟩ := Option.map_eq_some_iff.mp h
      cases heq
    · rw [if_neg hreg] at hmaps
      split at h
      · split at h
        · obtain ⟨_, _, heq⟩ := Option.map_eq_some_iff.mp h
          cases heq
        · cases h
          exact hmaps.trans (write_writes ..).sameMaps
      · cases h
        exact hmaps

/-- Without room for the response the registration stays and the sender is rejected. -/
theorem handleAuthReq_of_not_fits {req : AuthReq} (hparse : RequestParser.parseAuth caps = some req)
    (hreg : registers e req sender d = true) (hfits : ¬ e.fits (d.adapters sender).serializeFlags
      (ResponseSerializer.serializeAuth cliSuccess floraVersion) = true) :
    handleAuthReq e caps sender d = some ((authenticate e req sender d).1, false) := by
  have hmaps := authenticate_maps e req sender d
  rw [if_pos hreg] at hmaps
  simp only [handleAuthReq, hparse, hmaps.1, serializeFlags_authenticate]
  rw [if_neg hfits]

theorem handleDeclareMethod_rejected (h : handleDeclareMethod caps sender d = some (d', false)) :
    SameMaps d d' := by
  obtain ⟨_, rfl, _⟩ | ⟨name, info, _, hderef, h⟩ := nameRequest_spec h
  · exact .refl _
  · unfold AdapterInfo.declareMethod at h
    split at h
    · cases h
      exact sameMaps_setInfo hderef
    · cases h

theorem handleRemoveMethod_rejected (h : handleRemoveMethod caps sender d = some (d', false)) :
    SameMaps d d' := by
  obtain ⟨_, rfl, _⟩ | ⟨name, info, _, _, h⟩ := nameRequest_spec h
  · exact .refl _
  · cases h

theorem handleCallReq_rejected {now : Nat} (h : handleCallReq e now caps sender d = some (d', false))
    (hfits : CallFits e d sender caps) : SameMaps d d' := by
  unfold handleCallReq at h
  split at h
  · cases h
    exact .refl _
  · split at h
    · cases h
      exact .refl _
    · rename_i req hparse
      obtain ⟨info, hderef, h⟩ := Option.bind_eq_some_iff.mp h
      obtain ⟨found, hfound, h⟩ := Option.bind_eq_some_iff.mp h
      cases found with
      | none =>
        dsimp only at h
        split at h
        · obtain ⟨_, _, heq⟩ := Option.map_eq_some_iff.mp h
          cases heq
        · cases h
          exact ⟨fun _ => rfl, fun _ => rfl, fun _ => rfl, fun _ => rfl, fun _ => rfl, rfl⟩
      | some target =>
        have hroom := hfits req info target hparse hderef hfound
        dsimp only at h
        split at h
        · obtain ⟨_, _, heq⟩ := Option.map_eq_some_iff.mp h
          cases heq
        · rename_i hnot
          exact absurd hroom hnot

theorem info_of_deref {info : AdapterInfo} (h : d.deref sender = some info) :
    (d.adapters sender).info ≠ none := by
  intro hnone
  simp [deref, hnone] at h

/-- A call that finds its method is entered before it is known whether it can be forwarded. -/
theorem handleCallReq_of_found (e : Env) (now : Nat) {req : CallReq} {info : AdapterInfo}
    {target : AdapterId} (hparse : RequestParser.parseCall caps = some req)
    (hderef : d.deref sender = some info)
    (hfound : findMethod req.target req.name d = some (some target)) :
    handleCallReq e now caps sender d =
      if e.fits (d.adapters target).serializeFlags (callResp d sender req info) then
        ((enterCall now sender target req d).writeLogged e target
          (d.adapters target).serializeFlags (callResp d sender req info) none
          [sender, target]).map (·, true)
      else some (enterCall now sender target req d, false) := by
  rw [handleCallReq, if_neg (info_of_deref hderef), hparse]
  simp only [hderef, hfound, Option.bind_some]
  rfl

theorem length_insertPendingCall (pc : PendingCall) (pcs : List PendingCall) :
    (insertPendingCall pc pcs).length = pcs.length + 1 := by
  induction pcs with
  | nil => rfl
  | cons p pcs ih =>
    unfold insertPendingCall
    split
    · rfl
    · rw [List.length_cons, ih, List.length_cons]

theorem handleReplyReq_rejected (h : handleReplyReq e caps sender d = some (d', false)) :
    d' = d := by
  obtain rfl | ⟨_, _, _, _, _, _, _, _, _, _, _, _, hok⟩ := handleReplyReq_spec h
  · rfl
  · cases hok

/-- A handler that returns false has changed no map, if the responses it ends with have room. -/
theorem msgHandler_rejected {now : Nat} {cmd : Int}
    (h : msgHandler e now cmd caps sender d = some (d', false))
    (hauth : cmd = 0 → AuthFits e d sender caps) (hcall : cmd = 7 → CallFits e d sender caps) :
    SameMaps d d' := by
  obtain ⟨hcmd, h⟩ | ⟨_, h⟩ | ⟨_, h⟩ | ⟨_, h⟩ | ⟨_, h⟩ | ⟨_, h⟩ | ⟨_, h⟩ | ⟨hcmd, h⟩ | ⟨_, h⟩ :=
    msgHandler_cases h
  · exact handleAuthReq_rejected h (hauth hcmd)
  · obtain ⟨_, rfl, _⟩ | ⟨_, _, hok, _⟩ := handleSubscribeReq_spec h
    · exact .refl _
    · cases hok
  · obtain ⟨_, rfl, _⟩ | ⟨_, _, hok, _⟩ := handleUnsubscribeReq_spec h
    · exact .refl _
    · cases hok
  · obtain ⟨_, rfl, _⟩ | ⟨_, _, _, _, _, hok, _⟩ := handlePostReq_spec h
    · exact .refl _
    · cases hok
  · rw [handleReplyReq_rejected h]
    exact .refl d
  · exact handleDeclareMethod_rejected h
  · exact handleRemoveMethod_rejected h
  · exact handleCallReq_rejected h (hcall hcmd)
  · obtain ⟨ws, hws, _⟩ := handlePingReq_spec h
    exact hws.sameMaps

/-- The index into `msg_handlers`, if the message gets that far. -/
def handlerIndex (d : Dispatcher) (caps : Caps) (sender : AdapterId) : Option Int :=
  if isMonitor sender d = some false then
    caps.readWord.bind fun (cmd, _) => if cmd.toInt ≥ msgHandlerCount then none else some cmd.toInt
  else none

/-- The sender is closed without a handler being called, or the handler returns false. -/
def rejects (e : Env) (now : Nat) (caps : Caps) (sender : AdapterId) (d : Dispatcher) : Bool :=
  match isMonitor sender d with
  | none => false
  | some true => true
  | some false =>
    match caps.readWord with
    | none => true
    | some (cmd, rest) => cmd.toInt ≥ msgHandlerCount ||
        (msgHandler e now cmd.toInt rest sender d).any fun r => !r.2

/-- Only a handler of the table is called, and a rejected message leaves the maps alone. -/
def Harmless (e : Env) (now done : Nat) (caps : Caps) (sender : AdapterId) (d : Dispatcher) : Prop :=
  (∀ i, handlerIndex d caps sender = some i → 0 ≤ i ∧ i < msgHandlerCount) ∧
  (rejects e now caps sender d = true → ∀ d', handleMsg e now done caps sender d = some d' →
    SameMaps d d')

/-- The command word is not negative, and a handler that does its work before it makes the
response has room for the response. -/
def CleanlyRejectable (e : Env) (caps : Caps) (sender : AdapterId) (d : Dispatcher) : Prop :=
  isMonitor sender d = some false → ∀ cmd rest, caps.readWord = some (cmd, rest) →
    0 ≤ cmd.toInt ∧ (cmd = cmdAuthReq → AuthFits e d sender rest) ∧
      (cmd = cmdCallReq → CallFits e d sender rest)

theorem sameMaps_of_rejects {now done : Nat} (hclean : CleanlyRejectable e caps sender d)
    (hrej : rejects e now caps sender d = true)
    (h : handleMsg e now done caps sender d = some d') : SameMaps d d' := by
  have hclose : SameMaps d (d.close sender) := .setAdapter d sender _
  unfold handleMsg at h
  obtain ⟨monitor, hmon, h⟩ := Option.bind_eq_some_iff.mp h
  cases monitor with
  | true =>
    cases h
    exact hclose
  | false =>
    rw [if_neg Bool.false_ne_true] at h
    split at h
    · cases h
      exact hclose
    · rename_i cmd rest hread
      obtain ⟨_, hauth, hcall⟩ := hclean hmon cmd rest hread
      split at h
      · cases h
        exact hclose
      · rename_i hlt
        obtain ⟨⟨d₁, ok⟩, hh, rfl⟩ := Option.map_eq_some_iff.mp h
        have hok : ok = false := by
          simpa [rejects, hmon, hread, hlt, hh] using hrej
        subst hok
        have hsame := msgHandler_rejected hh (fun hcmd => hauth (BitVec.eq_of_toInt_eq hcmd))
          fun hcmd => hcall (BitVec.eq_of_toInt_eq hcmd)
        have hclosed := hsame.trans (.setAdapter d₁ sender { d₁.adapters sender with closed := true })
        exact ⟨hclosed.subscriptions, hclosed.persistMsgs, hclosed.namedAdapters,
          hclosed.adapterInfos, hclosed.monitors, hclosed.pendingCalls⟩

theorem rejects_of_handler {now : Nat} {cmd : Word} {rest : Caps} (done : Nat)
    (hmon : isMonitor sender d = some false) (hread : caps.readWord = some (cmd, rest))
    (hlt : ¬ cmd.toInt ≥ msgHandlerCount)
    (hh : msgHandler e now cmd.toInt rest sender d = some (d', false)) :
    rejects e now caps sender d = true ∧ handleMsg e now done caps sender d =
      some { d'.close sender with handleCmdTp := done } := by
  constructor
  · simp [rejects, hmon, hread, hlt, hh]
  · simp [handleMsg, hmon, hread, hlt, hh]

theorem cleanlyRejectable_of_harmless {now done : Nat} (h : Harmless e now done caps sender d) :
    CleanlyRejectable e caps sender d := by
  intro hmon cmd rest hread
  refine ⟨?_, ?_, ?_⟩
  · by_cases hge : cmd.toInt ≥ msgHandlerCount
    · exact Int.le_trans (by decide) hge
    · refine (h.1 cmd.toInt ?_).1
      rw [handlerIndex, if_pos hmon, hread]
      exact if_neg hge
  · rintro rfl req hparse hreg
    by_contra hfits
    have hhandler : msgHandler e now cmdAuthReq.toInt rest sender d =
        some ((authenticate e req sender d).1, false) :=
      handleAuthReq_of_not_fits hparse hreg hfits
    obtain ⟨hrej, hmsg⟩ := rejects_of_handler done hmon hread (by decide) hhandler
    have hsame := h.2 hrej _ hmsg
    have hmaps := authenticate_maps e req sender d
    rw [if_pos hreg] at hmaps
    exact hmaps.2 ⟨hsame.subscriptions, hsame.persistMsgs, hsame.namedAdapters,
      hsame.adapterInfos, hsame.monitors, hsame.pendingCalls⟩
  · rintro rfl req info target hparse hderef hfound
    by_contra hfits
    have hhandler : msgHandler e now cmdCallReq.toInt rest sender d =
        some (enterCall now sender target req d, false) :=
      (handleCallReq_of_found e now hparse hderef hfound).trans (if_neg hfits)
    obtain ⟨hrej, hmsg⟩ := rejects_of_handler done hmon hread (by decide) hhandler
    have hpending := congrArg List.length (h.2 hrej _ hmsg).pendingCalls
    have hlonger : (enterCall now sender target req d).pendingCalls.length =
        d.pendingCalls.length + 1 := length_insertPendingCall _ _
    have hkept : (enterCall now sender target req d).pendingCalls.length = d.pendingCalls.length :=
      hpending
    omega

/-- A message is harmless when it is rejected, exactly when its command word is not negative and
the responses that are made last have room. -/
theorem harmless_iff (e : Env) (now done : Nat) (caps : Caps) (sender : AdapterId)
    (d : Dispatcher) : Harmless e now done caps sender d ↔ CleanlyRejectable e caps sender d := by
  constructor
  · exact cleanlyRejectable_of_harmless
  · intro hclean
    refine ⟨fun i hi => ?_, fun hrej d' h => sameMaps_of_rejects hclean hrej h⟩
    unfold handlerIndex at hi
    split at hi
    · rename_i hmon
      obtain ⟨⟨cmd, rest⟩, hread, hi⟩ := Option.bind_eq_some_iff.mp hi
      dsimp only at hi
      split at hi
      · cases hi
      · rename_i hlt
        cases hi
        exact ⟨(hclean hmon cmd rest hread).1, Int.lt_of_not_ge hlt⟩
    · cases hi

/-- A fresh connection sends the command word -1, which is looked up in front of the table. -/
theorem negative_command_not_harmless : (system sampleEnv).Reachable {} ∧
    handlerIndex {} [.i32 (-1)] 0 = some (-1) ∧ ¬ Harmless sampleEnv 0 0 [.i32 (-1)] 0 {} := by
  refine ⟨.start initial_default, rfl, fun h => ?_⟩
  have hindex := h.1 (-1) rfl
  exact absurd hindex.1 (by decide)

end Dispatcher

end Flora
