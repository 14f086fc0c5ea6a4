import Flora.Dispatcher.RegistryInvariant
import Flora.Dispatcher.Responses

/-! # Notices to monitors

The `CMD_MONITOR_RESP` messages of a step: the list of clients to a new monitor, and to every
monitor the item of a client that registers or the id of one that leaves. All other messages a step
writes are ordinary ones. -/

namespace Flora

open TransitionSystem

namespace Env

/-- What the service relies on in the container library: every member of a container takes room,
and the response to an auth request fits the smallest buffer. -/
structure Sized (e : Env) : Prop where
  members : ∀ order caps, caps.length ≤ e.capsSize order caps
  auth : ∀ order result, e.fits order (ResponseSerializer.serializeAuth result floraVersion) = true

end Env

namespace Dispatcher

variable {e : Env} {d d' : Dispatcher} {caps : Caps} {sender m : AdapterId} {ok : Bool}

/-- The clients as monitors are told of them. -/
def items (d : Dispatcher) : List MonitorListItem := d.adapterInfos.entries.map (·.2.item)

def isMonitorResp (caps : Caps) : Bool := caps.readWord.any fun (cmd, _) => cmd == cmdMonitorResp

/-- The monitor messages to `m` among some writes. -/
def noticesTo (m : AdapterId) (reqs : List WriteRequest) : List Caps :=
  (reqs.filter fun r => r.1 == m && isMonitorResp r.2.2.1).map (·.2.2.1)

theorem noticesTo_append (m : AdapterId) (reqs reqs' : List WriteRequest) :
    noticesTo m (reqs ++ reqs') = noticesTo m reqs ++ noticesTo m reqs' := by
  simp only [noticesTo, List.filter_append, List.map_append]

theorem noticesTo_ordinary {reqs : List WriteRequest}
    (h : ∀ r ∈ reqs, isMonitorResp r.2.2.1 = false) : noticesTo m reqs = [] := by
  rw [noticesTo, List.filter_eq_nil_iff.mpr, List.map_nil]
  intro r hr
  simp [h r hr]

theorem noticesTo_frame {a : AdapterId} {order : ByteOrder} (hcaps : isMonitorResp caps = true)
    (hfits : a = m → e.fits order caps = true) :
    noticesTo m (frame e a order caps none) = if a = m then [caps] else [] := by
  by_cases ha : a = m
  · rw [if_pos ha, frame_of_fits (hfits ha)]
    simp [noticesTo, ha, hcaps]
  · rw [if_neg ha, noticesTo, List.filter_eq_nil_iff.mpr, List.map_nil]
    intro r hr
    rw [mem_frame hr]
    simp [ha]

theorem noticesTo_monitorFrames (hcaps : isMonitorResp caps = true)
    (hfits : m ∈ d.monitors.keys → e.fits (d.adapters m).serializeFlags caps = true) :
    noticesTo m (monitorFrames e d caps) = if m ∈ d.monitors.keys then [caps] else [] := by
  have hnodup : d.monitors.keys.Nodup := d.monitors.nodupKeys
  unfold monitorFrames
  generalize d.monitors.keys = keys at hnodup hfits ⊢
  induction keys with
  | nil => rfl
  | cons a keys ih =>
    obtain ⟨ha, hnodup⟩ := List.nodup_cons.mp hnodup
    rw [List.flatMap_cons, noticesTo_append, noticesTo_frame hcaps fun heq => by
      subst heq
      exact hfits List.mem_cons_self]
    rw [ih hnodup fun hm => hfits (List.mem_cons_of_mem a hm)]
    by_cases heq : a = m
    · subst heq
      rw [if_pos rfl, if_neg ha, if_pos List.mem_cons_self]
      rfl
    · rw [if_neg heq]
      have hiff : m ∈ a :: keys ↔ m ∈ keys := by simp [Ne.symm heq]
      simp only [hiff, List.nil_append]

/-- The notices of a successful auth request. -/
def authNotices (e : Env) (d : Dispatcher) (m : AdapterId) (req : AuthReq) (sender : AdapterId) :
    List Caps :=
  let d' := (authenticate e req sender d).1
  if (authenticate e req sender d).2 = cliSuccess then
    if hasMonitorFlag req.flags then
      if sender = m then [ResponseSerializer.serializeMonitorListAll d'.items] else []
    else if m ∈ d'.monitors.keys then
      (d'.deref sender).toList.map fun info => ResponseSerializer.serializeMonitorListAdd info.item
    else []
  else []

/-- The notice of an erase command. -/
def eraseNotices (d : Dispatcher) (m : AdapterId) (sender : AdapterId) : List Caps :=
  match d.deref sender with
  | none => []
  | some info =>
    if hasMonitorFlag info.flags then []
    else if m ∈ d.monitors.keys then [ResponseSerializer.serializeMonitorListRemove info.id] else []

/-- What a step has to tell the monitor `m`. -/
def notices (e : Env) (d : Dispatcher) (m : AdapterId) : Action → List Caps
  | .msg caps sender _ _ =>
    (d.handledAuth caps sender).elim [] fun req => authNotices e d m req sender
  | .erase sender _ => eraseNotices d m sender
  | _ => []

theorem writeMonitorLists_notices {flags : Word} (h : writeMonitorLists e flags sender d = some d')
    (hfits : ∀ c ∈ (if hasMonitorFlag flags then
        if sender = m then [ResponseSerializer.serializeMonitorListAll d.items] else []
      else if m ∈ d.monitors.keys then
        (d.deref sender).toList.map fun info => ResponseSerializer.serializeMonitorListAdd info.item
      else []), e.fits (d.adapters m).serializeFlags c = true) :
    ∃ ws, Writes d ws d' ∧ noticesTo m (ws.map Write.request) = if hasMonitorFlag flags then
        if sender = m then [ResponseSerializer.serializeMonitorListAll d.items] else []
      else if m ∈ d.monitors.keys then
        (d.deref sender).toList.map fun info => ResponseSerializer.serializeMonitorListAdd info.item
      else [] := by
  obtain ⟨d₁, hdata, h⟩ := Option.bind_eq_some_iff.mp h
  obtain ⟨ws, hws, hreq⟩ := writeMonitorData_spec hdata
  by_cases hflag : hasMonitorFlag flags = true
  · simp only [hflag, if_true] at h hreq hfits ⊢
    cases h
    refine ⟨ws, hws, ?_⟩
    rw [hreq]
    refine noticesTo_frame rfl fun heq => ?_
    subst heq
    rw [if_pos rfl] at hfits
    exact hfits _ (List.mem_singleton_self _)
  · simp only [hflag, Bool.false_eq_true, if_false] at h hreq hfits ⊢
    obtain ⟨us, hus, hlist⟩ := writeMonitorListAdd_spec h
    rw [List.map_eq_nil_iff] at hreq
    subst hreq
    refine ⟨us, hws.trans hus, ?_⟩
    rw [hws.monitors, hws.deref] at hlist
    obtain ⟨hempty, rfl⟩ | ⟨info, hderef, hreq⟩ := hlist
    · rw [hempty]
      rfl
    · have hframes : monitorFrames e d₁ (ResponseSerializer.serializeMonitorListAdd info.item) =
          monitorFrames e d (ResponseSerializer.serializeMonitorListAdd info.item) := by
        simp only [monitorFrames, hws.monitors, hws.serializeFlags]
      rw [hreq, hframes, hderef]
      refine noticesTo_monitorFrames rfl fun hm => ?_
      rw [if_pos hm, hderef] at hfits
      exact hfits _ (List.mem_singleton_self _)

theorem handleAuthReq_notices {req : AuthReq} (hsize : e.Sized)
    (hparse : RequestParser.parseAuth caps = some req)
    (h : handleAuthReq e caps sender d = some (d', ok))
    (hfits : ∀ c ∈ authNotices e d m req sender, e.fits (d.adapters m).serializeFlags c = true) :
    ∃ ws, Writes (authenticate e req sender d).1 ws d' ∧
      noticesTo m (ws.map Write.request) = authNotices e d m req sender := by
  simp only [handleAuthReq, hparse] at h
  rw [if_pos (hsize.auth _ _)] at h
  have hw := write_writes e (authenticate e req sender d).1 sender
    ((authenticate e req sender d).1.adapters sender).serializeFlags
    (ResponseSerializer.serializeAuth (authenticate e req sender d).2 floraVersion) none
  have horder := (registryOnly_authenticate e req sender d).serializeFlags m
  unfold authNotices at hfits ⊢
  split at h
  · rename_i hres
    rw [if_pos hres] at hfits ⊢
    obtain ⟨d₂, hlists, heq⟩ := Option.map_eq_some_iff.mp h
    cases heq
    obtain ⟨ws, hws, hnotices⟩ := writeMonitorLists_notices hlists (m := m) (by
      rw [hw.serializeFlags, horder]
      simp only [hw.monitors, hw.deref, items, hw.adapterInfos]
      exact hfits)
    refine ⟨_, hw.trans hws, ?_⟩
    rw [List.map_append, noticesTo_append, hnotices]
    simp only [hw.monitors, hw.deref, items, hw.adapterInfos]
    rw [noticesTo_ordinary (by simp [Write.request, isMonitorResp, ResponseSerializer.serializeAuth,
      cmdAuthResp, cmdMonitorResp])]
    rfl
  · rename_i hres
    cases h
    rw [if_neg hres]
    exact ⟨_, hw, noticesTo_ordinary (by simp [Write.request, isMonitorResp,
      ResponseSerializer.serializeAuth, cmdAuthResp, cmdMonitorResp])⟩

theorem doEraseAdapter_notices {now : Nat} (h : doEraseAdapter e now sender d = some d')
    (hfits : ∀ c ∈ eraseNotices d m sender, e.fits (d.adapters m).serializeFlags c = true) :
    ∃ ws, d'.out = d.out ++ ws ∧ noticesTo m (ws.map Write.request) = eraseNotices d m sender := by
  unfold doEraseAdapter at h
  split at h
  · rename_i hinfo
    have hderef : d.deref sender = none := by simp [deref, hinfo]
    cases h
    exact ⟨[], (List.append_nil _).symm, by rw [eraseNotices, hderef]; rfl⟩
  · obtain ⟨info, hderef, h⟩ := Option.bind_eq_some_iff.mp h
    have hname := registryOnly_eraseName info.name d
    have hmonitors : (eraseName info.name d).monitors = d.monitors := by
      unfold eraseName
      split <;> rfl
    simp only [eraseNotices, hderef] at hfits ⊢
    dsimp only at h
    split at h
    · rename_i hflag
      cases h
      refine ⟨[], ?_, by rw [if_pos hflag]; rfl⟩
      rw [checkSubscriptions_rest, List.append_nil]
      exact hname.out
    · rename_i hflag
      obtain ⟨d₁, hremove, heq⟩ := Option.map_eq_some_iff.mp h
      obtain ⟨ws, hws, hreq⟩ := writeMonitorListRemove_spec hremove
      rw [if_neg hflag] at hfits ⊢
      refine ⟨ws, ?_, ?_⟩
      · rw [← heq, checkSubscriptions_rest]
        exact hws.out.trans (by rw [hname.out])
      · rw [hreq, noticesTo_monitorFrames rfl fun hm => ?_, hmonitors]
        rw [hmonitors] at hm
        rw [if_pos hm] at hfits
        rw [hname.serializeFlags]
        exact hfits _ (List.mem_singleton_self _)

theorem Responds.ordinary {cmds : List Word} (h : Responds cmds d d') (hne : cmdMonitorResp ∉ cmds) :
    ∃ ws, d'.out = d.out ++ ws ∧ ∀ r ∈ ws.map Write.request, isMonitorResp r.2.2.1 = false := by
  obtain ⟨ws, hout, hws⟩ := h
  refine ⟨ws, hout, fun r hr => ?_⟩
  obtain ⟨w, hw, rfl⟩ := List.mem_map.mp hr
  obtain ⟨cmd, hmem, hcommand⟩ := hws w hw
  obtain ⟨p, hread, rfl⟩ := Option.map_eq_some_iff.mp hcommand
  have hother : p.1 ≠ cmdMonitorResp := fun heq => hne (heq ▸ hmem)
  change isMonitorResp w.caps = false
  rw [isMonitorResp, hread, Option.any_some]
  exact beq_eq_false_iff_ne.mpr hother

/-- The handlers of all other requests write ordinary messages only. -/
theorem msgHandler_ordinary {now : Nat} {cmd : Int} (hcmd : cmd ≠ 0)
    (h : msgHandler e now cmd caps sender d = some (d', ok)) :
    ∃ ws, d'.out = d.out ++ ws ∧ ∀ r ∈ ws.map Write.request, isMonitorResp r.2.2.1 = false := by
  refine (msgHandler_responds h).ordinary ?_
  rw [responses, if_neg hcmd]
  split_ifs <;> decide

/-- A step tells the monitor `m` what `notices` says, in order, and nothing else. -/
theorem step_notices {act : Action} (hsize : e.Sized) (h : step e d act = some d')
    (hfits : ∀ c ∈ notices e d m act, e.fits (d.adapters m).serializeFlags c = true) :
    ∃ ws, d'.out = d.out ++ ws ∧ noticesTo m (ws.map Write.request) = notices e d m act := by
  cases act with
  | msg caps sender now done =>
    obtain ⟨rfl, hnone⟩ | ⟨cmd, rest, d₁, ok, hreq, hh, rfl⟩ := handleMsg_request (step_msg h).2
    · refine ⟨[], (List.append_nil _).symm, ?_⟩
      simp only [notices, handledAuth, hnone cmdAuthReq (by decide)]
      rfl
    · have hout : ({ (if ok then d₁ else d₁.close sender) with handleCmdTp := done } :
          Dispatcher).out = d₁.out := by cases ok <;> rfl
      rw [hout]
      by_cases hcmd : cmd = cmdAuthReq
      · subst hcmd
        have hauth : handleAuthReq e rest sender d = some (d₁, ok) := hh
        have hhandled : d.handledAuth caps sender = RequestParser.parseAuth rest := by
          rw [handledAuth, hreq]
          rfl
        simp only [notices, hhandled] at hfits ⊢
        cases hparse : RequestParser.parseAuth rest with
        | none =>
          simp only [handleAuthReq, hparse] at hauth
          cases hauth
          exact ⟨[], (List.append_nil _).symm, rfl⟩
        | some req =>
          rw [hparse] at hfits
          obtain ⟨ws, hws, hnotices⟩ := handleAuthReq_notices hsize hparse hauth hfits
          exact ⟨ws, hws.out.trans (by rw [(registryOnly_authenticate e req sender d).out]), hnotices⟩
      · obtain ⟨ws, hws, hordinary⟩ :=
          msgHandler_ordinary (fun hzero => hcmd (BitVec.eq_of_toInt_eq hzero)) hh
        refine ⟨ws, hws, (noticesTo_ordinary hordinary).trans ?_⟩
        simp only [notices, handledAuth, request_unique hreq (Ne.symm hcmd)]
        rfl
  | erase sender now => exact doEraseAdapter_notices (step_erase h).2 hfits
  | expire tp =>
    obtain ⟨ws, hout, hordinary⟩ := (responds_discardPendingCalls h).ordinary (by decide)
    exact ⟨ws, hout, noticesTo_ordinary hordinary⟩
  | close a =>
    cases h
    exact ⟨[], (List.append_nil _).symm, rfl⟩
  | destroy a =>
    obtain ⟨_, _, rfl⟩ := step_destroy h
    exact ⟨[], (List.append_nil _).symm, rfl⟩

theorem mem_monitors_iff : m ∈ d.monitors.keys ↔ d.registry.monitors m ≠ none := by
  rw [← AList.mem_keys, ← AList.lookup_isSome, Option.isSome_iff_ne_none]
  exact (not_congr Option.map_eq_none_iff).symm

theorem items_perm (h : d'.registry.clients = d.registry.clients) : d'.items.Perm d.items :=
  AssocMap.values_perm AdapterInfo.item fun a => congrFun h a

theorem items_perm_cons {item : MonitorListItem} (hnew : d.registry.clients sender = none)
    (h : d'.registry.clients = Function.update d.registry.clients sender (some item)) :
    d'.items.Perm (item :: d.items) := by
  apply AssocMap.values_perm_cons AdapterInfo.item (Option.map_eq_none_iff.mp hnew)
  intro a
  have ha : (d'.adapterInfos.lookup a).map AdapterInfo.item =
      Function.update d.registry.clients sender (some item) a := congrFun h a
  rw [ha, Function.update_apply]
  rfl

end Dispatcher

end Flora
