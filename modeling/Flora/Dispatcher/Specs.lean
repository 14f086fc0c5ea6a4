import Flora.Dispatcher.Frame

/-! # One specification per handler

Each lemma inverts a defined handler result into the map updates it made and the writes that
followed. Later modules use these and never unfold a handler. -/

namespace Flora

namespace Dispatcher

variable {e : Env} {d d' : Dispatcher} {caps : Caps} {sender : AdapterId} {ok : Bool}

namespace Writes

variable {ws : List Write}

-- A map update commutes with the writes around it.

theorem setSubscriptions (h : Writes d ws d') (m : NameMap (List AdapterId)) :
    Writes { d with subscriptions := m } ws { d' with subscriptions := m } :=
  ⟨by rw [h.rest], h.adapter, h.closed_iff⟩

theorem setPendingCalls (h : Writes d ws d') (l : List PendingCall) :
    Writes { d with pendingCalls := l } ws { d' with pendingCalls := l } :=
  ⟨by rw [h.rest], h.adapter, h.closed_iff⟩

end Writes

/-- The write of one frame, if it fits. -/
def frame (e : Env) (a : AdapterId) (order : ByteOrder) (caps : Caps) (answers : Option Answer) :
    List WriteRequest :=
  if e.fits order caps then [(a, order, caps, answers)] else []

theorem frame_of_fits {a : AdapterId} {order : ByteOrder} {answers : Option Answer}
    (h : e.fits order caps = true) : frame e a order caps answers = [(a, order, caps, answers)] :=
  if_pos h

theorem frame_of_not_fits {a : AdapterId} {order : ByteOrder} {answers : Option Answer}
    (h : ¬ e.fits order caps = true) : frame e a order caps answers = [] := if_neg h

theorem mem_frame {a : AdapterId} {order : ByteOrder} {answers : Option Answer}
    {r : WriteRequest} (h : r ∈ frame e a order caps answers) :
    r = (a, order, caps, answers) := by
  unfold frame at h
  split at h
  · simpa using h
  · cases h

/-- What every monitor of `d` is sent by a list notification. -/
def monitorFrames (e : Env) (d : Dispatcher) (caps : Caps) :
    List WriteRequest :=
  d.monitors.keys.flatMap fun m => frame e m (d.adapters m).serializeFlags caps none

/-- The frame is a `CMD_REPLY_RESP`, or a `CMD_CALL_RESP`. -/
def isReplyResp (caps : Caps) : Bool := caps.readWord.any fun (cmd, _) => cmd == cmdReplyResp
def isCallResp (caps : Caps) : Bool := caps.readWord.any fun (cmd, _) => cmd == cmdCallResp

/-- None of the writes answers a call or forwards one. -/
def NoAnswers (ws : List Write) : Prop :=
  ∀ w ∈ ws, w.answers = none ∧ isReplyResp w.caps = false ∧ isCallResp w.caps = false

namespace NoAnswers

theorem nil : NoAnswers [] := fun _ hw => by cases hw

theorem single {w : Write} (h : w.answers = none) (hreply : isReplyResp w.caps = false)
    (hcall : isCallResp w.caps = false) : NoAnswers [w] := by
  intro v hv
  rw [List.mem_singleton.mp hv]
  exact ⟨h, hreply, hcall⟩

theorem append {ws us : List Write} (h : NoAnswers ws) (h' : NoAnswers us) :
    NoAnswers (ws ++ us) := by
  intro w hw
  obtain hw | hw := List.mem_append.mp hw
  · exact h w hw
  · exact h' w hw

end NoAnswers

theorem noAnswers_of_requests {ws : List Write}
    {reqs : List WriteRequest}
    (h : ws.map Write.request = reqs)
    (hreqs : ∀ r ∈ reqs, r.2.2.2 = none ∧ isReplyResp r.2.2.1 = false ∧
      isCallResp r.2.2.1 = false) : NoAnswers ws := by
  intro w hw
  exact hreqs w.request (h ▸ List.mem_map_of_mem hw)

theorem frame_answers {a : AdapterId} {order : ByteOrder} (hreply : isReplyResp caps = false)
    (hcall : isCallResp caps = false) : ∀ r ∈ frame e a order caps none,
      r.2.2.2 = none ∧ isReplyResp r.2.2.1 = false ∧ isCallResp r.2.2.1 = false := by
  intro r hr
  rw [mem_frame hr]
  exact ⟨rfl, hreply, hcall⟩

theorem monitorFrames_answers (hreply : isReplyResp caps = false) (hcall : isCallResp caps = false) :
    ∀ r ∈ monitorFrames e d caps,
      r.2.2.2 = none ∧ isReplyResp r.2.2.1 = false ∧ isCallResp r.2.2.1 = false := by
  intro r hr
  obtain ⟨m, _, hr⟩ := List.mem_flatMap.mp hr
  exact frame_answers hreply hcall r hr

/-- The name of a request the handler goes on with. -/
def requestedName (parse : Caps → Option String) (caps : Caps) (sender : AdapterId)
    (d : Dispatcher) : Option String :=
  if (d.adapters sender).info = none then none
  else (parse caps).bind fun name => if name.length = 0 then none else some name

theorem writeMonitorListAddTo_spec {item : MonitorListItem} {m : AdapterId}
    (h : writeMonitorListAddTo e item d m = some d') :
    ∃ ws, Writes d ws d' ∧ ws.map Write.request = frame e m (d.adapters m).serializeFlags
      (ResponseSerializer.serializeMonitorListAdd item) none := by
  simp only [writeMonitorListAddTo] at h
  split at h
  · cases h
  · split at h
    · rename_i hfits
      obtain ⟨_, _, rfl⟩ := Option.map_eq_some_iff.mp h
      exact ⟨_, write_writes .., (frame_of_fits hfits).symm⟩
    · rename_i hfits
      cases h
      exact ⟨[], .refl _, (frame_of_not_fits hfits).symm⟩

theorem writeMonitorListRemoveTo_spec {id : Word} {m : AdapterId}
    (h : writeMonitorListRemoveTo e id d m = some d') :
    ∃ ws, Writes d ws d' ∧ ws.map Write.request = frame e m (d.adapters m).serializeFlags
      (ResponseSerializer.serializeMonitorListRemove id) none := by
  simp only [writeMonitorListRemoveTo] at h
  split at h
  · cases h
  · split at h
    · rename_i hfits
      obtain ⟨_, _, rfl⟩ := Option.map_eq_some_iff.mp h
      exact ⟨_, write_writes .., (frame_of_fits hfits).symm⟩
    · rename_i hfits
      cases h
      exact ⟨[], .refl _, (frame_of_not_fits hfits).symm⟩

theorem writeMonitorListAdd_spec (h : writeMonitorListAdd e sender d = some d') :
    ∃ ws, Writes d ws d' ∧ (d.monitors.keys = [] ∧ ws = [] ∨ ∃ info, d.deref sender = some info ∧
      ws.map Write.request =
        monitorFrames e d (ResponseSerializer.serializeMonitorListAdd info.item)) := by
  unfold writeMonitorListAdd at h
  split at h
  · rename_i hempty
    cases h
    exact ⟨[], .refl _, .inl ⟨hempty, rfl⟩⟩
  · obtain ⟨info, hinfo, h⟩ := Option.bind_eq_some_iff.mp h
    have hloop : ∀ m ∈ d.monitors.keys, ∀ x x', (∃ ws, Writes d ws x) →
        writeMonitorListAddTo e info.item x m = some x' →
        ∃ ws, Writes x ws x' ∧ ws.map Write.request = frame e m (d.adapters m).serializeFlags
          (ResponseSerializer.serializeMonitorListAdd info.item) none := by
      rintro m _ x x' ⟨us, hus⟩ hx
      rw [← hus.serializeFlags]
      exact writeMonitorListAddTo_spec hx
    obtain ⟨ws, hws, hreq⟩ := foldlM_writes hloop h
    exact ⟨ws, hws, .inr ⟨info, hinfo, hreq⟩⟩

theorem writeMonitorListRemove_spec {id : Word} (h : writeMonitorListRemove e id d = some d') :
    ∃ ws, Writes d ws d' ∧ ws.map Write.request =
      monitorFrames e d (ResponseSerializer.serializeMonitorListRemove id) := by
  apply foldlM_writes (f := writeMonitorListRemoveTo e id) _ h
  rintro m _ x x' ⟨us, hus⟩ hx
  rw [← hus.serializeFlags]
  exact writeMonitorListRemoveTo_spec hx

theorem writeMonitorData_spec {flags : Word} (h : writeMonitorData e flags sender d = some d') :
    ∃ ws, Writes d ws d' ∧ ws.map Write.request = if hasMonitorFlag flags then
      frame e sender (d.adapters sender).serializeFlags
        (ResponseSerializer.serializeMonitorListAll (d.adapterInfos.entries.map (·.2.item))) none
      else [] := by
  unfold writeMonitorData at h
  split at h
  · rename_i hflag
    rw [if_pos hflag]
    simp only [writeMonitorList] at h
    split at h
    · rename_i hfits
      obtain ⟨_, _, rfl⟩ := Option.map_eq_some_iff.mp h
      exact ⟨_, write_writes .., (frame_of_fits hfits).symm⟩
    · rename_i hfits
      cases h
      exact ⟨[], .refl _, (frame_of_not_fits hfits).symm⟩
  · rename_i hflag
    rw [if_neg hflag]
    cases h
    exact ⟨[], .refl _, rfl⟩

theorem writeMonitorLists_spec {flags : Word} (h : writeMonitorLists e flags sender d = some d') :
    ∃ ws, Writes d ws d' ∧ NoAnswers ws := by
  obtain ⟨d₁, hdata, h⟩ := Option.bind_eq_some_iff.mp h
  obtain ⟨ws, hws, hreq⟩ := writeMonitorData_spec hdata
  have hnone : NoAnswers ws := by
    apply noAnswers_of_requests hreq
    split
    · exact frame_answers rfl rfl
    · exact fun r hr => by cases hr
  split at h
  · cases h
    exact ⟨ws, hws, hnone⟩
  · obtain ⟨us, hus, hlist⟩ := writeMonitorListAdd_spec h
    refine ⟨ws ++ us, hws.trans hus, hnone.append ?_⟩
    obtain ⟨_, rfl⟩ | ⟨info, _, hreq⟩ := hlist
    · exact NoAnswers.nil
    · exact noAnswers_of_requests hreq (monitorFrames_answers rfl rfl)

/-- An auth request that parses registers its sender as `authenticate` says and then only writes,
nothing of it an answer to a call. -/
theorem handleAuthReq_spec (h : handleAuthReq e caps sender d = some (d', ok)) :
    (RequestParser.parseAuth caps = none ∧ d' = d ∧ ok = false) ∨
    ∃ req ws, RequestParser.parseAuth caps = some req ∧
      Writes (authenticate e req sender d).1 ws d' ∧ NoAnswers ws ∧
      (ok = true → (authenticate e req sender d).2 = cliSuccess) := by
  simp only [handleAuthReq] at h
  split at h
  · rename_i hparse
    cases h
    exact .inl ⟨hparse, rfl, rfl⟩
  · rename_i req hparse
    refine .inr ⟨req, ?_⟩
    split at h
    · have hw := write_writes e (authenticate e req sender d).1 sender
        ((authenticate e req sender d).1.adapters sender).serializeFlags
        (ResponseSerializer.serializeAuth (authenticate e req sender d).2 floraVersion) none
      split at h
      · rename_i hres
        obtain ⟨d₂, hlists, heq⟩ := Option.map_eq_some_iff.mp h
        cases heq
        obtain ⟨ws, hws, hnone⟩ := writeMonitorLists_spec hlists
        exact ⟨_, hparse, hw.trans hws, (NoAnswers.single rfl rfl rfl).append hnone, fun _ => hres⟩
      · cases h
        exact ⟨_, hparse, hw, NoAnswers.single rfl rfl rfl, nofun⟩
    · cases h
      exact ⟨[], hparse, .refl _, NoAnswers.nil, nofun⟩

theorem nameRequest_spec {parse : Caps → Option String}
    {body : String → AdapterInfo → Option (Dispatcher × Bool)}
    (h : nameRequest parse body caps sender d = some (d', ok)) :
    (requestedName parse caps sender d = none ∧ d' = d ∧ ok = false) ∨
    ∃ name info, requestedName parse caps sender d = some name ∧ d.deref sender = some info ∧
      body name info = some (d', ok) := by
  unfold nameRequest at h
  split at h
  · rename_i hinfo
    cases h
    exact .inl ⟨by simp [requestedName, hinfo], rfl, rfl⟩
  · rename_i hinfo
    split at h
    · rename_i hparse
      cases h
      exact .inl ⟨by simp [requestedName, hinfo, hparse], rfl, rfl⟩
    · rename_i name hparse
      obtain ⟨info, hderef, h⟩ := Option.bind_eq_some_iff.mp h
      split at h
      · rename_i hlen
        cases h
        exact .inl ⟨by rw [requestedName, if_neg hinfo, hparse]; exact if_pos hlen, rfl, rfl⟩
      · rename_i hlen
        refine .inr ⟨name, info, ?_, hderef, h⟩
        rw [requestedName, if_neg hinfo, hparse]
        exact if_neg hlen

theorem handleSubscribeReq_spec (h : handleSubscribeReq e caps sender d = some (d', ok)) :
    (requestedName RequestParser.parseSubscribe caps sender d = none ∧ d' = d ∧ ok = false) ∨
    ∃ name, requestedName RequestParser.parseSubscribe caps sender d = some name ∧ ok = true ∧
      (((d.subscriptions.lookup name).getD []).any (fun a => d.alive a && a == sender) = true ∧
          d' = d ∨
        ((d.subscriptions.lookup name).getD []).any (fun a => d.alive a && a == sender) = false ∧
          ∃ ws, Writes (addSubscription name sender d) ws d' ∧ ws.map Write.request =
            (d.persistMsgs.lookup name).elim [] fun data =>
              frame e sender (d.adapters sender).serializeFlags
                (ResponseSerializer.serializePost name msgtypePersist data 0 "") none) := by
  obtain hrej | ⟨name, info, hname, -, h⟩ := nameRequest_spec h
  · exact .inl hrej
  · refine .inr ⟨name, hname, ?_⟩
    split at h
    · rename_i hany
      cases h
      exact ⟨rfl, .inl ⟨hany, rfl⟩⟩
    · rename_i hany
      obtain ⟨d₁, hreplay, heq⟩ := Option.map_eq_some_iff.mp h
      cases heq
      refine ⟨rfl, .inr ⟨Bool.eq_false_iff.mpr hany, ?_⟩⟩
      unfold replayPersist at hreplay
      split at hreplay
      · rename_i hnone
        cases hreplay
        have hnone : d.persistMsgs.lookup name = none := hnone
        exact ⟨[], .refl _, by rw [hnone]; rfl⟩
      · rename_i data hdata
        have hdata : d.persistMsgs.lookup name = some data := hdata
        rw [hdata]
        dsimp only at hreplay
        split at hreplay
        · rename_i hfits
          obtain ⟨r, hw⟩ := writeLogged_writes hreplay
          have hfits : e.fits (d.adapters sender).serializeFlags _ = true := hfits
          exact ⟨_, hw, (frame_of_fits hfits).symm⟩
        · rename_i hfits
          cases hreplay
          have hfits : ¬ e.fits (d.adapters sender).serializeFlags _ = true := hfits
          exact ⟨[], .refl _, (frame_of_not_fits hfits).symm⟩

theorem handleUnsubscribeReq_spec (h : handleUnsubscribeReq caps sender d = some (d', ok)) :
    (requestedName RequestParser.parseUnsubscribe caps sender d = none ∧ d' = d ∧ ok = false) ∨
    ∃ name, requestedName RequestParser.parseUnsubscribe caps sender d = some name ∧ ok = true ∧
      (d.subscriptions.lookup name = none ∧ d' = d ∨
        ∃ adapters, d.subscriptions.lookup name = some adapters ∧ d' =
          setSubscribers name (adapters.filter fun a => d.alive a && a != sender) d) := by
  obtain hrej | ⟨name, info, hname, -, h⟩ := nameRequest_spec h
  · exact .inl hrej
  · refine .inr ⟨name, hname, ?_⟩
    split at h
    · rename_i hnone
      cases h
      exact ⟨rfl, .inl ⟨hnone, rfl⟩⟩
    · rename_i adapters hsome
      cases h
      exact ⟨rfl, .inr ⟨adapters, hsome, rfl⟩⟩

theorem handleDeclareMethod_spec (h : handleDeclareMethod caps sender d = some (d', ok)) :
    d' = d ∨ ∃ info methods, d.deref sender = some info ∧
      d' = d.setInfo sender { info with declaredMethods := methods } := by
  obtain ⟨-, rfl, -⟩ | ⟨name, info, -, hderef, h⟩ := nameRequest_spec h
  · exact .inl rfl
  · cases h
    refine .inr ⟨info, (info.declareMethod name).1.declaredMethods, hderef, ?_⟩
    unfold AdapterInfo.declareMethod
    split <;> rfl

theorem handleRemoveMethod_spec (h : handleRemoveMethod caps sender d = some (d', ok)) :
    d' = d ∨ ∃ info methods, d.deref sender = some info ∧
      d' = d.setInfo sender { info with declaredMethods := methods } := by
  obtain ⟨-, rfl, -⟩ | ⟨name, info, -, hderef, h⟩ := nameRequest_spec h
  · exact .inl rfl
  · cases h
    exact .inr ⟨info, (info.removeMethod name).declaredMethods, hderef, rfl⟩

theorem writePostMsgTo_spec {order : ByteOrder} {a : AdapterId} (ha : d.alive a = true)
    (h : writePostMsgTo e order caps d a = some d') :
    ∃ ws, Writes d ws d' ∧ ws.map Write.request = [(a, order, caps, none)] := by
  rw [writePostMsgTo, if_pos ha] at h
  obtain ⟨_, _, h⟩ := Option.bind_eq_some_iff.mp h
  obtain ⟨r, hw⟩ := writeLogged_writes h
  exact ⟨_, hw, rfl⟩

theorem writePostMsgToAdapters_spec {order : ByteOrder} {adapters : List AdapterId}
    (ha : ∀ a ∈ adapters, d.alive a = true)
    (h : writePostMsgToAdapters e order caps adapters d = some d') :
    ∃ ws, Writes d ws d' ∧
      ws.map Write.request = adapters.flatMap fun a => frame e a order caps none := by
  unfold writePostMsgToAdapters at h
  split at h
  · rename_i hfits
    apply foldlM_writes (f := writePostMsgTo e order caps) _ h
    rintro a hmem x x' ⟨us, hus⟩ hx
    rw [frame_of_fits hfits]
    apply writePostMsgTo_spec _ hx
    rw [alive, hus.destroyed]
    exact ha a hmem
  · rename_i hfits
    cases h
    refine ⟨[], .refl _, ?_⟩
    simp [frame_of_not_fits hfits]

/-- The live subscribers of a name, in the order of the list. -/
def subscribers (d : Dispatcher) (name : String) : List AdapterId :=
  ((d.subscriptions.lookup name).getD []).filter d.live

/-- What a post writes: the host-order subscribers first, then the network-order ones. -/
def postFrames (e : Env) (d : Dispatcher) (name : String) (caps : Caps) :
    List WriteRequest :=
  (((d.subscribers name).filter fun a => !((d.adapters a).serializeFlags == .net)).flatMap
      fun a => frame e a .host caps none) ++
    ((d.subscribers name).filter fun a => (d.adapters a).serializeFlags == .net).flatMap
      fun a => frame e a .net caps none

def purge (name : String) (d : Dispatcher) : Dispatcher :=
  match d.subscriptions.lookup name with
  | none => d
  | some _ => setSubscribers name (d.subscribers name) d

theorem purge_rest (name : String) (d : Dispatcher) :
    purge name d = { d with subscriptions := (purge name d).subscriptions } := by
  unfold purge
  split <;> rfl

theorem persistPost_rest (name : String) (type : Word) (args : CapsPtr) (d : Dispatcher) :
    persistPost name type args d =
      { d with persistMsgs := (persistPost name type args d).persistMsgs } := by
  unfold persistPost
  split <;> rfl

theorem alive_of_live {a : AdapterId} (h : d.live a = true) : d.alive a = true := by
  simp only [live, Bool.and_eq_true] at h
  exact h.1

theorem deliverPost_spec {name : String} (h : deliverPost e name caps d = some d') :
    ∃ ws, Writes (purge name d) ws d' ∧ ws.map Write.request = postFrames e d name caps := by
  unfold deliverPost at h
  split at h
  · rename_i hnone
    cases h
    refine ⟨[], ?_, ?_⟩
    · rw [purge, hnone]
      exact .refl _
    · simp [postFrames, subscribers, hnone]
  · rename_i adapters hsome
    have hsubs : adapters.filter d.live = d.subscribers name := by
      rw [subscribers, hsome]
      rfl
    dsimp only at h
    rw [hsubs] at h
    have halive : ∀ a ∈ d.subscribers name, d.alive a = true := fun a ha =>
      alive_of_live (List.mem_filter.mp ha).2
    obtain ⟨d₁, hhost, h⟩ := Option.bind_eq_some_iff.mp h
    obtain ⟨d₂, hnet, heq⟩ := Option.map_eq_some_iff.mp h
    obtain ⟨ws, hws, hreq⟩ :=
      writePostMsgToAdapters_spec (fun a ha => halive a (List.mem_filter.mp ha).1) hhost
    have halive' : ∀ a ∈ d.subscribers name, d₁.alive a = true := fun a ha => by
      rw [alive, hws.destroyed]
      exact halive a ha
    obtain ⟨us, hus, hreq'⟩ :=
      writePostMsgToAdapters_spec (fun a ha => halive' a (List.mem_filter.mp ha).1) hnet
    have hboth := hws.trans hus
    refine ⟨ws ++ us, ?_, by rw [List.map_append, hreq, hreq', postFrames]⟩
    subst heq
    rw [purge, hsome]
    simp only [setSubscribers, hboth.subscriptions]
    exact hboth.setSubscriptions _

/-- The post a `CMD_POST_REQ` makes when it is accepted: its request and the record of its
sender. -/
def acceptedPost (caps : Caps) (sender : AdapterId) (d : Dispatcher) :
    Option (PostReq × AdapterInfo) :=
  (RequestParser.parsePost caps).bind fun req =>
    if !isValidMsgtype req.msgtype then none
    else (d.deref sender).bind fun info => if req.name.length = 0 then none else some (req, info)

/-- The `CMD_POST_RESP` of an accepted post. -/
def postResp (sender : AdapterId) (d : Dispatcher) (req : PostReq) (info : AdapterInfo) : Caps :=
  ResponseSerializer.serializePost req.name req.msgtype req.args (d.adapters sender).tag info.name

theorem handlePostReq_spec (h : handlePostReq e caps sender d = some (d', ok)) :
    (acceptedPost caps sender d = none ∧ d' = d ∧ ok = false) ∨
    ∃ req info d₁ ws, acceptedPost caps sender d = some (req, info) ∧ ok = true ∧
      Writes (purge req.name d) ws d₁ ∧ d' = persistPost req.name req.msgtype req.args d₁ ∧
      ws.map Write.request = postFrames e d req.name (postResp sender d req info) := by
  unfold handlePostReq at h
  split at h
  · rename_i hinfo
    cases h
    refine .inl ⟨?_, rfl, rfl⟩
    have hderef : d.deref sender = none := by simp [deref, hinfo]
    unfold acceptedPost
    cases RequestParser.parsePost caps with
    | none => rfl
    | some req => simp [hderef]
  · split at h
    · rename_i hparse
      cases h
      exact .inl ⟨by rw [acceptedPost, hparse]; rfl, rfl, rfl⟩
    · rename_i req hparse
      unfold postMsg at h
      split at h
      · rename_i hvalid
        cases h
        exact .inl ⟨by rw [acceptedPost, hparse]; exact if_pos hvalid, rfl, rfl⟩
      · rename_i hvalid
        obtain ⟨info, hderef, h⟩ := Option.bind_eq_some_iff.mp h
        have hacc : acceptedPost caps sender d =
            if req.name.length = 0 then none else some (req, info) := by
          rw [acceptedPost, hparse]
          simp only [Option.bind_some, if_neg hvalid, hderef]
        split at h
        · rename_i hlen
          cases h
          exact .inl ⟨by rw [hacc, if_pos hlen], rfl, rfl⟩
        · rename_i hlen
          obtain ⟨d₁, hdeliver, heq⟩ := Option.map_eq_some_iff.mp h
          cases heq
          obtain ⟨ws, hws, hreq⟩ := deliverPost_spec hdeliver
          exact .inr ⟨req, info, d₁, ws, by rw [hacc, if_neg hlen], rfl, hws, rfl, hreq⟩

theorem named_of_findMethod {target : String} {name : String} {a : AdapterId}
    (h : findMethod target name d = some (some a)) : d.namedAdapters.lookup target = some a := by
  unfold findMethod at h
  split at h
  · cases h
  · rename_i b hname
    obtain ⟨info, -, hfound⟩ := Option.map_eq_some_iff.mp h
    split at hfound
    · cases hfound
      exact hname
    · cases hfound

theorem deref_of_findMethod {target : String} {name : String} {a : AdapterId}
    (h : findMethod target name d = some (some a)) : (d.deref a).isSome = true := by
  unfold findMethod at h
  split at h
  · cases h
  · obtain ⟨info, hderef, hif⟩ := Option.map_eq_some_iff.mp h
    split at hif
    · cases hif
      rw [hderef]
      rfl
    · cases hif

/-- The history after a call whose target or method does not exist. -/
def refuseCall (sender : AdapterId) (req : CallReq) (d : Dispatcher) : Dispatcher :=
  { d with calls := d.calls ++ [⟨sender, req, none⟩] }

/-- The state after a call is entered in `pending_calls`, before it is forwarded. -/
def enterCall (now : Nat) (sender target : AdapterId) (req : CallReq) (d : Dispatcher) :
    Dispatcher :=
  addPendingCall now (BitVec.ofNat 32 (d.reqseq + 1)) req.id sender target req.timeout
    d.calls.length { d with
      reqseq := d.reqseq + 1
      calls := d.calls ++ [⟨sender, req, some (BitVec.ofNat 32 (d.reqseq + 1), target)⟩] }

theorem handleCallReq_spec {now : Nat} (h : handleCallReq e now caps sender d = some (d', ok)) :
    (((d.adapters sender).info = none ∨ RequestParser.parseCall caps = none) ∧
      d' = d ∧ ok = false) ∨
    (∃ req ws, RequestParser.parseCall caps = some req ∧
      findMethod req.target req.name d = some none ∧ Writes (refuseCall sender req d) ws d' ∧
      ws.map Write.request = frame e sender (d.adapters sender).serializeFlags
        (ResponseSerializer.serializeReply req.id cliEnexists none 0) (some ⟨d.calls.length, .refused⟩)) ∨
    (∃ req info target ws, RequestParser.parseCall caps = some req ∧ d.deref sender = some info ∧
      findMethod req.target req.name d = some (some target) ∧
      Writes (enterCall now sender target req d) ws d' ∧
      ws.map Write.request = frame e target (d.adapters target).serializeFlags
        (ResponseSerializer.serializeCall req.name req.args (BitVec.ofNat 32 (d.reqseq + 1))
          (d.adapters sender).tag info.name) none ∧ (ok = true → ws ≠ [])) := by
  unfold handleCallReq at h
  split at h
  · rename_i hinfo
    cases h
    exact .inl ⟨.inl hinfo, rfl, rfl⟩
  · split at h
    · rename_i hparse
      cases h
      exact .inl ⟨.inr hparse, rfl, rfl⟩
    · rename_i req hparse
      obtain ⟨info, hderef, h⟩ := Option.bind_eq_some_iff.mp h
      obtain ⟨found, hfound, h⟩ := Option.bind_eq_some_iff.mp h
      cases found with
      | none =>
        refine .inr (.inl ⟨req, ?_⟩)
        dsimp only at h
        split at h
        · rename_i hfits
          obtain ⟨d₁, hlogged, heq⟩ := Option.map_eq_some_iff.mp h
          cases heq
          obtain ⟨r, hw⟩ := writeLogged_writes hlogged
          exact ⟨_, hparse, hfound, hw, (frame_of_fits hfits).symm⟩
        · rename_i hfits
          cases h
          exact ⟨[], hparse, hfound, .refl _, (frame_of_not_fits hfits).symm⟩
      | some target =>
        refine .inr (.inr ⟨req, info, target, ?_⟩)
        dsimp only at h
        split at h
        · rename_i hfits
          obtain ⟨d₁, hlogged, heq⟩ := Option.map_eq_some_iff.mp h
          cases heq
          obtain ⟨r, hw⟩ := writeLogged_writes hlogged
          exact ⟨_, hparse, hderef, hfound, hw, (frame_of_fits hfits).symm, fun _ => nofun⟩
        · rename_i hfits
          cases h
          exact ⟨[], hparse, hderef, hfound, .refl _, (frame_of_not_fits hfits).symm, nofun⟩

/-- The entry a reply of `sender` with this id belongs to. -/
def replies (id : Word) (sender : AdapterId) (pc : PendingCall) : Bool :=
  pc.svrid == id && pc.target == sender

theorem handleReplyReq_spec (h : handleReplyReq e caps sender d = some (d', ok)) :
    d' = d ∨ ∃ req info pc d₁ ws, RequestParser.parseReply caps = some req ∧
      d.deref sender = some info ∧ d.pendingCalls.find? (replies req.id sender) = some pc ∧
      (d.adapters pc.sender).closed = false ∧ Writes d ws d₁ ∧
      d' = { d₁ with pendingCalls := d.pendingCalls.eraseP (replies req.id sender) } ∧
      ws.map Write.request = [(pc.sender, (d.adapters pc.sender).serializeFlags,
        ResponseSerializer.serializeReply pc.cliid cliSuccess
          (some ⟨req.code, req.values, info.name⟩) (d.adapters sender).tag,
        some ⟨pc.call, .reply sender req⟩)] ∧ ok = true := by
  unfold handleReplyReq at h
  split at h
  · cases h
    exact .inl rfl
  · split at h
    · cases h
      exact .inl rfl
    · rename_i req hparse
      obtain ⟨info, hderef, h⟩ := Option.bind_eq_some_iff.mp h
      split at h
      · cases h
        exact .inl rfl
      · rename_i pc hfind
        split at h
        · cases h
          exact .inl rfl
        · rename_i hopen
          dsimp only at h
          split at h
          · obtain ⟨_, _, h⟩ := Option.bind_eq_some_iff.mp h
            obtain ⟨d₁, hlogged, heq⟩ := Option.map_eq_some_iff.mp h
            cases heq
            obtain ⟨r, hw⟩ := writeLogged_writes hlogged
            refine .inr ⟨req, info, pc, d₁, _, hparse, hderef, hfind, Bool.eq_false_iff.mpr hopen,
              hw, ?_, rfl, rfl⟩
            rw [hw.pendingCalls]
            rfl
          · cases h
            exact .inl rfl

theorem handlePingReq_spec (h : handlePingReq e sender d = some (d', ok)) :
    ∃ ws, Writes d ws d' ∧ NoAnswers ws := by
  unfold handlePingReq at h
  split at h
  · cases h
    exact ⟨[], .refl _, NoAnswers.nil⟩
  · obtain ⟨_, _, h⟩ := Option.bind_eq_some_iff.mp h
    dsimp only at h
    split at h
    · obtain ⟨d₁, hlogged, heq⟩ := Option.map_eq_some_iff.mp h
      cases heq
      obtain ⟨r, hw⟩ := writeLogged_writes hlogged
      exact ⟨_, hw, NoAnswers.single rfl rfl rfl⟩
    · cases h
      exact ⟨[], .refl _, NoAnswers.nil⟩

theorem doEraseAdapter_spec {now : Nat} (h : doEraseAdapter e now sender d = some d') :
    ((d.adapters sender).info = none ∧ d' = d) ∨
    ∃ info d₁ ws, d.deref sender = some info ∧ Writes (eraseName info.name d) ws d₁ ∧
      NoAnswers ws ∧ d' = checkSubscriptions now (if hasMonitorFlag info.flags then
        { d₁ with monitors := d₁.monitors.erase sender }
        else { d₁ with adapterInfos := d₁.adapterInfos.erase sender }) := by
  unfold doEraseAdapter at h
  split at h
  · rename_i hinfo
    cases h
    exact .inl ⟨hinfo, rfl⟩
  · obtain ⟨info, hderef, h⟩ := Option.bind_eq_some_iff.mp h
    refine .inr ⟨info, ?_⟩
    dsimp only at h
    split at h
    · rename_i hflag
      cases h
      exact ⟨_, [], hderef, .refl _, NoAnswers.nil, by rw [if_pos hflag]⟩
    · rename_i hflag
      obtain ⟨d₁, hremove, heq⟩ := Option.map_eq_some_iff.mp h
      obtain ⟨ws, hws, hreq⟩ := writeMonitorListRemove_spec hremove
      refine ⟨d₁, ws, hderef, hws, noAnswers_of_requests hreq (monitorFrames_answers rfl rfl), ?_⟩
      rw [if_neg hflag, heq]

theorem checkSubscriptions_rest (now : Nat) (d : Dispatcher) :
    checkSubscriptions now d = { d with
      subscriptions := (checkSubscriptions now d).subscriptions
      clearSubPrio := (checkSubscriptions now d).clearSubPrio
      handleCmdTp := (checkSubscriptions now d).handleCmdTp } := by
  unfold checkSubscriptions
  split
  · rfl
  · split <;> rfl

/-- The answer of a call that ran out of time. -/
def timeoutFrame (d : Dispatcher) (pc : PendingCall) :
    WriteRequest :=
  (pc.sender, (d.adapters pc.sender).serializeFlags,
    ResponseSerializer.serializeReply pc.cliid cliEtimeout none 0, some ⟨pc.call, .expired⟩)

theorem discardLoop_spec {tp : Nat} {pcs : List PendingCall}
    (h : discardLoop e tp pcs d = some d') (hpcs : d.pendingCalls = pcs) :
    ∃ expired rest ws, pcs = expired ++ rest ∧ Writes { d with pendingCalls := rest } ws d' ∧
      ws.map Write.request = expired.map (timeoutFrame d) ∧ (∀ pc ∈ expired, pc.discardTp ≤ tp) ∧
      ∀ pc ∈ rest.head?, tp < pc.discardTp := by
  induction pcs generalizing d with
  | nil =>
    cases h
    refine ⟨[], [], [], rfl, ?_, rfl, nofun, nofun⟩
    rw [← hpcs]
    exact .refl _
  | cons pc pcs ih =>
    unfold discardLoop at h
    split at h
    · rename_i hlater
      cases h
      refine ⟨[], pc :: pcs, [], rfl, ?_, rfl, nofun, ?_⟩
      · rw [← hpcs]
        exact .refl _
      · intro p hp
        cases hp
        exact hlater
    · rename_i hdue
      obtain ⟨d₁, htimeout, h⟩ := Option.bind_eq_some_iff.mp h
      obtain ⟨r, hw⟩ := writeLogged_writes htimeout
      obtain ⟨expired, rest, ws, hsplit, hws, hreq, hexp, hrest⟩ := ih h rfl
      refine ⟨pc :: expired, rest, _, by rw [hsplit]; rfl, (hw.setPendingCalls rest).trans hws, ?_,
        ?_, hrest⟩
      · have hframe : timeoutFrame { d₁ with pendingCalls := pcs } = timeoutFrame d := by
          funext p
          simp only [timeoutFrame, hw.serializeFlags]
        rw [List.map_append, hreq, hframe]
        rfl
      · intro p hp
        obtain rfl | hp := List.mem_cons.mp hp
        · exact Nat.le_of_not_lt hdue
        · exact hexp p hp

theorem discardPendingCalls_spec {tp : Nat} (h : discardPendingCalls e tp d = some d') :
    ∃ expired rest ws, d.pendingCalls = expired ++ rest ∧
      Writes { d with pendingCalls := rest } ws d' ∧
      ws.map Write.request = expired.map (timeoutFrame d) ∧ (∀ pc ∈ expired, pc.discardTp ≤ tp) ∧
      ∀ pc ∈ rest.head?, tp < pc.discardTp := discardLoop_spec h rfl

theorem msgHandler_cases {now : Nat} {cmd : Int} {r : Dispatcher × Bool}
    (h : msgHandler e now cmd caps sender d = some r) :
    (cmd = 0 ∧ handleAuthReq e caps sender d = some r) ∨
    (cmd = 1 ∧ handleSubscribeReq e caps sender d = some r) ∨
    (cmd = 2 ∧ handleUnsubscribeReq caps sender d = some r) ∨
    (cmd = 3 ∧ handlePostReq e caps sender d = some r) ∨
    (cmd = 4 ∧ handleReplyReq e caps sender d = some r) ∨
    (cmd = 5 ∧ handleDeclareMethod caps sender d = some r) ∨
    (cmd = 6 ∧ handleRemoveMethod caps sender d = some r) ∨
    (cmd = 7 ∧ handleCallReq e now caps sender d = some r) ∨
    (cmd = 8 ∧ handlePingReq e sender d = some r) := by
  unfold msgHandler at h
  split at h <;> simp_all

/-- One update the handler of a command can make: a change of one table, or writes. -/
inductive Update (e : Env) (now : Nat) (sender : AdapterId) :
    Int → Dispatcher → Dispatcher → Prop
  | authenticate {d : Dispatcher} (req : AuthReq) :
    Update e now sender 0 d (authenticate e req sender d).1
  | subscribe {d : Dispatcher} (name : String) :
    Update e now sender 1 d (addSubscription name sender d)
  | unsubscribe {d : Dispatcher} {name : String} {adapters : List AdapterId} :
    d.subscriptions.lookup name = some adapters → Update e now sender 2 d
      (setSubscribers name (adapters.filter fun a => d.alive a && a != sender) d)
  | purge {d : Dispatcher} (name : String) : Update e now sender 3 d (purge name d)
  | persist {d : Dispatcher} (name : String) (msgtype : Word) (args : CapsPtr) :
    Update e now sender 3 d (persistPost name msgtype args d)
  | reply {d : Dispatcher} (p : PendingCall → Bool) :
    Update e now sender 4 d { d with pendingCalls := d.pendingCalls.eraseP p }
  | methods {cmd : Int} {d : Dispatcher} {info : AdapterInfo} (names : List String) :
    cmd = 5 ∨ cmd = 6 → d.deref sender = some info →
    Update e now sender cmd d (d.setInfo sender { info with declaredMethods := names })
  | refuse {d : Dispatcher} (req : CallReq) : Update e now sender 7 d (refuseCall sender req d)
  | enter {d : Dispatcher} (target : AdapterId) (req : CallReq) :
    Update e now sender 7 d (enterCall now sender target req d)
  | write {cmd : Int} {d d' : Dispatcher} {ws : List Write} : Writes d ws d' →
    Update e now sender cmd d d'

/-- A handler makes updates of its command only. What all of them keep needs no look at the
handlers. -/
theorem msgHandler_updates {now : Nat} {cmd : Int}
    (h : msgHandler e now cmd caps sender d = some (d', ok)) :
    Relation.ReflTransGen (Update e now sender cmd) d d' := by
  rcases msgHandler_cases h with ⟨rfl, h⟩ | ⟨rfl, h⟩ | ⟨rfl, h⟩ | ⟨rfl, h⟩ | ⟨rfl, h⟩ | ⟨rfl, h⟩ |
    ⟨rfl, h⟩ | ⟨rfl, h⟩ | ⟨rfl, h⟩
  · obtain ⟨-, rfl, -⟩ | ⟨req, ws, -, hws, -, -⟩ := handleAuthReq_spec h
    · exact .refl
    · exact .tail (.single (.authenticate req)) (.write hws)
  · obtain ⟨-, rfl, -⟩ | ⟨name, -, -, ⟨-, rfl⟩ | ⟨-, ws, hws, -⟩⟩ := handleSubscribeReq_spec h
    · exact .refl
    · exact .refl
    · exact .tail (.single (.subscribe name)) (.write hws)
  · obtain ⟨-, rfl, -⟩ | ⟨name, -, -, ⟨-, rfl⟩ | ⟨adapters, hlook, rfl⟩⟩ :=
      handleUnsubscribeReq_spec h
    · exact .refl
    · exact .refl
    · exact .single (.unsubscribe hlook)
  · obtain ⟨-, rfl, -⟩ | ⟨req, info, d₁, ws, -, -, hws, rfl, -⟩ := handlePostReq_spec h
    · exact .refl
    · refine .tail ?_ (.persist req.name req.msgtype req.args)
      exact .tail (.single (.purge req.name)) (.write hws)
  · obtain rfl | ⟨req, info, pc, d₁, ws, -, -, -, -, hws, rfl, -⟩ := handleReplyReq_spec h
    · exact .refl
    · rw [← hws.pendingCalls]
      exact .tail (.single (.write hws)) (.reply _)
  · obtain rfl | ⟨info, names, hderef, rfl⟩ := handleDeclareMethod_spec h
    · exact .refl
    · exact .single (.methods names (.inl rfl) hderef)
  · obtain rfl | ⟨info, names, hderef, rfl⟩ := handleRemoveMethod_spec h
    · exact .refl
    · exact .single (.methods names (.inr rfl) hderef)
  · obtain ⟨-, rfl, -⟩ | ⟨req, ws, -, -, hws, -⟩ | ⟨req, info, target, ws, -, -, -, hws, -⟩ :=
      handleCallReq_spec h
    · exact .refl
    · exact .tail (.single (.refuse req)) (.write hws)
    · exact .tail (.single (.enter target req)) (.write hws)
  · obtain ⟨ws, hws, -⟩ := handlePingReq_spec h
    exact .single (.write hws)

end Dispatcher

end Flora
