import Flora.Dispatcher.Acceptance
import Flora.Wire

/-! # Client functions and the handlers behind them

`subscribe`, `unsubscribe`, `declare_method`, `remove_method`, `post` and `call` check their
arguments and send a request; the dispatcher checks the request again. A session is any sequence of
these calls by one client, and whatever else happens to the dispatcher between the requests. -/

namespace Flora

open TransitionSystem

/-- The part of a connected `Client` that the request functions look at. -/
structure ApiClient where
  flags : Word
  bufsize : Nat
  serializeFlags : ByteOrder
  reqseq : Nat := 0

/-- A call of a request function. A null name is `none`; `blocking` tells the two functions `call`
apart, `onCallbackThread` that the calling thread is the receive thread. -/
inductive ApiCall where
  | subscribe (name : Option String)
  | unsubscribe (name : Option String)
  | declareMethod (name : Option String)
  | removeMethod (name : Option String)
  | post (name : Option String) (msg : CapsPtr) (msgtype : Word)
  | call (name : Option String) (msg : CapsPtr) (target : String) (timeout : Word)
      (blocking onCallbackThread : Bool)

/-- The request was sent, or the function returned an error code. -/
inductive Submitted where
  | sent (m : ClientMessage)
  | refused (code : Word)

namespace ApiClient

variable (e : Env) (c : ApiClient)

/-- The end of every request function: serialize, then send. `ok` is the result of
`connection->send`. -/
def sendRequest (m : ClientMessage) (ok : Bool) : Submitted :=
  let length := e.capsSize c.serializeFlags m.caps
  if 0 < length ∧ length < 2 ^ 31 ∧ length ≤ c.bufsize then
    if ok then .sent m else .refused cliEconn
  else .refused cliEinval

/-- The four functions that take a name. -/
def nameFunction (request : String → ClientMessage) (name : Option String) (ok : Bool) :
    Submitted :=
  match name with
  | none => .refused cliEinval
  | some name =>
    if hasMonitorFlag c.flags then .refused cliEmonitor else c.sendRequest e (request name) ok

def subscribe (name : Option String) (ok : Bool) : Submitted :=
  c.nameFunction e .subscribe name ok

def unsubscribe (name : Option String) (ok : Bool) : Submitted :=
  c.nameFunction e .unsubscribe name ok

def declareMethod (name : Option String) (ok : Bool) : Submitted :=
  c.nameFunction e .declareMethod name ok

def removeMethod (name : Option String) (ok : Bool) : Submitted :=
  c.nameFunction e .removeMethod name ok

def post (name : Option String) (msg : CapsPtr) (msgtype : Word) (ok : Bool) : Submitted :=
  match name with
  | none => .refused cliEinval
  | some name =>
    if !isValidMsgtype msgtype then .refused cliEinval
    else if hasMonitorFlag c.flags then .refused cliEmonitor
    else c.sendRequest e (.post ⟨name, msgtype, msg⟩) ok

/-- Both functions `call` up to the send. The id is taken before the length is known; overflow of
the signed counter is undefined. -/
def call (name : Option String) (msg : CapsPtr) (target : String) (timeout : Word)
    (blocking onCallbackThread ok : Bool) : Option (ApiClient × Submitted) :=
  match name with
  | none => some (c, .refused cliEinval)
  | some name =>
    if hasMonitorFlag c.flags then some (c, .refused cliEmonitor)
    else if blocking && onCallbackThread then some (c, .refused cliEdeadlock)
    else if c.reqseq + 1 ≥ 2 ^ 31 then none
    else
      let c := { c with reqseq := c.reqseq + 1 }
      some (c, c.sendRequest e (.call ⟨name, msg, target, BitVec.ofNat 32 c.reqseq, timeout⟩) ok)

def submit (ok : Bool) : ApiCall → Option (ApiClient × Submitted)
  | .subscribe name => some (c, c.subscribe e name ok)
  | .unsubscribe name => some (c, c.unsubscribe e name ok)
  | .declareMethod name => some (c, c.declareMethod e name ok)
  | .removeMethod name => some (c, c.removeMethod e name ok)
  | .post name msg msgtype => some (c, c.post e name msg msgtype ok)
  | .call name msg target timeout blocking onCallbackThread =>
    c.call e name msg target timeout blocking onCallbackThread ok

theorem sendRequest_sent {c : ApiClient} {m m' : ClientMessage} {ok : Bool}
    (h : c.sendRequest e m ok = .sent m') : m' = m := by
  unfold sendRequest at h
  dsimp only at h
  split at h
  · split at h
    · cases h
      rfl
    · cases h
  · cases h

theorem nameFunction_sent {c : ApiClient} {request : String → ClientMessage} {name : Option String}
    {m : ClientMessage} {ok : Bool} (h : c.nameFunction e request name ok = .sent m) :
    ∃ n, m = request n := by
  unfold nameFunction at h
  split at h
  · cases h
  · rename_i n
    split at h
    · cases h
    · exact ⟨n, sendRequest_sent e h⟩

end ApiClient

namespace ClientMessage

/-- The requests of the client functions, with what the functions have checked. -/
inductive Requested : ClientMessage → Prop
  | subscribe (name : String) : Requested (.subscribe name)
  | unsubscribe (name : String) : Requested (.unsubscribe name)
  | declareMethod (name : String) : Requested (.declareMethod name)
  | removeMethod (name : String) : Requested (.removeMethod name)
  | post (req : PostReq) (htype : isValidMsgtype req.msgtype = true) : Requested (.post req)
  | call (req : CallReq) : Requested (.call req)

theorem requested_of_submit {e : Env} {c c' : ApiClient} {call : ApiCall} {ok : Bool}
    {m : ClientMessage} (h : c.submit e ok call = some (c', .sent m)) : m.Requested := by
  have named {request : String → ClientMessage} {name : Option String}
      (hsent : some (c, c.nameFunction e request name ok) = some (c', .sent m)) :
      ∃ n, m = request n :=
    ApiClient.nameFunction_sent e (congrArg Prod.snd (Option.some.inj hsent))
  cases call with
  | subscribe name =>
    obtain ⟨n, rfl⟩ := named h
    exact .subscribe n
  | unsubscribe name =>
    obtain ⟨n, rfl⟩ := named h
    exact .unsubscribe n
  | declareMethod name =>
    obtain ⟨n, rfl⟩ := named h
    exact .declareMethod n
  | removeMethod name =>
    obtain ⟨n, rfl⟩ := named h
    exact .removeMethod n
  | post name msg msgtype =>
    have hsent : c.post e name msg msgtype ok = .sent m := congrArg Prod.snd (Option.some.inj h)
    unfold ApiClient.post at hsent
    split at hsent
    · cases hsent
    · split at hsent
      · cases hsent
      · rename_i htype
        split at hsent
        · cases hsent
        · rw [ApiClient.sendRequest_sent e hsent]
          exact .post _ (by simpa using htype)
  | call name msg target timeout blocking onCallbackThread =>
    simp only [ApiClient.submit, ApiClient.call] at h
    split at h
    · cases h
    · split at h
      · cases h
      · split at h
        · cases h
        · split at h
          · cases h
          · rw [ApiClient.sendRequest_sent e (congrArg Prod.snd (Option.some.inj h))]
            exact .call _

/-- The dispatcher will take the request: it has a name, a declared method is not declared yet,
the live subscribers to a post and the named target of a call have their records, and the answer
to a call has room. -/
def Acceptable (e : Env) (d : Dispatcher) (sender : AdapterId) (info : AdapterInfo) :
    ClientMessage → Prop
  | subscribe name => name ≠ ""
  | unsubscribe name => name ≠ ""
  | declareMethod name => name ≠ "" ∧ info.hasMethod name = false
  | removeMethod name => name ≠ ""
  | post req => req.name ≠ "" ∧ d.SubscribersKnown e req.name (d.postResp sender req info)
  | call req => d.CallAnswerable e sender req info
  | _ => True

theorem outcome_handler_iff {e : Env} {d : Dispatcher} {sender : AdapterId} {info : AdapterInfo}
    {m : ClientMessage} (hm : m.Requested) (hderef : d.deref sender = some info) (now : Nat) :
    Dispatcher.outcome (m.handler e now m.caps.tail sender d) = some true ↔
      m.Acceptable e d sender info := by
  cases hm with
  | subscribe name => exact Dispatcher.subscribe_accepted_iff hderef rfl
  | unsubscribe name => exact Dispatcher.unsubscribe_accepted_iff hderef rfl
  | declareMethod name => exact Dispatcher.declareMethod_accepted_iff hderef rfl
  | removeMethod name => exact Dispatcher.removeMethod_accepted_iff hderef rfl
  | post req htype =>
    have hparse : RequestParser.parsePost (post req).caps.tail = some req := rfl
    exact Dispatcher.post_accepted_iff hderef hparse htype
  | call req =>
    have hparse : RequestParser.parseCall (call req).caps.tail = some req := rfl
    exact Dispatcher.call_answered_iff hderef hparse

end ClientMessage

/-- One client and the dispatcher. -/
structure ApiSession where
  client : ApiClient
  dispatcher : Dispatcher
  /-- History: the requests of the client that were handled, with what their handlers returned. -/
  verdicts : List (ClientMessage × Option Bool) := []

namespace ApiSession

/-- A call of a request function with the handling of the request it sends, or any other step of
the dispatcher. What the client does depends on the dispatcher in no way, so the time between the
two does not matter. -/
inductive Action where
  | api (call : ApiCall) (ok : Bool) (now done : Nat)
  | other (act : Dispatcher.Action)

/-- The record of the client's adapter, if it is authenticated and no monitor. -/
def clientInfo (d : Dispatcher) (sender : AdapterId) : Option AdapterInfo :=
  (d.deref sender).filter fun info => !hasMonitorFlag info.flags

/-- `handle_cmd` on a request that was sent. A handler without defined behaviour leaves the state
and enters `none`. -/
def handle (e : Env) (sender : AdapterId) (m : ClientMessage) (now done : Nat) (s : ApiSession) :
    ApiSession :=
  { s with
    dispatcher := (s.dispatcher.handleMsg e now done m.caps sender).getD s.dispatcher
    verdicts := s.verdicts ++ [(m, Dispatcher.outcome
      (s.dispatcher.msgHandler e now m.cmd.toInt m.caps.tail sender))] }

/-- Requests that are longer than the service's buffer do not reach the dispatcher. -/
def step (e : Env) (sender : AdapterId) (s : ApiSession) : Action → Option ApiSession
  | .other act => (s.dispatcher.step e act).map fun d => { s with dispatcher := d }
  | .api call ok now done =>
    (s.client.submit e ok call).bind fun (client, submitted) =>
      match submitted with
      | .refused _ => some { s with client := client }
      | .sent m =>
        if (clientInfo s.dispatcher sender).isSome ∧ s.dispatcher.alive sender = true ∧
            e.capsSize client.serializeFlags m.caps ≤ e.bufSize then
          some (handle e sender m now done { s with client := client })
        else none

def system (e : Env) (sender : AdapterId) : System ApiSession Action :=
  System.ofStep (fun s => s.verdicts = []) (step e sender)

/-- A request passes the gate of `handle_cmd`, and its verdict decides whether the client is
closed. -/
theorem handle_dispatcher {e : Env} {sender : AdapterId} {s : ApiSession} (m : ClientMessage)
    (now done : Nat) (h : (clientInfo s.dispatcher sender).isSome = true) :
    (handle e sender m now done s).dispatcher =
      ((s.dispatcher.msgHandler e now m.cmd.toInt m.caps.tail sender).map fun (d, ok) =>
        { (if ok then d else d.close sender) with handleCmdTp := done }).getD s.dispatcher := by
  obtain ⟨info, hinfo⟩ := Option.isSome_iff_exists.mp h
  obtain ⟨hderef, hflags⟩ := Option.filter_eq_some_iff.mp hinfo
  have hgate : s.dispatcher.isMonitor sender = some false := by
    rw [Dispatcher.isMonitor, if_neg (Dispatcher.info_of_deref hderef), hderef]
    simpa using hflags
  rw [handle, Dispatcher.handleMsg, hgate]
  simp only [Option.bind_some, Bool.false_eq_true, if_false, m.readWord_caps]
  rw [if_neg (Int.not_le.mpr m.cmd_in_table.2)]

/-- Every request was handled by a handler that returned true. -/
def Accepted (s : ApiSession) : Prop := ∀ v ∈ s.verdicts, v.2 = some true

/-- The request that a call sends is acceptable. -/
def Acceptable (e : Env) (sender : AdapterId) (s : ApiSession) : Action → Prop
  | .other _ => True
  | .api call ok _ _ => ∀ client m info, s.client.submit e ok call = some (client, .sent m) →
      clientInfo s.dispatcher sender = some info → m.Acceptable e s.dispatcher sender info

/-- A step handles no request, or it handles one of a client function and enters its verdict, which
is true exactly when the request is acceptable. -/
theorem step_cases {e : Env} {sender : AdapterId} {s s' : ApiSession} {act : Action}
    (h : step e sender s act = some s') :
    (s'.verdicts = s.verdicts ∧ Acceptable e sender s act) ∨
    ∃ m verdict, s'.verdicts = s.verdicts ++ [(m, verdict)] ∧
      (verdict = some true ↔ Acceptable e sender s act) := by
  cases act with
  | other act =>
    obtain ⟨d, _, rfl⟩ := Option.map_eq_some_iff.mp h
    exact .inl ⟨rfl, trivial⟩
  | api call ok now done =>
    obtain ⟨⟨client, submitted⟩, hsubmit, h⟩ := Option.bind_eq_some_iff.mp h
    cases submitted with
    | refused code =>
      cases h
      refine .inl ⟨rfl, fun client' m info hsent _ => ?_⟩
      rw [hsubmit] at hsent
      cases hsent
    | sent m =>
      dsimp only at h
      split at h
      · rename_i hcond
        cases h
        obtain ⟨info, hinfo⟩ := Option.isSome_iff_exists.mp hcond.1
        have hderef : s.dispatcher.deref sender = some info :=
          (Option.filter_eq_some_iff.mp hinfo).1
        refine .inr ⟨m, _, rfl, ?_⟩
        rw [m.msgHandler_cmd, ClientMessage.outcome_handler_iff
          (ClientMessage.requested_of_submit hsubmit) hderef]
        constructor
        · intro hacc client' m' info' hsent hinfo'
          cases hsubmit.symm.trans hsent
          cases hinfo.symm.trans hinfo'
          exact hacc
        · exact fun hacc => hacc client m info hsubmit hinfo
      · cases h

/-- In every session, every request that was sent is accepted exactly when every call of the session
makes an acceptable request. -/
theorem requests_accepted_iff (e : Env) (sender : AdapterId) (client : ApiClient) (d : Dispatcher)
    {acts : List Action} {s : ApiSession} (h : execute (step e sender) ⟨client, d, []⟩ acts = some s) :
    (∀ bs s', bs <+: acts → execute (step e sender) ⟨client, d, []⟩ bs = some s' → Accepted s') ↔
      ((system e sender).guard (Acceptable e sender)).Run ⟨client, d, []⟩ acts s := by
  apply execute_guard_iff (I := Accepted) _ _ _ (by simp [Accepted]) h
  · exact fun s hs => hs
  · intro s s' act _ hs hstep hG
    obtain ⟨hsame, _⟩ | ⟨m, verdict, hmore, hiff⟩ := step_cases hstep
    · rw [Accepted, hsame]
      exact hs
    · intro v hv
      rw [hmore] at hv
      obtain hv | hv := List.mem_append.mp hv
      · exact hs v hv
      · rw [List.mem_singleton.mp hv]
        exact hiff.mpr hG
  · intro s s' act _ _ hstep hP
    obtain ⟨_, hacc⟩ | ⟨m, verdict, hmore, hiff⟩ := step_cases hstep
    · exact hacc
    · refine hiff.mp (hP (m, verdict) ?_)
      rw [hmore]
      exact List.mem_append_right _ (List.mem_singleton_self _)

/-- A client named "svc" that has just been authenticated. -/
def sampleState : Option Dispatcher :=
  execute (Dispatcher.step Dispatcher.sampleEnv) {} [Dispatcher.sampleAuth 0 "svc" 0]

def sampleClient : ApiClient := ⟨0, 32768, .host, 0⟩

/-- A session of one call of every function. -/
def sampleSession : List Action :=
  [.api (.subscribe (some "a")) true 0 0, .api (.declareMethod (some "m")) true 0 0,
    .api (.post (some "a") none 0) true 0 0,
    .api (.call (some "m") none "svc" 0 false false) true 0 0,
    .api (.removeMethod (some "m")) true 0 0, .api (.unsubscribe (some "a")) true 0 0]

theorem requests_accepted_sample : ∃ d s, sampleState = some d ∧
    execute (step Dispatcher.sampleEnv 0) ⟨sampleClient, d, []⟩ sampleSession = some s ∧
    s.verdicts.map (·.2) = List.replicate 6 (some true) ∧
    ((∀ bs s', bs <+: sampleSession →
        execute (step Dispatcher.sampleEnv 0) ⟨sampleClient, d, []⟩ bs = some s' → Accepted s') ↔
      ((system Dispatcher.sampleEnv 0).guard (Acceptable Dispatcher.sampleEnv 0)).Run
        ⟨sampleClient, d, []⟩ sampleSession s) := by
  obtain ⟨d, s, hd, hs, hverdicts⟩ : ∃ d s, sampleState = some d ∧
      execute (step Dispatcher.sampleEnv 0) ⟨sampleClient, d, []⟩ sampleSession = some s ∧
      s.verdicts.map (·.2) = List.replicate 6 (some true) := ⟨_, _, rfl, rfl, rfl⟩
  exact ⟨d, s, hd, hs, hverdicts,
    requests_accepted_iff Dispatcher.sampleEnv 0 sampleClient d hs⟩

/-- `subscribe("")` sends a request that the dispatcher rejects. -/
theorem subscribe_empty_rejected : ∃ d s, (Dispatcher.system Dispatcher.sampleEnv).Reachable d ∧
    execute (step Dispatcher.sampleEnv 0) ⟨sampleClient, d, []⟩
      [.api (.subscribe (some "")) true 0 0] = some s ∧
    s.verdicts.map (·.2) = [some false] ∧ (s.dispatcher.adapters 0).closed = true ∧
    ¬ Accepted s := by
  obtain ⟨d, s, hd, hs, hverdicts, hclosed⟩ : ∃ d s, sampleState = some d ∧
      execute (step Dispatcher.sampleEnv 0) ⟨sampleClient, d, []⟩
        [.api (.subscribe (some "")) true 0 0] = some s ∧
      s.verdicts = [(.subscribe "", some false)] ∧ (s.dispatcher.adapters 0).closed = true :=
    ⟨_, _, rfl, rfl, rfl, rfl⟩
  refine ⟨d, s, execute_reachable Dispatcher.initial_default hd, hs, by rw [hverdicts]; rfl, hclosed,
    fun hacc => ?_⟩
  have hfirst := hacc (.subscribe "", some false) (by rw [hverdicts]; exact List.mem_singleton_self _)
  cases hfirst

end ApiSession

end Flora
