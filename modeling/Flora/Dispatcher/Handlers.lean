import Flora.Dispatcher.State

/-! # Command handlers

`disp.cc`, handler by handler. A handler returns the new state and its verdict; `none` stands for
a read through a dangling or null `info` pointer or a destroyed adapter, where the source has no
defined behaviour. -/

namespace Flora

namespace Dispatcher

variable (e : Env)

def writeMonitorListAddTo (item : MonitorListItem) (d : Dispatcher) (monitor : AdapterId) :
    Option Dispatcher :=
  if (d.adapters monitor).destroyed then none
  else
    let order := (d.adapters monitor).serializeFlags
    let caps := ResponseSerializer.serializeMonitorListAdd item
    if e.fits order caps then
      (d.deref monitor).map fun _ => (d.write e monitor order caps none).1
    else some d

def writeMonitorListRemoveTo (id : Word) (d : Dispatcher) (monitor : AdapterId) :
    Option Dispatcher :=
  if (d.adapters monitor).destroyed then none
  else
    let order := (d.adapters monitor).serializeFlags
    let caps := ResponseSerializer.serializeMonitorListRemove id
    if e.fits order caps then
      (d.deref monitor).map fun _ => (d.write e monitor order caps none).1
    else some d

def writeMonitorListAdd (newitem : AdapterId) (d : Dispatcher) : Option Dispatcher :=
  if d.monitors.keys = [] then some d
  else (d.deref newitem).bind fun info =>
    d.monitors.keys.foldlM (writeMonitorListAddTo e info.item) d

def writeMonitorListRemove (id : Word) (d : Dispatcher) : Option Dispatcher :=
  d.monitors.keys.foldlM (writeMonitorListRemoveTo e id) d

def writeMonitorList (adapter : AdapterId) (d : Dispatcher) : Option Dispatcher :=
  let order := (d.adapters adapter).serializeFlags
  let caps := ResponseSerializer.serializeMonitorListAll (d.adapterInfos.entries.map (·.2.item))
  if e.fits order caps then
    (d.deref adapter).map fun _ => (d.write e adapter order caps none).1
  else some d

def writeMonitorData (flags : Word) (adapter : AdapterId) (d : Dispatcher) : Option Dispatcher :=
  if hasMonitorFlag flags then writeMonitorList e adapter d else some d

/-- The second half of `add_adapter`: the `AdapterInfo` is constructed before it is known whether
the key is new. -/
def addAdapterInfo (name : String) (flags pid : Word) (adapter : AdapterId) (d : Dispatcher) :
    Dispatcher :=
  let d := { d with idseq := d.idseq + 1 }
  match d.adapterInfos.lookup adapter with
  | some _ => d
  | none =>
    { d.setAdapter adapter { d.adapters adapter with info := some .client } with
      adapterInfos := d.adapterInfos.insert adapter ⟨BitVec.ofNat 32 d.idseq, pid, name, [], flags⟩ }

def addAdapter (name : String) (flags pid : Word) (adapter : AdapterId) (d : Dispatcher) :
    Dispatcher × Bool :=
  if name.length > 0 then
    match AssocMap.insertNew name adapter d.namedAdapters with
    | (_, false) => (d, false)
    | (named, true) =>
      (addAdapterInfo name flags pid adapter { d with namedAdapters := named }, true)
  else (addAdapterInfo name flags pid adapter d, true)

/-- `pid` of a monitor's record stays unset; nothing reads it. -/
def addMonitor (name : String) (flags : Word) (adapter : AdapterId) (d : Dispatcher) :
    Dispatcher :=
  let d := { d with idseq := d.idseq + 1 }
  match d.monitors.lookup adapter with
  | some _ => d
  | none =>
    { d.setAdapter adapter { d.adapters adapter with info := some .monitor } with
      monitors := d.monitors.insert adapter ⟨BitVec.ofNat 32 d.idseq, 0, name, [], flags⟩ }

/-- The registration part of `handle_auth_req`: new state and result code. -/
def authenticate (req : AuthReq) (sender : AdapterId) (d : Dispatcher) : Dispatcher × Word :=
  if req.version < 3 then (d, cliEauth)
  else
    let x := d.adapters sender
    let d := d.setAdapter sender { x with tag := if x.tag = 0 then req.pid.setWidth 64 else x.tag }
    if hasMonitorFlag req.flags then
      if hasMonitorFlag e.flags then (addMonitor req.extra req.flags sender d, cliSuccess)
      else (d, cliEauth)
    else
      match addAdapter req.extra req.flags req.pid sender d with
      | (d, true) => (d, cliSuccess)
      | (d, false) => (d, cliEdupid)

/-- The notifications after a successful auth response. -/
def writeMonitorLists (flags : Word) (sender : AdapterId) (d : Dispatcher) : Option Dispatcher :=
  (writeMonitorData e flags sender d).bind fun d =>
    if hasMonitorFlag flags then some d else writeMonitorListAdd e sender d

def handleAuthReq (caps : Caps) (sender : AdapterId) (d : Dispatcher) :
    Option (Dispatcher × Bool) :=
  match RequestParser.parseAuth caps with
  | none => some (d, false)
  | some req =>
    let result := (authenticate e req sender d).2
    let d := (authenticate e req sender d).1
    let order := (d.adapters sender).serializeFlags
    let resp := ResponseSerializer.serializeAuth result floraVersion
    if e.fits order resp then
      let d := (d.write e sender order resp none).1
      if result = cliSuccess then (writeMonitorLists e req.flags sender d).map (·, true)
      else some (d, false)
    else some (d, false)

def clearSubGabages (d : Dispatcher) : Dispatcher :=
  { d with subscriptions := AssocMap.filterMapValues (fun adapters =>
      let kept := adapters.filter d.alive
      if kept.isEmpty then none else some kept) d.subscriptions }

/-- Time points are nanoseconds. -/
def checkSubscriptions (now : Nat) (d : Dispatcher) : Dispatcher :=
  if (now - d.handleCmdTp) / 10 ^ 9 ≥ clearSubscriptionTimeThreshold then
    { clearSubGabages d with clearSubPrio := 0, handleCmdTp := now }
  else if d.clearSubPrio + 1 ≥ clearSubscriptionThreshold then
    { clearSubGabages d with clearSubPrio := 0, handleCmdTp := now }
  else { d with clearSubPrio := d.clearSubPrio + 1 }

/-- Erasing a name that is not a key changes nothing, as in the source. -/
def eraseName (name : String) (d : Dispatcher) : Dispatcher :=
  if name.length > 0 then { d with namedAdapters := d.namedAdapters.erase name } else d

def doEraseAdapter (now : Nat) (sender : AdapterId) (d : Dispatcher) : Option Dispatcher :=
  if (d.adapters sender).info = none then some d
  else (d.deref sender).bind fun info =>
    let d := eraseName info.name d
    if hasMonitorFlag info.flags then
      some (checkSubscriptions now { d with monitors := d.monitors.erase sender })
    else
      (writeMonitorListRemove e info.id d).map fun d =>
        checkSubscriptions now { d with adapterInfos := d.adapterInfos.erase sender }

/-- The common shape of the four requests that carry one name: reject a sender without a record,
an unreadable name and an empty one. -/
def nameRequest (parse : Caps → Option String)
    (body : String → AdapterInfo → Option (Dispatcher × Bool)) (caps : Caps) (sender : AdapterId)
    (d : Dispatcher) : Option (Dispatcher × Bool) :=
  if (d.adapters sender).info = none then some (d, false)
  else match parse caps with
  | none => some (d, false)
  | some name => (d.deref sender).bind fun info =>
    if name.length = 0 then some (d, false) else body name info

/-- The persistent message of a name is replayed to a new subscriber. -/
def replayPersist (name : String) (sender : AdapterId) (d : Dispatcher) : Option Dispatcher :=
  match d.persistMsgs.lookup name with
  | none => some d
  | some data =>
    let order := (d.adapters sender).serializeFlags
    let resp := ResponseSerializer.serializePost name msgtypePersist data 0 ""
    if e.fits order resp then d.writeLogged e sender order resp none [sender] else some d

def addSubscription (name : String) (sender : AdapterId) (d : Dispatcher) : Dispatcher :=
  { d with subscriptions :=
      d.subscriptions.insert name ((d.subscriptions.lookup name).getD [] ++ [sender]) }

def handleSubscribeReq (caps : Caps) (sender : AdapterId) (d : Dispatcher) :
    Option (Dispatcher × Bool) :=
  nameRequest RequestParser.parseSubscribe (fun name _ =>
    if ((d.subscriptions.lookup name).getD []).any fun a => d.alive a && a == sender then
      some (d, true)
    else (replayPersist e name sender (addSubscription name sender d)).map (·, true)) caps sender d

/-- Store a shortened subscriber list; an empty one is removed. -/
def setSubscribers (name : String) (kept : List AdapterId) (d : Dispatcher) : Dispatcher :=
  { d with subscriptions :=
      if kept.isEmpty then d.subscriptions.erase name else d.subscriptions.insert name kept }

def handleUnsubscribeReq (caps : Caps) (sender : AdapterId) (d : Dispatcher) :
    Option (Dispatcher × Bool) :=
  nameRequest RequestParser.parseUnsubscribe (fun name _ =>
    match d.subscriptions.lookup name with
    | none => some (d, true)
    | some adapters =>
      some (setSubscribers name (adapters.filter fun a => d.alive a && a != sender) d, true))
    caps sender d

def handleDeclareMethod (caps : Caps) (sender : AdapterId) (d : Dispatcher) :
    Option (Dispatcher × Bool) :=
  nameRequest RequestParser.parseDeclareMethod (fun name info =>
    some (d.setInfo sender (info.declareMethod name).1, (info.declareMethod name).2)) caps sender d

def handleRemoveMethod (caps : Caps) (sender : AdapterId) (d : Dispatcher) :
    Option (Dispatcher × Bool) :=
  nameRequest RequestParser.parseRemoveMethod (fun name info =>
    some (d.setInfo sender (info.removeMethod name), true)) caps sender d

/-- Delivery to one subscriber: `adap->info->name` is read for the log before the write. -/
def writePostMsgTo (order : ByteOrder) (resp : Caps) (d : Dispatcher) (a : AdapterId) :
    Option Dispatcher :=
  if d.alive a then (d.deref a).bind fun _ => d.writeLogged e a order resp none [a] else some d

def writePostMsgToAdapters (order : ByteOrder) (resp : Caps) (adapters : List AdapterId)
    (d : Dispatcher) : Option Dispatcher :=
  if e.fits order resp then adapters.foldlM (writePostMsgTo e order resp) d else some d

/-- The delivery part of `post_msg`: purge the list, write to the host-order group, then to the
network-order group. The purged list is stored last, as the writes do not read it. -/
def deliverPost (name : String) (resp : Caps) (d : Dispatcher) : Option Dispatcher :=
  match d.subscriptions.lookup name with
  | none => some d
  | some adapters =>
    let kept := adapters.filter d.live
    let isNet := fun a => (d.adapters a).serializeFlags == .net
    (writePostMsgToAdapters e .host resp (kept.filter fun a => !isNet a) d).bind fun d =>
      (writePostMsgToAdapters e .net resp (kept.filter isNet) d).map (setSubscribers name kept)

def persistPost (name : String) (type : Word) (args : CapsPtr) (d : Dispatcher) : Dispatcher :=
  if type = msgtypePersist then { d with persistMsgs := d.persistMsgs.insert name args } else d

def postMsg (name : String) (type : Word) (args : CapsPtr) (sender : AdapterId) (d : Dispatcher) :
    Option (Dispatcher × Bool) :=
  if !isValidMsgtype type then some (d, false)
  else (d.deref sender).bind fun info =>
    if name.length = 0 then some (d, false)
    else
      let resp := ResponseSerializer.serializePost name type args (d.adapters sender).tag info.name
      (deliverPost e name resp d).map fun d => (persistPost name type args d, true)

def handlePostReq (caps : Caps) (sender : AdapterId) (d : Dispatcher) :
    Option (Dispatcher × Bool) :=
  if (d.adapters sender).info = none then some (d, false)
  else match RequestParser.parsePost caps with
  | none => some (d, false)
  | some req => postMsg e req.name req.msgtype req.args sender d

/-- The position in front of the first entry that is due no earlier. -/
def insertPendingCall (pc : PendingCall) : List PendingCall → List PendingCall
  | [] => [pc]
  | p :: rest => if p.discardTp ≥ pc.discardTp then pc :: p :: rest
    else p :: insertPendingCall pc rest

def addPendingCall (now : Nat) (svrid cliid : Word) (sender target : AdapterId) (timeout : Word)
    (call : Nat) (d : Dispatcher) : Dispatcher :=
  let timeout := if timeout = 0 then defaultCallTimeout else timeout.toNat
  { d with pendingCalls :=
      insertPendingCall ⟨svrid, cliid, sender, target, now + timeout * 10 ^ 6, call⟩ d.pendingCalls }

/-- The target lookup of `handle_call_req`: `none` when a record that is read is gone. -/
def findMethod (target name : String) (d : Dispatcher) : Option (Option AdapterId) :=
  match d.namedAdapters.lookup target with
  | none => some none
  | some t => (d.deref t).map fun info => if info.hasMethod name then some t else none

def handleCallReq (now : Nat) (caps : Caps) (sender : AdapterId) (d : Dispatcher) :
    Option (Dispatcher × Bool) :=
  if (d.adapters sender).info = none then some (d, false)
  else match RequestParser.parseCall caps with
  | none => some (d, false)
  | some req => (d.deref sender).bind fun info => (findMethod req.target req.name d).bind fun found =>
    match found with
    | none =>
      let order := (d.adapters sender).serializeFlags
      let resp := ResponseSerializer.serializeReply req.id cliEnexists none 0
      let call := d.calls.length
      let d := { d with calls := d.calls ++ [⟨sender, req, none⟩] }
      if e.fits order resp then
        (d.writeLogged e sender order resp (some ⟨call, .refused⟩) [sender]).map (·, true)
      else some (d, false)
    | some target =>
      let svrid := BitVec.ofNat 32 (d.reqseq + 1)
      let call := d.calls.length
      let d := { d with
        reqseq := d.reqseq + 1, calls := d.calls ++ [⟨sender, req, some (svrid, target)⟩] }
      let d := addPendingCall now svrid req.id sender target req.timeout call d
      let order := (d.adapters target).serializeFlags
      let resp := ResponseSerializer.serializeCall req.name req.args svrid (d.adapters sender).tag
        info.name
      if e.fits order resp then
        (d.writeLogged e target order resp none [sender, target]).map (·, true)
      else some (d, false)

def handleReplyReq (caps : Caps) (sender : AdapterId) (d : Dispatcher) :
    Option (Dispatcher × Bool) :=
  if (d.adapters sender).info = none then some (d, false)
  else match RequestParser.parseReply caps with
  | none => some (d, false)
  | some req => (d.deref sender).bind fun info =>
    match d.pendingCalls.find? fun pc => pc.svrid == req.id && pc.target == sender with
    | none => some (d, true)
    | some pc =>
      if (d.adapters pc.sender).closed then some (d, true)
      else
        let order := (d.adapters pc.sender).serializeFlags
        let resp := ResponseSerializer.serializeReply pc.cliid cliSuccess
          (some ⟨req.code, req.values, info.name⟩) (d.adapters sender).tag
        if e.fits order resp then
          (d.deref pc.sender).bind fun _ =>
            (d.writeLogged e pc.sender order resp (some ⟨pc.call, .reply sender req⟩)
              [sender, pc.sender]).map fun d =>
              ({ d with pendingCalls :=
                  d.pendingCalls.eraseP fun pc => pc.svrid == req.id && pc.target == sender }, true)
        else some (d, false)

def handlePingReq (sender : AdapterId) (d : Dispatcher) : Option (Dispatcher × Bool) :=
  if (d.adapters sender).info = none then some (d, false)
  else (d.deref sender).bind fun _ =>
    let order := (d.adapters sender).serializeFlags
    if e.fits order ResponseSerializer.serializePong then
      (d.writeLogged e sender order ResponseSerializer.serializePong none [sender]).map (·, true)
    else some (d, false)

/-- `msg_handlers[cmd]`; outside the table there is no handler to call. -/
def msgHandler (now : Nat) (cmd : Int) (caps : Caps) (sender : AdapterId) (d : Dispatcher) :
    Option (Dispatcher × Bool) :=
  match cmd with
  | 0 => handleAuthReq e caps sender d
  | 1 => handleSubscribeReq e caps sender d
  | 2 => handleUnsubscribeReq caps sender d
  | 3 => handlePostReq e caps sender d
  | 4 => handleReplyReq e caps sender d
  | 5 => handleDeclareMethod caps sender d
  | 6 => handleRemoveMethod caps sender d
  | 7 => handleCallReq e now caps sender d
  | 8 => handlePingReq e sender d
  | _ => none

/-- The gate in front of the handlers: a sender with a monitor record is closed. -/
def isMonitor (sender : AdapterId) (d : Dispatcher) : Option Bool :=
  if (d.adapters sender).info = none then some false
  else (d.deref sender).map fun info => hasMonitorFlag info.flags

/-- `handle_cmd` on a message. `now` is the clock read by the handler, `done` the one read after
it. The lower bound of the table is not checked by the source. -/
def handleMsg (now done : Nat) (caps : Caps) (sender : AdapterId) (d : Dispatcher) :
    Option Dispatcher :=
  (isMonitor sender d).bind fun monitor =>
    if monitor then some (d.close sender)
    else match caps.readWord with
    | none => some (d.close sender)
    | some (cmd, caps) =>
      if cmd.toInt ≥ msgHandlerCount then some (d.close sender)
      else (msgHandler e now cmd.toInt caps sender d).map fun (d, ok) =>
        let d := if ok then d else d.close sender
        { d with handleCmdTp := done }

def pendingCallTimeout (pc : PendingCall) (d : Dispatcher) : Option Dispatcher :=
  d.writeLogged e pc.sender (d.adapters pc.sender).serializeFlags
    (ResponseSerializer.serializeReply pc.cliid cliEtimeout none 0) (some ⟨pc.call, .expired⟩)
    [pc.sender, pc.target]

def discardLoop (tp : Nat) : List PendingCall → Dispatcher → Option Dispatcher
  | [], d => some d
  | pc :: rest, d =>
    if tp < pc.discardTp then some d
    else (pendingCallTimeout e pc d).bind fun d => discardLoop tp rest { d with pendingCalls := rest }

def discardPendingCalls (tp : Nat) (d : Dispatcher) : Option Dispatcher :=
  discardLoop e tp d.pendingCalls d

end Dispatcher

end Flora
