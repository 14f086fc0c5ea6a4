import Flora.Client.Commands
import Flora.Dispatcher.Handlers

/-! # The wire format

Every message of a client and of the service, the member list its serializer writes, and what the
other side makes of the bytes: the command word, the parser it selects and the fields. The bytes of
a container are made and read by the container library. -/

namespace Flora

/-- The container library: a member list is written in either byte order and read back. -/
structure CapsCodec where
  serialize : ByteOrder → Caps → List Byte
  parse : List Byte → Option Caps

namespace CapsCodec

/-- The typed members are read as they were written. -/
def Faithful (w : CapsCodec) (order : ByteOrder) (caps : Caps) : Prop :=
  w.parse (w.serialize order caps) = some caps

/-- The end of every serializer: the length is a non-negative `int32_t` and within the buffer. -/
def write (w : CapsCodec) (order : ByteOrder) (size : Nat) (caps : Caps) : Option (List Byte) :=
  if (w.serialize order caps).length < 2 ^ 31 ∧ (w.serialize order caps).length ≤ size then
    some (w.serialize order caps)
  else none

/-- The command word of a frame and the members behind it. -/
def command (w : CapsCodec) (bytes : List Byte) : Option (Word × Caps) :=
  (w.parse bytes).bind Caps.readWord

theorem command_of_write {w : CapsCodec} {order : ByteOrder} {size : Nat} {caps : Caps}
    {bytes : List Byte} (hfaithful : w.Faithful order caps)
    (hwrite : w.write order size caps = some bytes) : w.command bytes = caps.readWord := by
  unfold write at hwrite
  split at hwrite
  · cases hwrite
    rw [command, hfaithful]
    rfl
  · cases hwrite

end CapsCodec

/-- The messages of `RequestSerializer`. -/
inductive ClientMessage where
  | auth (req : AuthReq)
  | subscribe (name : String)
  | unsubscribe (name : String)
  | declareMethod (name : String)
  | removeMethod (name : String)
  | post (req : PostReq)
  | call (req : CallReq)
  | reply (req : ReplyReq)
  | ping

namespace ClientMessage

def caps : ClientMessage → Caps
  | auth req => RequestSerializer.serializeAuth req.version req.extra req.pid req.flags
  | subscribe name => RequestSerializer.serializeSubscribe name
  | unsubscribe name => RequestSerializer.serializeUnsubscribe name
  | declareMethod name => RequestSerializer.serializeDeclareMethod name
  | removeMethod name => RequestSerializer.serializeRemoveMethod name
  | post req => RequestSerializer.serializePost req.name req.msgtype req.args
  | call req => RequestSerializer.serializeCall req.name req.args req.target req.id req.timeout
  | reply req => RequestSerializer.serializeReply req.id req.code req.values
  | ping => RequestSerializer.serializePing

def cmd : ClientMessage → Word
  | auth _ => cmdAuthReq
  | subscribe _ => cmdSubscribeReq
  | unsubscribe _ => cmdUnsubscribeReq
  | declareMethod _ => cmdDeclareMethodReq
  | removeMethod _ => cmdRemoveMethodReq
  | post _ => cmdPostReq
  | call _ => cmdCallReq
  | reply _ => cmdReplyReq
  | ping => cmdPingReq

/-- The parser the handler of a command word begins with; a ping has no fields. -/
def parse (cmd : Word) (rest : Caps) : Option ClientMessage :=
  if cmd = cmdAuthReq then (RequestParser.parseAuth rest).map auth
  else if cmd = cmdSubscribeReq then (RequestParser.parseSubscribe rest).map subscribe
  else if cmd = cmdUnsubscribeReq then (RequestParser.parseUnsubscribe rest).map unsubscribe
  else if cmd = cmdDeclareMethodReq then (RequestParser.parseDeclareMethod rest).map declareMethod
  else if cmd = cmdRemoveMethodReq then (RequestParser.parseRemoveMethod rest).map removeMethod
  else if cmd = cmdPostReq then (RequestParser.parsePost rest).map post
  else if cmd = cmdCallReq then (RequestParser.parseCall rest).map call
  else if cmd = cmdReplyReq then (RequestParser.parseReply rest).map reply
  else if cmd = cmdPingReq then some ping
  else none

/-- The handler of each kind of message. -/
def handler (e : Env) (now : Nat) (rest : Caps) (sender : AdapterId) (d : Dispatcher) :
    ClientMessage → Option (Dispatcher × Bool)
  | auth _ => d.handleAuthReq e rest sender
  | subscribe _ => d.handleSubscribeReq e rest sender
  | unsubscribe _ => d.handleUnsubscribeReq rest sender
  | declareMethod _ => d.handleDeclareMethod rest sender
  | removeMethod _ => d.handleRemoveMethod rest sender
  | post _ => d.handlePostReq e rest sender
  | call _ => d.handleCallReq e now rest sender
  | reply _ => d.handleReplyReq e rest sender
  | ping => d.handlePingReq e sender

theorem readWord_caps (m : ClientMessage) : m.caps.readWord = some (m.cmd, m.caps.tail) := by
  cases m <;> rfl

theorem parse_tail_caps (m : ClientMessage) : parse m.cmd m.caps.tail = some m := by
  cases m <;> rfl

theorem cmd_in_table (m : ClientMessage) : 0 ≤ m.cmd.toInt ∧ m.cmd.toInt < msgHandlerCount := by
  cases m <;> simp only [cmd] <;> decide

theorem msgHandler_cmd (m : ClientMessage) (e : Env) (now : Nat) (rest : Caps) (sender : AdapterId)
    (d : Dispatcher) :
    d.msgHandler e now m.cmd.toInt rest sender = m.handler e now rest sender d := by
  cases m <;> rfl

end ClientMessage

/-- The arguments of `serialize_reply`: there is a response on success and only then. -/
structure ReplyResp where
  id : Word
  rescode : Word
  response : Option Response
  tag : BitVec 64
  response_iff : response.isSome = true ↔ rescode = cliSuccess

/-- The messages of `ResponseSerializer`. -/
inductive ServiceMessage where
  | auth (result version : Word)
  | post (name : String) (msgtype : Word) (args : CapsPtr) (tag : BitVec 64) (cliname : String)
  | call (name : String) (args : CapsPtr) (id : Word) (tag : BitVec 64) (cliname : String)
  | reply (resp : ReplyResp)
  | monitorListAll (infos : AdapterInfoMap)
  | monitorListAdd (info : AdapterInfo)
  | monitorListRemove (id : Word)
  | pong

namespace ServiceMessage

def caps : ServiceMessage → Caps
  | auth result version => ResponseSerializer.serializeAuth result version
  | post name msgtype args tag cliname =>
    ResponseSerializer.serializePost name msgtype args tag cliname
  | call name args id tag cliname => ResponseSerializer.serializeCall name args id tag cliname
  | reply resp => ResponseSerializer.serializeReply resp.id resp.rescode resp.response resp.tag
  | monitorListAll infos =>
    ResponseSerializer.serializeMonitorListAll (infos.entries.map (·.2.item))
  | monitorListAdd info => ResponseSerializer.serializeMonitorListAdd info.item
  | monitorListRemove id => ResponseSerializer.serializeMonitorListRemove id
  | pong => ResponseSerializer.serializePong

/-- The size of a map is written as an `int32_t`. -/
def Countable : ServiceMessage → Prop
  | monitorListAll infos => infos.entries.length < 2 ^ 31
  | _ => True

/-- What the receiver is to hand on: the fields as they were written, a map as its items in
order. -/
def received : ServiceMessage → Received
  | auth result version => .auth result version
  | post name msgtype args tag cliname => .post name msgtype args tag cliname
  | call name args id tag cliname => .call name args id tag cliname
  | reply resp => .reply resp.id resp.rescode resp.response resp.tag
  | monitorListAll infos => .listAll (infos.entries.map (·.2.item))
  | monitorListAdd info => .listAdd info.item
  | monitorListRemove id => .listRemove id
  | pong => .pong

/-- `cmd_handler` when the message is expected: the response to the auth request comes first. -/
def cmdHandler : ServiceMessage → Word → Caps → Except ResponseParser.ParseError Received
  | auth .. => Client.handleCmdBeforeAuth
  | _ => Client.handleCmdAfterAuth true

theorem parseTaggedReply_caps (resp : ReplyResp) :
    ResponseParser.parseTaggedReply (reply resp).caps.tail =
      some (resp.id, resp.rescode, resp.response, resp.tag) := by
  obtain ⟨id, rescode, response, tag, hiff⟩ := resp
  cases response with
  | none =>
    have hcode : rescode ≠ cliSuccess := fun heq => absurd (hiff.mpr heq) (by simp)
    simp [caps, ResponseSerializer.serializeReply, ResponseParser.parseTaggedReply, hcode]
  | some response =>
    obtain rfl : rescode = cliSuccess := hiff.mp rfl
    rfl

/-- The other side reads the command word, selects the handler of this kind of message and hands on
the fields as they were written. -/
theorem cmdHandler_caps (m : ServiceMessage) (h : m.Countable) :
    ∃ cmd rest, m.caps.readWord = some (cmd, rest) ∧ m.cmdHandler cmd rest = .ok m.received := by
  cases m with
  | auth result version => exact ⟨_, _, rfl, rfl⟩
  | post name msgtype args tag cliname => exact ⟨_, _, rfl, rfl⟩
  | call name args id tag cliname => exact ⟨_, _, rfl, rfl⟩
  | reply resp =>
    refine ⟨cmdReplyResp, (reply resp).caps.tail, rfl, ?_⟩
    change Client.orInvalid (Option.map _ (ResponseParser.parseTaggedReply _)) = _
    rw [parseTaggedReply_caps]
    rfl
  | monitorListAll infos =>
    refine ⟨cmdMonitorResp, (monitorListAll infos).caps.tail, rfl, ?_⟩
    have hlength : (infos.entries.map (·.2.item)).length < 2 ^ 32 := by
      rw [List.length_map]
      exact Nat.lt_trans h (by decide)
    change Except.map _ (ResponseParser.parseMonitorListAll
      ((ResponseSerializer.serializeMonitorListAll (infos.entries.map (·.2.item))).drop 2)) = _
    rw [ResponseParser.parseMonitorListAll_serialized _ hlength]
    rfl
  | monitorListAdd info => exact ⟨_, _, rfl, rfl⟩
  | monitorListRemove id => exact ⟨_, _, rfl, rfl⟩
  | pong => exact ⟨_, _, rfl, rfl⟩

end ServiceMessage

/-- What fits the buffer on one side is read on the other: the command word selects the handler of
the message's kind, and the parser of that handler yields the fields that were written. -/
theorem wire_round_trip (w : CapsCodec) (order : ByteOrder) (size : Nat) (bytes : List Byte) :
    (∀ m : ClientMessage, w.Faithful order m.caps → w.write order size m.caps = some bytes →
      ∃ cmd rest, w.command bytes = some (cmd, rest) ∧ ClientMessage.parse cmd rest = some m ∧
        0 ≤ cmd.toInt ∧ cmd.toInt < msgHandlerCount ∧
        ∀ e now sender d, Dispatcher.msgHandler e now cmd.toInt rest sender d =
          m.handler e now rest sender d) ∧
    ∀ m : ServiceMessage, m.Countable → w.Faithful order m.caps →
      w.write order size m.caps = some bytes →
      ∃ cmd rest, w.command bytes = some (cmd, rest) ∧ m.cmdHandler cmd rest = .ok m.received := by
  constructor
  · intro m hfaithful hwrite
    refine ⟨m.cmd, m.caps.tail, ?_, m.parse_tail_caps, m.cmd_in_table.1, m.cmd_in_table.2,
      fun e now sender d => m.msgHandler_cmd e now m.caps.tail sender d⟩
    rw [CapsCodec.command_of_write hfaithful hwrite, m.readWord_caps]
  · intro m hcount hfaithful hwrite
    obtain ⟨cmd, rest, hread, hhandler⟩ := m.cmdHandler_caps hcount
    exact ⟨cmd, rest, by rw [CapsCodec.command_of_write hfaithful hwrite, hread], hhandler⟩

/-- A codec for frames of a header and one length byte that all carry one message. -/
def CapsCodec.sample (message : Caps) : CapsCodec where
  serialize _ _ := [0, 0, 0, 0, 0, 0, 0, 9, 1]
  parse _ := some message

def wireInfo : AdapterInfo := ⟨1, 7, "svc", ["m"], 0⟩

theorem wire_round_trip_list_add :
    (CapsCodec.sample (ServiceMessage.monitorListAdd wireInfo).caps).write .net 32768
      (ServiceMessage.monitorListAdd wireInfo).caps = some [0, 0, 0, 0, 0, 0, 0, 9, 1] ∧
    ∃ cmd rest, (CapsCodec.sample (ServiceMessage.monitorListAdd wireInfo).caps).command
        [0, 0, 0, 0, 0, 0, 0, 9, 1] = some (cmd, rest) ∧
      (ServiceMessage.monitorListAdd wireInfo).cmdHandler cmd rest = .ok (.listAdd ⟨1, 7, "svc", 0⟩) :=
  ⟨rfl, (wire_round_trip (CapsCodec.sample (ServiceMessage.monitorListAdd wireInfo).caps) .net 32768
    [0, 0, 0, 0, 0, 0, 0, 9, 1]).2 (.monitorListAdd wireInfo) trivial rfl rfl⟩

end Flora
