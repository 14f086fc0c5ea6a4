import Flora.Defs

/-! # Message layouts

`ser-helper.cc`: the member list each serializer writes and the fields each parser reads back.
Whether a list fits a buffer is decided where it is serialized. -/

namespace Flora

/-- The `Response` of `flora-cli.h`. -/
structure Response where
  retCode : Word
  data : CapsPtr
  extra : String

/-- The fields of an `AdapterInfo` that a monitor is told. -/
structure MonitorListItem where
  id : Word
  pid : Word
  name : String
  flags : Word
  deriving DecidableEq, Repr

namespace RequestSerializer

def serializeAuth (version : Word) (extra : String) (pid flags : Word) : Caps :=
  [.i32 cmdAuthReq, .i32 version, .str extra, .i32 pid, .i32 flags]

def serializeSubscribe (name : String) : Caps := [.i32 cmdSubscribeReq, .str name]

def serializeUnsubscribe (name : String) : Caps := [.i32 cmdUnsubscribeReq, .str name]

def serializeDeclareMethod (name : String) : Caps := [.i32 cmdDeclareMethodReq, .str name]

def serializeRemoveMethod (name : String) : Caps := [.i32 cmdRemoveMethodReq, .str name]

def serializePost (name : String) (msgtype : Word) (args : CapsPtr) : Caps :=
  [.i32 cmdPostReq, .i32 msgtype, .str name, .obj args]

def serializeCall (name : String) (args : CapsPtr) (target : String) (id timeout : Word) : Caps :=
  [.i32 cmdCallReq, .str name, .str target, .i32 id, .i32 timeout, .obj args]

def serializeReply (id code : Word) (values : CapsPtr) : Caps :=
  [.i32 cmdReplyReq, .i32 id, .i32 code, .obj values]

def serializePing : Caps := [.i32 cmdPingReq]

end RequestSerializer

namespace ResponseSerializer

def serializeAuth (result version : Word) : Caps :=
  [.i32 cmdAuthResp, .i32 result, .i32 version]

def serializePost (name : String) (msgtype : Word) (args : CapsPtr) (tag : BitVec 64)
    (cliname : String) : Caps :=
  [.i32 cmdPostResp, .i32 msgtype, .str name, .obj args, .i64 tag, .str cliname]

def serializeCall (name : String) (args : CapsPtr) (id : Word) (tag : BitVec 64)
    (cliname : String) : Caps :=
  [.i32 cmdCallResp, .i32 id, .str name, .obj args, .i64 tag, .str cliname]

/-- The response is written on `FLORA_CLI_SUCCESS` only; error replies pass a null one. -/
def serializeReply (id rescode : Word) (reply : Option Response) (tag : BitVec 64) : Caps :=
  [.i32 cmdReplyResp, .i32 id, .i32 rescode] ++
    (if rescode = cliSuccess then
      reply.elim [] fun r => [.i32 r.retCode, .obj r.data, .str r.extra] else []) ++ [.i64 tag]

def serializeMonitorListItem (info : MonitorListItem) : Caps :=
  [.i32 info.id, .i32 info.pid, .str info.name, .i32 info.flags]

def serializeMonitorListAll (infos : List MonitorListItem) : Caps :=
  [.i32 cmdMonitorResp, .i32 monitorListAll, .i32 (BitVec.ofNat 32 infos.length)] ++
    infos.map fun info => .obj (some (serializeMonitorListItem info))

def serializeMonitorListAdd (info : MonitorListItem) : Caps :=
  [.i32 cmdMonitorResp, .i32 monitorListAdd, .obj (some (serializeMonitorListItem info))]

def serializeMonitorListRemove (id : Word) : Caps :=
  [.i32 cmdMonitorResp, .i32 monitorListRemove, .i32 id]

def serializePong : Caps := [.i32 cmdPongResp]

end ResponseSerializer

structure AuthReq where
  version : Word
  extra : String
  pid : Word
  flags : Word
  deriving DecidableEq, Repr

structure PostReq where
  name : String
  msgtype : Word
  args : CapsPtr

structure CallReq where
  name : String
  args : CapsPtr
  target : String
  id : Word
  timeout : Word

structure ReplyReq where
  id : Word
  code : Word
  values : CapsPtr

namespace RequestParser

/-- `pid` and `flags` default to 0 when they cannot be read. -/
def parseAuth (caps : Caps) : Option AuthReq := do
  let (version, caps) ← caps.readWord
  let (extra, caps) ← caps.readString
  let (pid, caps) := caps.readWord.getD (0, caps)
  let (flags, _) := caps.readWord.getD (0, caps)
  return ⟨version, extra, pid, flags⟩

/-- The four requests that carry a name and nothing else. -/
def parseName (caps : Caps) : Option String := do
  let (name, _) ← caps.readString
  return name

def parseSubscribe : Caps → Option String := parseName

def parseUnsubscribe : Caps → Option String := parseName

def parseDeclareMethod : Caps → Option String := parseName

def parseRemoveMethod : Caps → Option String := parseName

def parsePost (caps : Caps) : Option PostReq := do
  let (msgtype, caps) ← caps.readWord
  let (name, caps) ← caps.readString
  let (args, _) ← caps.readCaps
  return ⟨name, msgtype, args⟩

def parseCall (caps : Caps) : Option CallReq := do
  let (name, caps) ← caps.readString
  let (target, caps) ← caps.readString
  let (id, caps) ← caps.readWord
  let (timeout, caps) ← caps.readWord
  let (args, _) ← caps.readCaps
  return ⟨name, args, target, id, timeout⟩

def parseReply (caps : Caps) : Option ReplyReq := do
  let (id, caps) ← caps.readWord
  let (code, caps) ← caps.readWord
  let (values, _) ← caps.readCaps
  return ⟨id, code, values⟩

end RequestParser

namespace ResponseParser

def parsePost (caps : Caps) : Option (String × Word × CapsPtr × BitVec 64 × String) := do
  let (msgtype, caps) ← caps.readWord
  let (name, caps) ← caps.readString
  let (args, caps) ← caps.readCaps
  let (tag, caps) ← caps.readLong
  let (cliname, _) ← caps.readString
  return (name, msgtype, args, tag, cliname)

def parseCall (caps : Caps) : Option (String × CapsPtr × Word × BitVec 64 × String) := do
  let (id, caps) ← caps.readWord
  let (name, caps) ← caps.readString
  let (args, caps) ← caps.readCaps
  let (tag, caps) ← caps.readLong
  let (cliname, _) ← caps.readString
  return (name, args, id, tag, cliname)

/-- Id, result code and, on success only, the response. -/
def parseReply (caps : Caps) : Option (Word × Word × Option Response) := do
  let (id, caps) ← caps.readWord
  let (rescode, caps) ← caps.readWord
  if rescode = cliSuccess then
    let (retCode, caps) ← caps.readWord
    let (data, caps) ← caps.readCaps
    let (extra, caps) ← caps.readString
    let _ ← caps.readLong
    return (id, rescode, some ⟨retCode, data, extra⟩)
  else
    let _ ← caps.readLong
    return (id, rescode, none)

theorem parseReply_response {caps : Caps} {id rescode : Word} {response : Option Response}
    (h : parseReply caps = some (id, rescode, response)) :
    response.isSome = true ↔ rescode = cliSuccess := by
  simp only [parseReply, Option.bind_eq_bind, Option.pure_def] at h
  obtain ⟨⟨id', caps₁⟩, _, h⟩ := Option.bind_eq_some_iff.mp h
  obtain ⟨⟨rescode', caps₂⟩, _, h⟩ := Option.bind_eq_some_iff.mp h
  dsimp only at h
  split at h
  · rename_i hcode
    obtain ⟨⟨retCode, caps₃⟩, _, h⟩ := Option.bind_eq_some_iff.mp h
    obtain ⟨⟨data, caps₄⟩, _, h⟩ := Option.bind_eq_some_iff.mp h
    obtain ⟨⟨extra, caps₅⟩, _, h⟩ := Option.bind_eq_some_iff.mp h
    obtain ⟨_, _, h⟩ := Option.bind_eq_some_iff.mp h
    cases h
    exact ⟨fun _ => hcode, fun _ => rfl⟩
  · rename_i hcode
    obtain ⟨_, _, h⟩ := Option.bind_eq_some_iff.mp h
    cases h
    exact ⟨nofun, fun heq => absurd heq hcode⟩

theorem parseReply_error (id rescode : Word) (tag : BitVec 64) (h : rescode ≠ cliSuccess) :
    parseReply (ResponseSerializer.serializeReply id rescode none tag).tail =
      some (id, rescode, none) := by
  simp [parseReply, ResponseSerializer.serializeReply, h]

/-- `parse_reply` with the tag it ends with. -/
def parseTaggedReply (caps : Caps) : Option (Word × Word × Option Response × BitVec 64) := do
  let (id, caps) ← caps.readWord
  let (rescode, caps) ← caps.readWord
  if rescode = cliSuccess then
    let (retCode, caps) ← caps.readWord
    let (data, caps) ← caps.readCaps
    let (extra, caps) ← caps.readString
    let (tag, _) ← caps.readLong
    return (id, rescode, some ⟨retCode, data, extra⟩, tag)
  else
    let (tag, _) ← caps.readLong
    return (id, rescode, none, tag)

theorem parseReply_eq_parseTaggedReply (caps : Caps) :
    parseReply caps = (parseTaggedReply caps).map fun (id, rescode, response, _) =>
      (id, rescode, response) := by
  simp only [parseReply, parseTaggedReply, Option.bind_eq_bind, Option.pure_def, Option.map_bind,
    Function.comp_def]
  congr 1
  funext ⟨id, caps⟩
  congr 1
  funext ⟨rescode, caps⟩
  dsimp only
  split
  · simp only [Option.map_bind, Function.comp_def, Option.map_some]
  · simp only [Option.map_bind, Function.comp_def, Option.map_some]

def parseAuth (caps : Caps) : Option (Word × Word) := do
  let (result, caps) ← caps.readWord
  let (version, _) ← caps.readWord
  return (result, version)

/-- How the parsers of monitor lists fail: they return -1, or they read through the null pointer
that a null container is read as. -/
inductive ParseError where
  | invalid
  | nullCaps
  deriving DecidableEq, Repr

/-- The fields of a list item, in the order they are read from its container. -/
def parseMonitorListFields (sub : Caps) : Option MonitorListItem := do
  let (id, sub) ← sub.readWord
  let (pid, sub) ← sub.readWord
  let (name, sub) ← sub.readString
  let (flags, _) ← sub.readWord
  return ⟨id, pid, name, flags⟩

def parseMonitorListItem : CapsPtr → Except ParseError MonitorListItem
  | none => .error .nullCaps
  | some sub =>
    match parseMonitorListFields sub with
    | none => .error .invalid
    | some item => .ok item

/-- The loop of `parse_monitor_list_all`: it ends at the first member that is not a container. -/
def parseMonitorListItems : Caps → Except ParseError (List MonitorListItem)
  | .obj sub :: rest => do
    let item ← parseMonitorListItem sub
    let infos ← parseMonitorListItems rest
    return item :: infos
  | _ => .ok []

def parseMonitorListAll (caps : Caps) : Except ParseError (List MonitorListItem) :=
  match caps.readWord with
  | none => .error .invalid
  | some (size, rest) =>
    if size = 0 then .ok []
    else do
      let infos ← parseMonitorListItems rest
      if infos.length = size.toNat then return infos else throw .invalid

def parseMonitorListAdd (caps : Caps) : Except ParseError MonitorListItem :=
  match caps.readCaps with
  | none => .error .invalid
  | some (sub, _) => parseMonitorListItem sub

def parseMonitorListRemove (caps : Caps) : Option Word := do
  let (id, _) ← caps.readWord
  return id

/-- Every list item is read back, in order. -/
theorem parseMonitorListItems_serialized (infos : List MonitorListItem) :
    parseMonitorListItems (infos.map fun info =>
      .obj (some (ResponseSerializer.serializeMonitorListItem info))) = .ok infos := by
  induction infos with
  | nil => rfl
  | cons info infos ih =>
    rw [List.map_cons, parseMonitorListItems, ih]
    rfl

theorem parseMonitorListAll_serialized (infos : List MonitorListItem) (h : infos.length < 2 ^ 32) :
    parseMonitorListAll ((ResponseSerializer.serializeMonitorListAll infos).drop 2) = .ok infos := by
  have hread : Caps.readWord ((ResponseSerializer.serializeMonitorListAll infos).drop 2) =
      some (BitVec.ofNat 32 infos.length, infos.map fun info =>
        .obj (some (ResponseSerializer.serializeMonitorListItem info))) := rfl
  simp only [parseMonitorListAll, hread, parseMonitorListItems_serialized]
  split
  · rename_i hzero
    have hlength : infos.length = 0 := Word.ofNat_inj h (by omega) hzero
    rw [List.length_eq_zero_iff.mp hlength]
  · change (if infos.length = (BitVec.ofNat 32 infos.length).toNat then _ else _) = _
    rw [if_pos (Word.toNat_ofNat h).symm]
    rfl

end ResponseParser

end Flora
