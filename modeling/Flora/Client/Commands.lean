import Flora.SerHelper

/-! # Commands received by the client

`handle_cmd_before_auth`, `handle_cmd_after_auth` and the table `monitor_handlers`: which parser a
command word selects and what the parsed fields are handed to. -/

namespace Flora

open ResponseParser (ParseError)

/-- What a handler of the receive thread hands on: the result to the thread in `auth`, a message to
a callback, a reply to the pending requests. -/
inductive Received where
  | auth (result version : Word)
  | post (name : String) (msgtype : Word) (args : CapsPtr) (tag : BitVec 64) (cliname : String)
  | call (name : String) (args : CapsPtr) (id : Word) (tag : BitVec 64) (cliname : String)
  | reply (id rescode : Word) (response : Option Response) (tag : BitVec 64)
  | listAll (infos : List MonitorListItem)
  | listAdd (info : MonitorListItem)
  | listRemove (id : Word)
  | pong
  /-- A monitor message of a client without a monitor callback. -/
  | unwatched

namespace Client

/-- The handler returns false when its parser does not return 0. -/
def orInvalid {α : Type} : Option α → Except ParseError α
  | none => .error .invalid
  | some a => .ok a

theorem of_orInvalid_map {α β : Type} {parsed : Option α} {f : α → β} {b : β}
    (h : orInvalid (parsed.map f) = .ok b) : ∃ a, b = f a := by
  cases parsed with
  | none => cases h
  | some a =>
    cases h
    exact ⟨a, rfl⟩

def handleCmdBeforeAuth (cmd : Word) (resp : Caps) : Except ParseError Received :=
  if cmd = cmdAuthResp then
    orInvalid <| (ResponseParser.parseAuth resp).map fun (result, version) => .auth result version
  else .error .invalid

def handleMonitorListAll (resp : Caps) : Except ParseError Received :=
  (ResponseParser.parseMonitorListAll resp).map .listAll

def handleMonitorListAdd (resp : Caps) : Except ParseError Received :=
  (ResponseParser.parseMonitorListAdd resp).map .listAdd

def handleMonitorListRemove (resp : Caps) : Except ParseError Received :=
  orInvalid <| (ResponseParser.parseMonitorListRemove resp).map .listRemove

/-- `monitor_handlers[subtype]`. Subtypes outside the table are rejected, and so are the other ones
of the table, whose parsers all return -1. -/
def monitorHandler (subtype : Word) (resp : Caps) : Except ParseError Received :=
  if subtype = monitorListAll then handleMonitorListAll resp
  else if subtype = monitorListAdd then handleMonitorListAdd resp
  else if subtype = monitorListRemove then handleMonitorListRemove resp
  else .error .invalid

/-- `monitored` tells that `mon_callback` is not null. -/
def handleCmdAfterAuth (monitored : Bool) (cmd : Word) (resp : Caps) : Except ParseError Received :=
  if cmd = cmdPostResp then
    orInvalid <| (ResponseParser.parsePost resp).map fun (name, msgtype, args, tag, cliname) =>
      .post name msgtype args tag cliname
  else if cmd = cmdCallResp then
    orInvalid <| (ResponseParser.parseCall resp).map fun (name, args, id, tag, cliname) =>
      .call name args id tag cliname
  else if cmd = cmdReplyResp then
    orInvalid <| (ResponseParser.parseTaggedReply resp).map fun (id, rescode, response, tag) =>
      .reply id rescode response tag
  else if cmd = cmdMonitorResp then
    if monitored then
      match resp.readWord with
      | none => .error .invalid
      | some (subtype, resp) => monitorHandler subtype resp
    else .ok .unwatched
  else if cmd = cmdPongResp then .ok .pong
  else .error .invalid

end Client

end Flora
