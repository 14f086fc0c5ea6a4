import Flora.SerHelper
import Flora.Lib.Transition
import Mathlib.Logic.Function.Basic

/-! # The client: pending requests, blocking calls and closing

The part of `cli.cc` that decides how a call ends. One action is one section under `req_mutex`,
one `connection->send()`, one `connection->close()`, or the expiry of a timer. A call is named by
the value of `reqseq` it was made with. -/

namespace Flora

open TransitionSystem

/-- An entry of `pending_requests`. `key` names the list node, `blocking` tells that `result` is
not null, and `result` is what it points to once it has been filled. -/
structure PendingRequest where
  key : Nat
  id : Word
  rcode : Word := 0
  blocking : Bool
  result : Option Response := none

/-- Where a blocking call stands: its request is being sent, it is at the head of the loop, it
waits, its wait has expired but it does not have the lock yet, or it is over. -/
inductive CallPc where
  | sending
  | checking
  | waiting
  | expired
  | returned (retcode : Word) (reply : Option Response)
  | unsent

/-- History: a `CMD_REPLY_RESP` that was recorded for the call whose id it carries; `frame` tells
which one. -/
structure Completion where
  key : Nat
  rescode : Word
  response : Option Response
  frame : Nat

structure Client where
  reqseq : Nat := 0
  /-- `connection->closed()` -/
  connClosed : Bool := false
  closeReason : Word := 0
  pendingRequests : List PendingRequest := []
  calls : Nat → Option CallPc := fun _ => none
  /-- The call that holds `send_mutex`. -/
  sender : Option Nat := none
  /-- Calls of `iclose` that have passed its test. -/
  closers : List Word := []
  /-- Calls of `iclose` that have closed the connection. -/
  reporters : List Word := []
  /-- History: the request of every call. -/
  asked : List CallReq := []
  completions : List Completion := []

/-- The values `iclose` is called with. -/
def closeReasons : List Word := [cliEauth, cliEconn, cliEinsuffBuf, cliEclosed]

namespace Client

inductive Action where
  | beginCall (blocking : Bool) (name : String) (args : CapsPtr) (target : String) (timeout : Word)
      (fits : Bool)
  | send (ok : Bool)
  | check (key : Nat)
  | wake (key : Nat)
  | expire (key : Nat)
  | timeout (key : Nat)
  | recvReply (caps : Caps) (frame : Nat)
  | beginClose (err : Word)
  | closeConn (n : Nat)
  | closeSection (n : Nat)

variable (c : Client)

def setCall (key : Nat) (pc : CallPc) : Client :=
  { c with calls := Function.update c.calls key (some pc) }

def entry (key : Nat) : Option PendingRequest := c.pendingRequests.find? (·.key == key)

/-- Leave the loop: the entry is erased and the call returns. -/
def leave (key : Nat) (retcode : Word) (reply : Option Response) : Client :=
  { c.setCall key (.returned retcode reply) with
    pendingRequests := c.pendingRequests.filter (·.key != key) }

/-- A new id for a request. -/
def ask (name : String) (args : CapsPtr) (target : String) (timeout : Word) : Client :=
  { c with
    reqseq := c.reqseq + 1
    asked := c.asked ++ [⟨name, args, target, BitVec.ofNat 32 (c.reqseq + 1), timeout⟩] }

/-- The entry of the request with the current id, made under `send_mutex`. -/
def enlist (blocking : Bool) : Client :=
  { c with
    sender := some c.reqseq
    pendingRequests := c.pendingRequests ++
      [{ key := c.reqseq, id := BitVec.ofNat 32 c.reqseq, blocking := blocking }] }

/-- `Client::call` up to the send. The id is taken before it is known whether the request fits;
overflow of the signed counter is undefined. -/
def beginCall (blocking : Bool) (name : String) (args : CapsPtr) (target : String) (timeout : Word)
    (fits : Bool) : Option Client :=
  if c.sender ≠ none ∨ c.reqseq + 1 ≥ 2 ^ 31 then none
  else
    let c := c.ask name args target timeout
    if fits then
      let c := c.enlist blocking
      some (if blocking then c.setCall c.reqseq .sending else c)
    else some c

/-- `connection->send()` fails on a closed connection and may fail on an open one. -/
def send (ok : Bool) : Option Client :=
  match c.sender with
  | none => none
  | some key =>
    if ok && c.connClosed then none
    else
      let c : Client := { c with sender := none }
      match c.calls key with
      | some .sending => some (c.setCall key (if ok then .checking else .unsent))
      | _ => some c

/-- One pass of the loop of the blocking call, up to its wait. -/
def check (key : Nat) : Option Client :=
  match c.calls key, c.entry key with
  | some .checking, some p =>
    if p.id = 0 then some (c.leave key p.rcode p.result)
    else if c.connClosed then some (c.leave key c.closeReason p.result)
    else some (c.setCall key .waiting)
  | _, _ => none

/-- The wait ended by its time point: the loop is left without another look at the entry. -/
def timeout (key : Nat) : Option Client :=
  match c.calls key, c.entry key with
  | some .expired, some p => some (c.leave key cliEtimeout p.result)
  | _, _ => none

/-- `CMD_REPLY_RESP` in `handle_cmd_after_auth`. The id 0 is that of no call: it finds an entry which
has its reply already, and writes over it. -/
def recordReply (id rescode : Word) (response : Option Response) (frame : Nat) : Client :=
  match c.pendingRequests.find? (·.id == id) with
  | none => c
  | some p =>
    let c : Client := { c with
      completions := c.completions ++ if id = 0 then [] else [⟨p.key, rescode, response, frame⟩] }
    if p.blocking then
      { c with pendingRequests := c.pendingRequests.map fun q =>
          if q.key = p.key then
            { q with id := 0, rcode := rescode,
                     result := if rescode = cliSuccess then response else q.result }
          else q }
    else { c with pendingRequests := c.pendingRequests.filter (·.key != p.key) }

/-- The section of `iclose` under `req_mutex`: requests with a callback are ended. -/
def closeSection (err : Word) : Client :=
  { c with closeReason := err, pendingRequests := c.pendingRequests.filter (·.blocking) }

/-- The members behind the command word of a `CMD_REPLY_RESP`. -/
def recvReply (caps : Caps) (frame : Nat) : Option Client :=
  (ResponseParser.parseReply caps).map fun (id, rescode, response) =>
    c.recordReply id rescode response frame

def step : Action → Option Client
  | .beginCall blocking name args target timeout fits =>
    c.beginCall blocking name args target timeout fits
  | .send ok => c.send ok
  | .check key => c.check key
  | .wake key =>
    match c.calls key with
    | some .waiting => some (c.setCall key .checking)
    | _ => none
  | .expire key =>
    match c.calls key with
    | some .waiting => some (c.setCall key .expired)
    | _ => none
  | .timeout key => c.timeout key
  | .recvReply caps frame => c.recvReply caps frame
  | .beginClose err =>
    if c.connClosed ∨ err ∉ closeReasons then none else some { c with closers := c.closers ++ [err] }
  | .closeConn n =>
    (c.closers[n]?).map fun err => { c with
      closers := c.closers.eraseIdx n, connClosed := true, reporters := c.reporters ++ [err] }
  | .closeSection n =>
    (c.reporters[n]?).map fun err =>
      { c.closeSection err with reporters := c.reporters.eraseIdx n }

/-- A connected client that has made no call. -/
def Initial : Prop := c = {}

def system : System Client Action := System.ofStep Initial step

end Client

end Flora
