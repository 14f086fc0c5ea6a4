import Flora.Defs
import Flora.Lib.Buffer
import Flora.Lib.Framing
import Flora.Lib.Transition

/-! # Receiving on the client side

`Client::recv_loop` and `handle_received`. The command handler is a parameter: it changes a state
of its own and accepts or rejects a message. Whatever it does, and however the input is cut into
reads, it is handed the messages that `recvProtocol` cuts from the whole stream. -/

namespace Flora

open TransitionSystem Framing

universe u

/-- Where the receive thread stands: at the head of `recv_loop`, in the loop of `handle_received`
with its `size` and `off`, or behind the loop with the error it closes the client with. -/
inductive RecvPc where
  | receiving
  | handling (size off : Word)
  | stopped (err : Word)
  deriving DecidableEq, Repr

/-- `state` belongs to the command handler; `handed` is a history of its arguments. -/
structure RecvThread (σ : Type u) where
  rbuffer : List Byte
  bufsize : Word
  rbufOff : Word := 0
  pc : RecvPc := .receiving
  state : σ
  handed : List (Word × Caps) := []
  /-- History: the bytes that were read. -/
  received : List Byte := []

/-- The way a `cmd_handler` takes a command word and the members behind it. -/
abbrev CmdHandler (σ : Type u) := σ → Word → Caps → σ × Bool

namespace RecvThread

variable {σ : Type u}

/-- `authWaiting` tells that `auth_result` is not null when it is looked at. -/
inductive Action where
  | recv (received : Option (List Byte)) (authWaiting : Bool)
  | handle (authWaiting : Bool)

variable (f : CapsFormat) (cmdHandler : CmdHandler σ) (r : RecvThread σ)

def stop (err : Word) : RecvThread σ := { r with pc := .stopped err }

/-- The error of a failed read and of a rejected frame. -/
def failure (authWaiting : Bool) : Word := if authWaiting then cliEauth else cliEconn

/-- One turn of `recv_loop` up to `handle_received`. `recv` stores no more than it is asked for;
its result is not positive when nothing was stored. -/
def recv (received : Option (List Byte)) (authWaiting : Bool) : Option (RecvThread σ) :=
  if r.pc = .receiving then
    if r.rbufOff = r.bufsize then some (r.stop cliEinsuffBuf)
    else if (received.getD []).length ≤ (r.bufsize - r.rbufOff).toNat then
      match received with
      | some (b :: bs) => some { r with
          rbuffer := Buffer.store r.rbuffer r.rbufOff.toNat (b :: bs)
          pc := .handling (r.rbufOff + BitVec.ofNat 32 (b :: bs).length) 0
          received := r.received ++ (b :: bs) }
      | _ => some (r.stop (failure authWaiting))
    else none
  else none

/-- The end of `handle_received`. -/
def finish (size off : Word) : RecvThread σ := { r with
  rbuffer := if 0 < off ∧ 0 < size - off then
    Buffer.moveFront r.rbuffer off.toNat (size - off).toNat else r.rbuffer
  rbufOff := size - off
  pc := .receiving }

/-- What is done with a complete frame. -/
def handleFrame (size off length : Word) (authWaiting : Bool) : RecvThread σ :=
  match f.parse (Buffer.slice r.rbuffer off.toNat length.toNat) with
  | none => r.stop (failure authWaiting)
  | some caps =>
    match caps.readWord with
    | none => r.stop (failure authWaiting)
    | some (cmd, resp) =>
      let (state, ok) := cmdHandler r.state cmd resp
      { r with
        state := state
        handed := r.handed ++ [(cmd, resp)]
        pc := if ok then .handling size (off + length) else .stopped (failure authWaiting) }

/-- One turn of the loop of `handle_received`. The comparisons are unsigned, as `off` is. -/
def handle (authWaiting : Bool) : Option (RecvThread σ) :=
  match r.pc with
  | .handling size off =>
    if off < size then
      if size - off < BitVec.ofNat 32 headerSize then some (r.finish size off)
      else match f.binaryInfo (Buffer.slice r.rbuffer off.toNat headerSize) with
      | none => some (r.stop (failure authWaiting))
      | some length =>
        if size - off < length then some (r.finish size off)
        else some (r.handleFrame f cmdHandler size off length authWaiting)
    else some (r.finish size off)
  | _ => none

def step : Action → Option (RecvThread σ)
  | .recv received authWaiting => r.recv received authWaiting
  | .handle authWaiting => r.handle f cmdHandler authWaiting

/-- A client whose receive thread has just been started. -/
def Initial (bufsize : Word) (state : σ) : Prop :=
  ∃ rbuffer, rbuffer.length = bufsize.toNat ∧ r = { rbuffer, bufsize, state }

def system (bufsize : Word) (state : σ) : System (RecvThread σ) Action :=
  System.ofStep (Initial · bufsize state) (step f cmdHandler)

end RecvThread

/-- Cutting by header length, parsing a frame and handing it over. The consumer's state is that of
the command handler with the list of messages it was handed. -/
def recvProtocol {σ : Type u} (f : CapsFormat) (cmdHandler : CmdHandler σ) :
    Protocol Byte Unit (σ × List (Word × Caps)) where
  headerSize := headerSize
  headerSize_pos := zero_lt_headerSize
  frameLength header :=
    match f.binaryInfo header with
    | none => .error ()
    | some length => .ok length.toNat
  deliver s frame :=
    match (f.parse frame).bind Caps.readWord with
    | none => (s, false)
    | some (cmd, resp) =>
      (((cmdHandler s.1 cmd resp).1, s.2 ++ [(cmd, resp)]), (cmdHandler s.1 cmd resp).2)
  rejects_short s frame h := by
    rw [f.parse_short frame h]
    rfl

end Flora
