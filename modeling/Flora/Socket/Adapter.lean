import Flora.Caps
import Flora.Lib.Buffer
import Flora.Lib.Framing
import Flora.Lib.Transition

/-! # Receiving on the service side

`SocketAdapter::read` and `next_frame` and the loop of `SocketPoll::do_read` that passes the frames
to `Dispatcher::put`. -/

namespace Flora

open TransitionSystem

/-- `SOCK_ADAPTER_SUCCESS` and the error codes of `sock-adap.h`. -/
inductive AdapterStatus where
  | success
  | eclosed
  | enomore
  | eproto
  | enobuf
  deriving DecidableEq, Repr

/-- A range of the adapter's buffer. -/
structure Frame where
  start : Word
  size : Word
  deriving DecidableEq, Repr

/-- `buffer` is null once the adapter is closed. -/
structure SocketAdapter where
  buffer : Option (List Byte)
  bufSize : Word
  curSize : Word := 0
  frameBegin : Word := 0

namespace SocketAdapter

variable (f : CapsFormat) (x : SocketAdapter)

/-- `received` is what `::read` stored: nothing at the end of the stream, `none` on an error. -/
def read (received : Option (List Byte)) : SocketAdapter × AdapterStatus :=
  match x.buffer, received with
  | some buffer, some (b :: bs) =>
    ({ x with
      buffer := some (Buffer.store buffer x.curSize.toNat (b :: bs))
      curSize := x.curSize + BitVec.ofNat 32 (b :: bs).length }, .success)
  | _, _ => (x, .eclosed)

/-- The end of `next_frame` at its label `nomore`: the bytes that are left are moved to the front
of the buffer. -/
def nomore (buffer : List Byte) (sz : Word) : SocketAdapter × Except AdapterStatus Frame :=
  ({ x with
    buffer := some (if x.frameBegin < x.curSize then
      Buffer.moveFront buffer x.frameBegin.toNat sz.toNat else buffer)
    frameBegin := 0
    curSize := sz }, .error .enomore)

def nextFrame : SocketAdapter × Except AdapterStatus Frame :=
  match x.buffer with
  | none => (x, .error .eclosed)
  | some buffer =>
    let sz := x.curSize - x.frameBegin
    if sz < BitVec.ofNat 32 headerSize then x.nomore buffer sz
    else match f.binaryInfo (Buffer.slice buffer x.frameBegin.toNat headerSize) with
    | none => (x, .error .eproto)
    | some length =>
      if length > x.bufSize then (x, .error .enobuf)
      else if length > sz then x.nomore buffer sz
      else ({ x with frameBegin := x.frameBegin + length }, .ok ⟨x.frameBegin, length⟩)

/-- The bytes that have been read and not been passed on. -/
def pending : List Byte :=
  Buffer.slice (x.buffer.getD []) x.frameBegin.toNat (x.curSize.toNat - x.frameBegin.toNat)

/-- The data of a frame. -/
def frameData (frame : Frame) : List Byte :=
  Buffer.slice (x.buffer.getD []) frame.start.toNat frame.size.toNat

end SocketAdapter

/-- Why `do_read` returns false: the read or `next_frame` failed, or `put` did. -/
inductive ReadFailure where
  | closed
  | frame (status : AdapterStatus)
  | put
  deriving DecidableEq, Repr

/-- Where the poll thread stands with a connection: before the read, in the loop over the frames,
or behind a `do_read` that failed. -/
inductive ReadPc where
  | reading
  | framing
  | failed (reason : ReadFailure)
  deriving DecidableEq, Repr

structure Connection where
  adapter : SocketAdapter
  pc : ReadPc := .reading
  /-- History: the bytes that were read. -/
  received : List Byte := []
  /-- History: the arguments of every `Dispatcher::put`. -/
  puts : List (Frame × List Byte) := []

namespace Connection

inductive Action where
  | read (received : Option (List Byte))
  | nextFrame

variable (f : CapsFormat) (c : Connection)

def frames : List (List Byte) := c.puts.map Prod.snd

/-- The size passed to `::read`. -/
def free : Word := c.adapter.bufSize - c.adapter.curSize

/-- The first part of `do_read`; `::read` stores no more than it is asked for. -/
def doRead (received : Option (List Byte)) : Option Connection :=
  if c.pc = .reading ∧ (received.getD []).length ≤ c.free.toNat then
    match c.adapter.read received with
    | (x, .success) => some { c with
        adapter := x, pc := .framing, received := c.received ++ received.getD [] }
    | (x, _) => some { c with adapter := x, pc := .failed .closed }
  else none

/-- One turn of the loop of `do_read`. `put` fails when the frame cannot be parsed. -/
def doFrame : Option Connection :=
  if c.pc = .framing then
    match c.adapter.nextFrame f with
    | (x, .ok frame) =>
      let data := x.frameData frame
      some { c with
        adapter := x
        pc := if (f.parse data).isSome then .framing else .failed .put
        puts := c.puts ++ [(frame, data)] }
    | (x, .error .enomore) => some { c with adapter := x, pc := .reading }
    | (x, .error status) => some { c with adapter := x, pc := .failed (.frame status) }
  else none

def step : Action → Option Connection
  | .read received => c.doRead received
  | .nextFrame => c.doFrame f

/-- A connection that has just been accepted. -/
def Initial (bufSize : Word) : Prop :=
  ∃ buffer, buffer.length = bufSize.toNat ∧ c = { adapter := { buffer := some buffer, bufSize } }

def system (bufSize : Word) : System Connection Action := System.ofStep (Initial · bufSize) (step f)

end Connection

end Flora
