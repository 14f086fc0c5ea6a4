import Flora.SerHelper
import Flora.Lib.AssocMap

/-! # Dispatcher state

The data members of `Dispatcher`, the adapters it refers to and the write primitive every handler
ends in. An adapter is named by its identity (the address that keys `adapter_infos` and
`monitors`); a weak reference is an identity whose object may have been destroyed. -/

namespace Flora

abbrev AdapterId := Nat

structure AdapterInfo where
  id : Word
  pid : Word
  name : String
  declaredMethods : List String
  flags : Word
  deriving DecidableEq, Repr

namespace AdapterInfo

def declareMethod (info : AdapterInfo) (name : String) : AdapterInfo × Bool :=
  if name ∈ info.declaredMethods then (info, false)
  else ({ info with declaredMethods := name :: info.declaredMethods }, true)

def removeMethod (info : AdapterInfo) (name : String) : AdapterInfo :=
  { info with declaredMethods := info.declaredMethods.filter (· ≠ name) }

def hasMethod (info : AdapterInfo) (name : String) : Bool := name ∈ info.declaredMethods

def item (info : AdapterInfo) : MonitorListItem := ⟨info.id, info.pid, info.name, info.flags⟩

theorem declareMethod_refuses (info : AdapterInfo) (name : String) :
    (info.declareMethod name).2 = false ↔ name ∈ info.declaredMethods := by
  unfold declareMethod
  split <;> simp [*]

theorem mem_declareMethod (info : AdapterInfo) (name n : String) :
    n ∈ (info.declareMethod name).1.declaredMethods ↔ n = name ∨ n ∈ info.declaredMethods := by
  unfold declareMethod
  split
  · rename_i hmem
    constructor
    · exact .inr
    · rintro (rfl | hn)
      · exact hmem
      · exact hn
  · exact List.mem_cons

theorem mem_removeMethod (info : AdapterInfo) (name n : String) :
    n ∈ (info.removeMethod name).declaredMethods ↔ n ≠ name ∧ n ∈ info.declaredMethods := by
  rw [removeMethod, List.mem_filter, decide_eq_true_eq, and_comm]

end AdapterInfo

/-- The map whose node `Adapter::info` points into; the node is the one keyed by the adapter. -/
inductive InfoRef where
  | client
  | monitor
  deriving DecidableEq, Repr

structure Adapter where
  serializeFlags : ByteOrder := .host
  info : Option InfoRef := none
  tag : BitVec 64 := 0
  closed : Bool := false
  destroyed : Bool := false
  deriving DecidableEq, Repr

/-- Result of `Adapter::write`: 0, -1 or -2. -/
inductive WriteResult where
  | success
  | error
  | timeout
  deriving DecidableEq, Repr

/-- Why a call is answered: no such target or method, a reply of the target, or expiry. -/
inductive Cause where
  | refused
  | reply (sender : AdapterId) (req : ReplyReq)
  | expired

/-- History: the accepted call, by its position, and the cause of its answer. -/
structure Answer where
  call : Nat
  cause : Cause

/-- One call of `Adapter::write`. `answers` is a history variable: the call whose
`CMD_REPLY_RESP` this is. -/
structure Write where
  dest : AdapterId
  order : ByteOrder
  caps : Caps
  result : WriteResult
  answers : Option Answer

/-- `call` is a history variable: the accepted call that made the entry. -/
structure PendingCall where
  svrid : Word
  cliid : Word
  sender : AdapterId
  target : AdapterId
  discardTp : Nat
  call : Nat
  deriving DecidableEq, Repr

/-- History record of a `CMD_CALL_REQ` that `handle_call_req` parsed: who sent it, what it asked
for, and the `svrid` and adapter it was forwarded with, if its target existed. -/
structure Call where
  sender : AdapterId
  req : CallReq
  forward : Option (Word × AdapterId)

/-- `std::map` from names or adapters. -/
abbrev NameMap (β : Type) := AList fun _ : String => β
abbrev AdapterInfoMap := AList fun _ : AdapterId => AdapterInfo

structure Dispatcher where
  subscriptions : NameMap (List AdapterId) := ∅
  persistMsgs : NameMap CapsPtr := ∅
  namedAdapters : NameMap AdapterId := ∅
  pendingCalls : List PendingCall := []
  reqseq : Nat := 0
  adapterInfos : AdapterInfoMap := ∅
  monitors : AdapterInfoMap := ∅
  handleCmdTp : Nat := 0
  clearSubPrio : Nat := 0
  /-- `AdapterInfo::idseq`, as the number of constructor calls. -/
  idseq : Nat := 0
  adapters : AdapterId → Adapter := fun _ => {}
  /-- History: every write, in order. -/
  out : List Write := []
  /-- History: every parsed `CMD_CALL_REQ`, in order. -/
  calls : List Call := []

/-- What a dispatcher does not control: its constructor arguments, the size of a serialized
container and the result the operating system gives to the n-th write. -/
structure Env where
  msgBufSize : Nat
  flags : Word
  capsSize : ByteOrder → Caps → Nat
  os : Nat → WriteResult

namespace Env

def bufSize (e : Env) : Nat :=
  if e.msgBufSize > defaultMsgBufSize then e.msgBufSize else defaultMsgBufSize

/-- The serializers return a length (and not -1): it is a non-negative `int32_t` within the
buffer. -/
def fits (e : Env) (order : ByteOrder) (caps : Caps) : Bool :=
  e.capsSize order caps < 2 ^ 31 ∧ e.capsSize order caps ≤ e.bufSize

end Env

namespace Dispatcher

variable (e : Env) (d : Dispatcher)

/-- The record `a->info` points to, if the pointer is neither null nor dangling. -/
def deref (a : AdapterId) : Option AdapterInfo :=
  match (d.adapters a).info with
  | none => none
  | some .client => d.adapterInfos.lookup a
  | some .monitor => d.monitors.lookup a

/-- `a->info ? a->info->name.c_str() : ""` does not read freed memory. -/
def nameReadable (a : AdapterId) : Bool :=
  (d.adapters a).info = none ∨ (d.deref a).isSome

/-- `weak_ptr::lock` yields the adapter. -/
def alive (a : AdapterId) : Bool := !(d.adapters a).destroyed

/-- Neither closed nor destroyed. -/
def live (a : AdapterId) : Bool := !(d.adapters a).destroyed && !(d.adapters a).closed

def setAdapter (a : AdapterId) (x : Adapter) : Dispatcher :=
  { d with adapters := Function.update d.adapters a x }

def close (a : AdapterId) : Dispatcher := d.setAdapter a { d.adapters a with closed := true }

/-- Store a changed record through the adapter's info pointer. -/
def setInfo (a : AdapterId) (info : AdapterInfo) : Dispatcher :=
  match (d.adapters a).info with
  | none => d
  | some .client => { d with adapterInfos := d.adapterInfos.insert a info }
  | some .monitor => { d with monitors := d.monitors.insert a info }

def logWrite (w : Write) : Dispatcher := { d with out := d.out ++ [w] }

/-- `SocketAdapter::write`: a closed adapter writes nothing, a failing write closes it. -/
def write (a : AdapterId) (order : ByteOrder) (caps : Caps) (answers : Option Answer) :
    Dispatcher × WriteResult :=
  if (d.adapters a).closed then
    (d.logWrite ⟨a, order, caps, .error, answers⟩, .error)
  else
    match e.os d.out.length with
    | .success => (d.logWrite ⟨a, order, caps, .success, answers⟩, .success)
    | r => ((d.close a).logWrite ⟨a, order, caps, r, answers⟩, r)

/-- A write followed by the log line for a timeout, which reads the names of `readers`. -/
def writeLogged (a : AdapterId) (order : ByteOrder) (caps : Caps) (answers : Option Answer)
    (readers : List AdapterId) : Option Dispatcher :=
  if (d.write e a order caps answers).2 = .timeout ∧ ¬ readers.all (nameReadable d) then none
  else some (d.write e a order caps answers).1

end Dispatcher

end Flora
