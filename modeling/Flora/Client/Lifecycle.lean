import Flora.Lib.Transition

/-! # The threads of a client

`recv_loop`, `keepalive_loop`, `iclose` and `close` after `auth` has returned, with the last steps
of `connect`. One action is one section under `ka_mutex` or `req_mutex`, one call on the connection,
one callback, or one test. `ka_mutex` is held by the keepalive thread from its wake-up to its next
wait. `SocketConn::send` holds `write_mutex` while it is in `::write`, which may wait for the service
to read, and `SocketConn::close` and the test in `SocketConn::recv` wait for that mutex. Calls of
`close` follow one another, and none is made by the receive thread, which gets
`FLORA_CLI_EDEADLOCK`. Both callbacks have been given. -/

namespace Flora

open TransitionSystem

/-- Where a call of `iclose` stands: at its test, at `connection->close()`, at the section under
`req_mutex` with the callbacks of the pending calls, or at the section under `ka_mutex`. -/
inductive IclosePc where
  | testing
  | shutting
  | failing
  | notifying
  deriving DecidableEq, Repr

/-- The receive thread is at the head of its loop, in `read`, in `handle_received`, in `iclose`, or
at the `disconnected` callbacks. -/
inductive RecvLoopPc where
  | head
  | reading
  | handling
  | closing (pc : IclosePc)
  | reporting
  | exited
  deriving DecidableEq, Repr

/-- The places of a turn that has not found the connection at its end. -/
def RecvLoopPc.turning (pc : RecvLoopPc) : Bool :=
  pc = .head || pc = .reading || pc = .handling || pc = .closing .testing

theorem RecvLoopPc.ne_of_turning {pc : RecvLoopPc} (h : pc.turning = true) :
    pc ≠ .closing .shutting ∧ pc ≠ .closing .failing ∧ pc ≠ .closing .notifying ∧
      pc ≠ .reporting ∧ pc ≠ .exited := by
  refine ⟨?_, ?_, ?_, ?_, ?_⟩ <;> rintro rfl <;> cases h

/-- The keepalive thread takes `ka_mutex`, after a wait that ended by its time or did not; it tests
the connection, waits on `ka_cond`, comes to `connection->send` in `ping`, or is in its `::write`. -/
inductive KeepaliveLoopPc where
  | absent
  | locking (timeout : Bool)
  | testing
  | waiting
  | pinging
  | writing
  | exited
  deriving DecidableEq, Repr

/-- The thread that calls `connect` and `close`: `auth` has returned, the keepalive thread has been
started, the client is in use, or `close` is running. -/
inductive OwnerPc where
  | authed
  | starting
  | idle
  | closing (pc : IclosePc)
  | joiningRecv
  | joiningKeepalive
  deriving DecidableEq, Repr

/-- The turns a thread has left once the connection is closed. -/
def RecvLoopPc.left : RecvLoopPc → Nat
  | .head => 2
  | .reading => 4
  | .handling => 3
  | .closing .testing => 1
  | .closing .shutting => 4
  | .closing .failing => 3
  | .closing .notifying => 2
  | .reporting => 1
  | .exited => 0

theorem RecvLoopPc.left_le (pc : RecvLoopPc) : pc.left ≤ 4 := by
  unfold left
  split <;> decide

def KeepaliveLoopPc.left : KeepaliveLoopPc → Nat
  | .absent => 0
  | .waiting => 4
  | .locking true => 3
  | .locking false => 2
  | .pinging => 2
  | .writing => 2
  | .testing => 1
  | .exited => 0

theorem KeepaliveLoopPc.left_le (pc : KeepaliveLoopPc) : pc.left ≤ 4 := by
  unfold left
  split <;> decide

def OwnerPc.left : OwnerPc → Nat
  | .authed => 4
  | .starting => 1
  | .closing .testing => 6
  | .closing .shutting => 5
  | .closing .failing => 4
  | .closing .notifying => 3
  | .joiningRecv => 2
  | .joiningKeepalive => 1
  | .idle => 0

theorem OwnerPc.left_le (pc : OwnerPc) : pc.left ≤ 6 := by
  unfold left
  split <;> decide

structure ClientThreads where
  /-- `connection->closed()` -/
  connClosed : Bool := false
  /-- `cli_callback` is not null. -/
  callback : Bool := false
  recv : RecvLoopPc := .handling
  keepalive : KeepaliveLoopPc := .absent
  owner : OwnerPc := .authed
  /-- Another thread, or the receive thread in a callback, is in the `::write` of a send. -/
  sending : Bool := false
  /-- History: the calls of `close` that have returned, and the calls of `disconnected`, of
  `cli_callback` and of `mon_callback`. -/
  closes : Nat := 0
  disconnects : Nat := 0
  monDisconnects : Nat := 0
  /-- History: the receive thread has closed the connection itself. -/
  lost : Bool := false
  deriving DecidableEq, Repr

namespace ClientThreads

inductive Action where
  /-- A turn of the receive thread; `ok` tells that a call on the connection or the handling of what
  was read has succeeded. -/
  | recv (ok : Bool)
  | keepalive
  /-- The wait on `ka_cond` ends by itself. -/
  | expire (timeout : Bool)
  | owner
  | close
  | send
  /-- The `::write` in progress returns. -/
  | written
  deriving DecidableEq, Repr

variable (t : ClientThreads)

/-- `ka_mutex` is taken by the keepalive thread. -/
def kaLocked : Bool :=
  t.keepalive = .testing || t.keepalive = .pinging || t.keepalive = .writing

/-- `write_mutex` is taken. -/
def writeLocked : Bool := t.keepalive = .writing || t.sending

@[simps connClosed callback recv owner sending closes disconnects monDisconnects lost]
def notifyKeepalive : ClientThreads :=
  { t with keepalive := if t.keepalive = .waiting then .locking false else t.keepalive }

@[simp]
theorem notifyKeepalive_ne_waiting : t.notifyKeepalive.keepalive ≠ .waiting := by
  unfold notifyKeepalive
  by_cases h : t.keepalive = .waiting <;> simp [h]

@[simp]
theorem notifyKeepalive_absent : t.notifyKeepalive.keepalive = .absent ↔ t.keepalive = .absent := by
  unfold notifyKeepalive
  by_cases h : t.keepalive = .waiting <;> simp [h]

@[simp]
theorem notifyKeepalive_exited : t.notifyKeepalive.keepalive = .exited ↔ t.keepalive = .exited := by
  unfold notifyKeepalive
  by_cases h : t.keepalive = .waiting <;> simp [h]

@[simp]
theorem notifyKeepalive_writing : t.notifyKeepalive.keepalive = .writing ↔ t.keepalive = .writing := by
  unfold notifyKeepalive
  by_cases h : t.keepalive = .waiting <;> simp [h]

/-- One step of `iclose`; it goes on at `some pc`, or returns with what it has done. -/
def iclose : IclosePc → Option (ClientThreads × (IclosePc ⊕ Bool))
  | .testing => some (t, if t.connClosed then .inr false else .inl .shutting)
  | .shutting => if t.writeLocked then none else some ({ t with connClosed := true }, .inl .failing)
  | .failing => some (t, .inl .notifying)
  | .notifying => if t.kaLocked then none else some (t.notifyKeepalive, .inr true)

/-- `iclose(true, ..)` as the receive thread goes on after a step of it. -/
def icloseRecv (pc : IclosePc) : Option ClientThreads :=
  (t.iclose pc).map fun r => match r.2 with
    | .inl pc' => { r.1 with recv := .closing pc', lost := t.lost || pc = .testing }
    | .inr true => { r.1 with recv := .reporting }
    | .inr false => { r.1 with recv := .exited }

/-- `iclose(false, ..)` of `close`. -/
def icloseOwner (pc : IclosePc) : Option ClientThreads :=
  (t.iclose pc).map fun r => match r.2 with
    | .inl pc' => { r.1 with owner := .closing pc' }
    | .inr _ => { r.1 with owner := .joiningRecv }

/-- `SocketConn::recv` tests `sock_ready` under `write_mutex` before it reads. -/
def recvStep (ok : Bool) : Option ClientThreads :=
  match t.recv with
  | .head =>
    if ok && t.writeLocked then none
    else some { t with recv := if ok && !t.connClosed then .reading else .closing .testing }
  | .reading => some { t with recv := if ok then .handling else .closing .testing }
  | .handling => some { t with recv := if ok then .head else .closing .testing }
  | .closing pc => t.icloseRecv pc
  | .reporting => some { t with
      recv := .exited, disconnects := if t.callback then t.disconnects + 1 else t.disconnects
      monDisconnects := t.monDisconnects + 1 }
  | .exited => none

def keepaliveStep : Option ClientThreads :=
  match t.keepalive with
  | .locking timeout => some { t with keepalive := if timeout then .pinging else .testing }
  | .testing => some { t with keepalive := if t.connClosed then .exited else .waiting }
  | .pinging =>
    if t.writeLocked then none
    else some { t with keepalive := if t.connClosed then .testing else .writing }
  | _ => none

def ownerStep : Option ClientThreads :=
  match t.owner with
  | .authed => some { t with keepalive := .locking false, owner := .starting }
  | .starting => some { t with callback := true, owner := .idle }
  | .closing pc => t.icloseOwner pc
  | .joiningRecv => if t.recv = .exited then some { t with owner := .joiningKeepalive } else none
  | .joiningKeepalive =>
    if t.keepalive = .exited then some { t with owner := .idle, closes := t.closes + 1 } else none
  | .idle => none

/-- A send that finds the connection closed writes nothing. -/
def send : Option ClientThreads :=
  if t.writeLocked || t.connClosed then none else some { t with sending := true }

def written : Option ClientThreads :=
  if t.keepalive = .writing then some { t with keepalive := .testing }
  else if t.sending then some { t with sending := false }
  else none

def step : Action → Option ClientThreads
  | .recv ok => t.recvStep ok
  | .keepalive => t.keepaliveStep
  | .expire timeout =>
    if t.keepalive = .waiting then some { t with keepalive := .locking timeout } else none
  | .owner => t.ownerStep
  | .close => if t.owner = .idle then some { t with owner := .closing .testing } else none
  | .send => t.send
  | .written => t.written

/-- `auth` has just succeeded: the receive thread is handling the response. -/
def Initial : Prop := t = {}

def system : System ClientThreads Action := System.ofStep Initial step

variable {t} {t' : ClientThreads}

/-- One step of `iclose`. -/
theorem iclose_cases {pc : IclosePc} {r : ClientThreads × (IclosePc ⊕ Bool)}
    (h : t.iclose pc = some r) :
    (pc = .testing ∧ t.connClosed = true ∧ r = (t, .inr false)) ∨
    (pc = .testing ∧ t.connClosed = false ∧ r = (t, .inl .shutting)) ∨
    (pc = .shutting ∧ t.writeLocked = false ∧ r = ({ t with connClosed := true }, .inl .failing)) ∨
    (pc = .failing ∧ r = (t, .inl .notifying)) ∨
    (pc = .notifying ∧ t.kaLocked = false ∧ r = (t.notifyKeepalive, .inr true)) := by
  cases pc with
  | testing =>
    cases h
    cases hclosed : t.connClosed with
    | true => exact .inl ⟨rfl, rfl, rfl⟩
    | false => exact .inr (.inl ⟨rfl, rfl, rfl⟩)
  | shutting =>
    simp only [iclose, Option.ite_none_left_eq_some, Option.some.injEq] at h
    exact .inr (.inr (.inl ⟨rfl, Bool.eq_false_iff.mpr h.1, h.2.symm⟩))
  | failing =>
    cases h
    exact .inr (.inr (.inr (.inl ⟨rfl, rfl⟩)))
  | notifying =>
    simp only [iclose, Option.ite_none_left_eq_some, Option.some.injEq] at h
    exact .inr (.inr (.inr (.inr ⟨rfl, Bool.eq_false_iff.mpr h.1, h.2.symm⟩)))

theorem step_recv {ok : Bool} (h : t.step (.recv ok) = some t') :
    (∃ pc, (t.recv = .head ∨ t.recv = .reading ∨ t.recv = .handling) ∧
      (pc = .closing .testing ∨ t.recv = .head ∧ t.connClosed = false ∧ pc = .reading ∨
        t.recv = .reading ∧ pc = .handling ∨ t.recv = .handling ∧ pc = .head) ∧
      t' = { t with recv := pc }) ∨
    (t.recv = .closing .testing ∧ t.connClosed = true ∧ t' = { t with recv := .exited }) ∨
    (t.recv = .closing .testing ∧ t.connClosed = false ∧
      t' = { t with recv := .closing .shutting, lost := true }) ∨
    (t.recv = .closing .shutting ∧ t.writeLocked = false ∧
      t' = { t with connClosed := true, recv := .closing .failing }) ∨
    (t.recv = .closing .failing ∧ t' = { t with recv := .closing .notifying }) ∨
    (t.recv = .closing .notifying ∧ t.kaLocked = false ∧
      t' = { t.notifyKeepalive with recv := .reporting }) ∨
    (t.recv = .reporting ∧ t' = { t with
      recv := .exited, disconnects := if t.callback then t.disconnects + 1 else t.disconnects
      monDisconnects := t.monDisconnects + 1 }) := by
  have h : t.recvStep ok = some t' := h
  unfold recvStep at h
  split at h
  · rename_i hrecv
    simp only [Option.ite_none_left_eq_some, Option.some.injEq] at h
    refine .inl ⟨_, .inl hrecv, ?_, h.2.symm⟩
    cases ok <;> cases hclosed : t.connClosed <;> simp [hrecv]
  · rename_i hrecv
    cases h
    refine .inl ⟨_, .inr (.inl hrecv), ?_, rfl⟩
    cases ok <;> simp [hrecv]
  · rename_i hrecv
    cases h
    refine .inl ⟨_, .inr (.inr hrecv), ?_, rfl⟩
    cases ok <;> simp [hrecv]
  · rename_i pc hrecv
    obtain ⟨r, hr, rfl⟩ := Option.map_eq_some_iff.mp h
    obtain ⟨rfl, hclosed, rfl⟩ | ⟨rfl, hclosed, rfl⟩ | ⟨rfl, hunlocked, rfl⟩ | ⟨rfl, rfl⟩ |
      ⟨rfl, hfree, rfl⟩ := iclose_cases hr
    · exact .inr (.inl ⟨hrecv, hclosed, rfl⟩)
    · exact .inr (.inr (.inl ⟨hrecv, hclosed, by simp⟩))
    · exact .inr (.inr (.inr (.inl ⟨hrecv, hunlocked, by simp⟩)))
    · exact .inr (.inr (.inr (.inr (.inl ⟨hrecv, by simp⟩))))
    · exact .inr (.inr (.inr (.inr (.inr (.inl ⟨hrecv, hfree, rfl⟩)))))
  · rename_i hrecv
    cases h
    exact .inr (.inr (.inr (.inr (.inr (.inr ⟨hrecv, rfl⟩)))))
  · cases h

/-- What the keepalive thread can do without a timer. -/
theorem step_keepalive (h : t.step .keepalive = some t') :
    (t.keepalive = .locking true ∧ t' = { t with keepalive := .pinging }) ∨
    ((t.keepalive = .locking false ∨ t.keepalive = .pinging ∧ t.connClosed = true) ∧
      t' = { t with keepalive := .testing }) ∨
    (t.keepalive = .pinging ∧ t.writeLocked = false ∧ t.connClosed = false ∧
      t' = { t with keepalive := .writing }) ∨
    (t.keepalive = .testing ∧ t.connClosed = true ∧ t' = { t with keepalive := .exited }) ∨
    (t.keepalive = .testing ∧ t.connClosed = false ∧ t' = { t with keepalive := .waiting }) := by
  have h : t.keepaliveStep = some t' := h
  unfold keepaliveStep at h
  split at h
  · rename_i timeout hka
    cases h
    cases timeout with
    | true => exact .inl ⟨hka, rfl⟩
    | false => exact .inr (.inl ⟨.inl hka, rfl⟩)
  · rename_i hka
    cases h
    cases hclosed : t.connClosed with
    | true => exact .inr (.inr (.inr (.inl ⟨hka, rfl, rfl⟩)))
    | false => exact .inr (.inr (.inr (.inr ⟨hka, rfl, rfl⟩)))
  · rename_i hka
    simp only [Option.ite_none_left_eq_some, Option.some.injEq] at h
    obtain ⟨hunlocked, rfl⟩ := h
    cases hclosed : t.connClosed with
    | true => exact .inr (.inl ⟨.inr ⟨hka, rfl⟩, rfl⟩)
    | false => exact .inr (.inr (.inl ⟨hka, Bool.eq_false_iff.mpr hunlocked, rfl, rfl⟩))
  · cases h

theorem step_owner (h : t.step .owner = some t') :
    (t.owner = .authed ∧ t' = { t with keepalive := .locking false, owner := .starting }) ∨
    (t.owner = .starting ∧ t' = { t with callback := true, owner := .idle }) ∨
    (t.owner = .closing .testing ∧ t.connClosed = true ∧ t' = { t with owner := .joiningRecv }) ∨
    (t.owner = .closing .testing ∧ t.connClosed = false ∧
      t' = { t with owner := .closing .shutting }) ∨
    (t.owner = .closing .shutting ∧ t.writeLocked = false ∧
      t' = { t with connClosed := true, owner := .closing .failing }) ∨
    (t.owner = .closing .failing ∧ t' = { t with owner := .closing .notifying }) ∨
    (t.owner = .closing .notifying ∧ t.kaLocked = false ∧
      t' = { t.notifyKeepalive with owner := .joiningRecv }) ∨
    (t.owner = .joiningRecv ∧ t.recv = .exited ∧ t' = { t with owner := .joiningKeepalive }) ∨
    (t.owner = .joiningKeepalive ∧ t.keepalive = .exited ∧
      t' = { t with owner := .idle, closes := t.closes + 1 }) := by
  have h : t.ownerStep = some t' := h
  unfold ownerStep at h
  split at h
  · rename_i howner
    cases h
    exact .inl ⟨howner, rfl⟩
  · rename_i howner
    cases h
    exact .inr (.inl ⟨howner, rfl⟩)
  · rename_i pc howner
    obtain ⟨r, hr, rfl⟩ := Option.map_eq_some_iff.mp h
    obtain ⟨rfl, hclosed, rfl⟩ | ⟨rfl, hclosed, rfl⟩ | ⟨rfl, hunlocked, rfl⟩ | ⟨rfl, rfl⟩ |
      ⟨rfl, hfree, rfl⟩ := iclose_cases hr
    · exact .inr (.inr (.inl ⟨howner, hclosed, rfl⟩))
    · exact .inr (.inr (.inr (.inl ⟨howner, hclosed, rfl⟩)))
    · exact .inr (.inr (.inr (.inr (.inl ⟨howner, hunlocked, rfl⟩))))
    · exact .inr (.inr (.inr (.inr (.inr (.inl ⟨howner, rfl⟩)))))
    · exact .inr (.inr (.inr (.inr (.inr (.inr (.inl ⟨howner, hfree, rfl⟩))))))
  · rename_i howner
    simp only [Option.ite_none_right_eq_some, Option.some.injEq] at h
    exact .inr (.inr (.inr (.inr (.inr (.inr (.inr (.inl ⟨howner, h.1, h.2.symm⟩)))))))
  · rename_i howner
    simp only [Option.ite_none_right_eq_some, Option.some.injEq] at h
    exact .inr (.inr (.inr (.inr (.inr (.inr (.inr (.inr ⟨howner, h.1, h.2.symm⟩)))))))
  · cases h

theorem step_expire {timeout : Bool} (h : t.step (.expire timeout) = some t') :
    t.keepalive = .waiting ∧ t' = { t with keepalive := .locking timeout } := by
  simp only [step, Option.ite_none_right_eq_some, Option.some.injEq] at h
  exact ⟨h.1, h.2.symm⟩

theorem step_close (h : t.step .close = some t') :
    t.owner = .idle ∧ t' = { t with owner := .closing .testing } := by
  simp only [step, Option.ite_none_right_eq_some, Option.some.injEq] at h
  exact ⟨h.1, h.2.symm⟩

theorem step_send (h : t.step .send = some t') :
    t.writeLocked = false ∧ t.connClosed = false ∧ t' = { t with sending := true } := by
  have h : t.send = some t' := h
  simp only [send, Option.ite_none_left_eq_some, Option.some.injEq, Bool.or_eq_true, not_or,
    Bool.not_eq_true] at h
  exact ⟨h.1.1, h.1.2, h.2.symm⟩

theorem step_written (h : t.step .written = some t') :
    (t.keepalive = .writing ∧ t' = { t with keepalive := .testing }) ∨
    (t.keepalive ≠ .writing ∧ t.sending = true ∧ t' = { t with sending := false }) := by
  have h : t.written = some t' := h
  unfold written at h
  split at h
  · cases h
    exact .inl ⟨‹_›, rfl⟩
  · split at h
    · cases h
      exact .inr ⟨‹_›, ‹_›, rfl⟩
    · cases h

/-- A call of `iclose` that has closed the connection has not notified the keepalive thread yet. -/
def recvNotifies (t : ClientThreads) : Bool :=
  t.recv = .closing .failing || t.recv = .closing .notifying

def ownerNotifies (t : ClientThreads) : Bool :=
  t.owner = .closing .failing || t.owner = .closing .notifying

/-- A thread is at a place that it comes to on a closed connection only. -/
def pastShutdown (t : ClientThreads) : Bool :=
  t.recvNotifies || t.ownerNotifies || t.recv = .reporting || t.recv = .exited ||
    t.owner = .joiningRecv || t.owner = .joiningKeepalive || t.keepalive = .exited

/-- The receive thread goes on to report. -/
def recvReports (t : ClientThreads) : Bool :=
  t.recv = .closing .shutting || t.recvNotifies || t.recv = .reporting

structure Sound (t : ClientThreads) : Prop where
  shut : t.pastShutdown = true → t.connClosed = true
  /-- No wake-up is lost. -/
  woken : t.keepalive = .waiting → t.connClosed = true →
    t.recvNotifies = true ∨ t.ownerNotifies = true
  absent : t.keepalive = .absent ↔ t.owner = .authed
  joined : t.owner = .joiningKeepalive → t.recv = .exited
  closed : t.closes ≠ 0 → t.recv = .exited ∧ t.keepalive = .exited
  callback : t.callback = false ↔ t.owner = .authed ∨ t.owner = .starting
  lost : t.lost = true ↔ t.recvReports = true ∨ t.monDisconnects = 1
  reported : t.monDisconnects = 0 ∨ t.monDisconnects = 1 ∧ t.recv = .exited
  disconnects_le : t.disconnects ≤ t.monDisconnects
  /-- A connection is not closed under a `::write`. -/
  writing : t.writeLocked = true → t.connClosed = false
  single : t.keepalive = .writing → t.sending = false

theorem Sound.unlocked (hs : Sound t) (hconn : t.connClosed = true) : t.writeLocked = false := by
  rw [← Bool.not_eq_true]
  intro hlocked
  exact absurd (hs.writing hlocked) (by simp [hconn])

theorem sound_initial : Sound {} := by
  constructor <;> simp [pastShutdown, recvNotifies, ownerNotifies, recvReports, writeLocked]

theorem Sound.turn (hs : Sound t) {pc : RecvLoopPc} (hrecv : t.recv.turning = true)
    (hpc : pc.turning = true) : Sound { t with recv := pc } := by
  obtain ⟨hshut, hwoken, habsent, hjoined, hclosed, hcallback, hlost, hreported, hle, hwriting,
    hsingle⟩ := hs
  have hold := RecvLoopPc.ne_of_turning hrecv
  have hnew := RecvLoopPc.ne_of_turning hpc
  clear hrecv hpc
  constructor <;> simp_all [pastShutdown, recvNotifies, ownerNotifies, recvReports, writeLocked]

theorem sound_recv {ok : Bool} (hs : Sound t) (h : t.step (.recv ok) = some t') : Sound t' := by
  obtain ⟨pc, hrecv, hpc, rfl⟩ | h := step_recv h
  · apply hs.turn
    · rcases hrecv with hrecv | hrecv | hrecv <;> rw [hrecv] <;> rfl
    · rcases hpc with rfl | ⟨-, -, rfl⟩ | ⟨-, rfl⟩ | ⟨-, rfl⟩ <;> rfl
  obtain ⟨hshut, hwoken, habsent, hjoined, hclosed, hcallback, hlost, hreported, hle, hwriting,
    hsingle⟩ := hs
  obtain ⟨hrecv, hconn, rfl⟩ | ⟨hrecv, hconn, rfl⟩ | ⟨hrecv, hunlocked, rfl⟩ | ⟨hrecv, rfl⟩ |
    ⟨hrecv, hfree, rfl⟩ | ⟨hrecv, rfl⟩ := h
  · constructor <;> simp_all [pastShutdown, recvNotifies, ownerNotifies, recvReports, writeLocked]
  · constructor <;> simp_all [pastShutdown, recvNotifies, ownerNotifies, recvReports, writeLocked]
  · constructor <;> simp_all [pastShutdown, recvNotifies, ownerNotifies, recvReports, writeLocked]
  · constructor <;> simp_all [pastShutdown, recvNotifies, ownerNotifies, recvReports, writeLocked]
  · constructor <;> simp_all [pastShutdown, recvNotifies, ownerNotifies, recvReports, writeLocked]
  · have hone : (if t.callback = true then 1 else 0) ≤ 1 := by split <;> simp
    constructor <;> simp_all [pastShutdown, recvNotifies, ownerNotifies, recvReports, writeLocked]

theorem sound_keepalive (hs : Sound t) (h : t.step .keepalive = some t') : Sound t' := by
  obtain ⟨hshut, hwoken, habsent, hjoined, hclosed, hcallback, hlost, hreported, hle, hwriting,
    hsingle⟩ := hs
  obtain ⟨hka, rfl⟩ | ⟨hka, rfl⟩ | ⟨hka, hunlocked, hconn, rfl⟩ | ⟨hka, hconn, rfl⟩ |
    ⟨hka, hconn, rfl⟩ := step_keepalive h
  · constructor <;> simp_all [pastShutdown, recvNotifies, ownerNotifies, recvReports, writeLocked]
  · rcases hka with hka | ⟨hka, hconn⟩ <;> constructor <;>
      simp_all [pastShutdown, recvNotifies, ownerNotifies, recvReports, writeLocked]
  · constructor <;> simp_all [pastShutdown, recvNotifies, ownerNotifies, recvReports, writeLocked]
  · constructor <;> simp_all [pastShutdown, recvNotifies, ownerNotifies, recvReports, writeLocked]
  · constructor <;> simp_all [pastShutdown, recvNotifies, ownerNotifies, recvReports, writeLocked]

theorem sound_owner (hs : Sound t) (h : t.step .owner = some t') : Sound t' := by
  obtain ⟨hshut, hwoken, habsent, hjoined, hclosed, hcallback, hlost, hreported, hle, hwriting,
    hsingle⟩ := hs
  obtain ⟨howner, rfl⟩ | ⟨howner, rfl⟩ | ⟨howner, hconn, rfl⟩ | ⟨howner, hconn, rfl⟩ |
    ⟨howner, hunlocked, rfl⟩ | ⟨howner, rfl⟩ | ⟨howner, hfree, rfl⟩ | ⟨howner, hrecv, rfl⟩ |
    ⟨howner, hka, rfl⟩ := step_owner h
  · constructor <;> simp_all [pastShutdown, recvNotifies, ownerNotifies, recvReports, writeLocked]
  · constructor <;> simp_all [pastShutdown, recvNotifies, ownerNotifies, recvReports, writeLocked]
  · constructor <;> simp_all [pastShutdown, recvNotifies, ownerNotifies, recvReports, writeLocked]
  · constructor <;> simp_all [pastShutdown, recvNotifies, ownerNotifies, recvReports, writeLocked]
  · constructor <;> simp_all [pastShutdown, recvNotifies, ownerNotifies, recvReports, writeLocked]
  · constructor <;> simp_all [pastShutdown, recvNotifies, ownerNotifies, recvReports, writeLocked]
  · constructor <;> simp_all [pastShutdown, recvNotifies, ownerNotifies, recvReports, writeLocked]
  · constructor <;> simp_all [pastShutdown, recvNotifies, ownerNotifies, recvReports, writeLocked]
  · constructor <;> simp_all [pastShutdown, recvNotifies, ownerNotifies, recvReports, writeLocked]

theorem sound_expire {timeout : Bool} (hs : Sound t) (h : t.step (.expire timeout) = some t') :
    Sound t' := by
  obtain ⟨hshut, hwoken, habsent, hjoined, hclosed, hcallback, hlost, hreported, hle, hwriting,
    hsingle⟩ := hs
  obtain ⟨hka, rfl⟩ := step_expire h
  constructor <;> simp_all [pastShutdown, recvNotifies, ownerNotifies, recvReports, writeLocked]

theorem sound_close (hs : Sound t) (h : t.step .close = some t') : Sound t' := by
  obtain ⟨hshut, hwoken, habsent, hjoined, hclosed, hcallback, hlost, hreported, hle, hwriting,
    hsingle⟩ := hs
  obtain ⟨howner, rfl⟩ := step_close h
  constructor <;> simp_all [pastShutdown, recvNotifies, ownerNotifies, recvReports, writeLocked]

theorem sound_send (hs : Sound t) (h : t.step .send = some t') : Sound t' := by
  obtain ⟨hshut, hwoken, habsent, hjoined, hclosed, hcallback, hlost, hreported, hle, hwriting,
    hsingle⟩ := hs
  obtain ⟨hunlocked, hconn, rfl⟩ := step_send h
  constructor <;> simp_all [pastShutdown, recvNotifies, ownerNotifies, recvReports, writeLocked]

theorem sound_written (hs : Sound t) (h : t.step .written = some t') : Sound t' := by
  obtain ⟨hshut, hwoken, habsent, hjoined, hclosed, hcallback, hlost, hreported, hle, hwriting,
    hsingle⟩ := hs
  obtain ⟨hka, rfl⟩ | ⟨hka, hsending, rfl⟩ := step_written h
  · constructor <;> simp_all [pastShutdown, recvNotifies, ownerNotifies, recvReports, writeLocked]
  · constructor <;> simp_all [pastShutdown, recvNotifies, ownerNotifies, recvReports, writeLocked]

theorem sound_step {a : Action} (hs : Sound t) (h : t.step a = some t') : Sound t' := by
  cases a with
  | recv ok => exact sound_recv hs h
  | keepalive => exact sound_keepalive hs h
  | expire timeout => exact sound_expire hs h
  | owner => exact sound_owner hs h
  | close => exact sound_close hs h
  | send => exact sound_send hs h
  | written => exact sound_written hs h

theorem sound_reachable (h : system.Reachable t) : Sound t := by
  apply h.invariant
  · rintro s rfl
    exact sound_initial
  · exact fun s a r hs hstep => sound_step hs hstep

/-- The run of the threads until `connect` or `close` returns. -/
def busy : System ClientThreads Action := system.guard fun t _ => t.owner ≠ .idle

def turnsLeft (t : ClientThreads) : Nat := t.recv.left + t.keepalive.left + t.owner.left

theorem notifyKeepalive_left : t.notifyKeepalive.keepalive.left ≤ t.keepalive.left := by
  unfold notifyKeepalive
  by_cases h : t.keepalive = .waiting <;> simp [h, KeepaliveLoopPc.left]

theorem turnsLeft_le (t : ClientThreads) : t.turnsLeft ≤ 14 := by
  have hrecv := t.recv.left_le
  have hka := t.keepalive.left_le
  have howner := t.owner.left_le
  unfold turnsLeft
  omega

/-- No other thread takes the owner back. -/
theorem step_owner_left {a : Action} (hbusy : t.owner ≠ .idle) (h : t.step a = some t') :
    t'.owner.left + (if a = .owner then 1 else 0) ≤ t.owner.left := by
  cases a with
  | recv ok =>
    obtain ⟨pc, -, -, rfl⟩ | ⟨-, -, rfl⟩ | ⟨-, -, rfl⟩ | ⟨-, -, rfl⟩ | ⟨-, rfl⟩ | ⟨-, -, rfl⟩ |
      ⟨-, rfl⟩ := step_recv h <;> simp
  | keepalive =>
    obtain ⟨-, rfl⟩ | ⟨-, rfl⟩ | ⟨-, -, -, rfl⟩ | ⟨-, -, rfl⟩ | ⟨-, -, rfl⟩ :=
      step_keepalive h <;> simp
  | expire timeout =>
    obtain ⟨-, rfl⟩ := step_expire h
    simp
  | owner =>
    obtain ⟨howner, rfl⟩ | ⟨howner, rfl⟩ | ⟨howner, -, rfl⟩ | ⟨howner, -, rfl⟩ | ⟨howner, -, rfl⟩ |
      ⟨howner, rfl⟩ | ⟨howner, -, rfl⟩ | ⟨howner, -, rfl⟩ | ⟨howner, -, rfl⟩ := step_owner h <;>
      simp [howner, OwnerPc.left]
  | close => exact absurd (step_close h).1 hbusy
  | send =>
    obtain ⟨-, -, rfl⟩ := step_send h
    simp
  | written =>
    obtain ⟨-, rfl⟩ | ⟨-, -, rfl⟩ := step_written h <;> simp

theorem step_connClosed {a : Action} (hconn : t.connClosed = true) (h : t.step a = some t') :
    t'.connClosed = true := by
  cases a with
  | recv ok =>
    obtain ⟨pc, -, -, rfl⟩ | ⟨-, -, rfl⟩ | ⟨-, -, rfl⟩ | ⟨-, -, rfl⟩ | ⟨-, rfl⟩ | ⟨-, -, rfl⟩ |
      ⟨-, rfl⟩ := step_recv h <;> first | exact hconn | rfl
  | keepalive =>
    obtain ⟨-, rfl⟩ | ⟨-, rfl⟩ | ⟨-, -, -, rfl⟩ | ⟨-, -, rfl⟩ | ⟨-, -, rfl⟩ :=
      step_keepalive h <;> exact hconn
  | expire timeout =>
    obtain ⟨-, rfl⟩ := step_expire h
    exact hconn
  | owner =>
    obtain ⟨-, rfl⟩ | ⟨-, rfl⟩ | ⟨-, -, rfl⟩ | ⟨-, -, rfl⟩ | ⟨-, -, rfl⟩ | ⟨-, rfl⟩ |
      ⟨-, -, rfl⟩ | ⟨-, -, rfl⟩ | ⟨-, -, rfl⟩ := step_owner h <;> first | exact hconn | rfl
  | close =>
    obtain ⟨-, rfl⟩ := step_close h
    exact hconn
  | send =>
    obtain ⟨-, -, rfl⟩ := step_send h
    exact hconn
  | written =>
    obtain ⟨-, rfl⟩ | ⟨-, -, rfl⟩ := step_written h <;> exact hconn

/-- On a closed connection no thread turns back. -/
theorem step_turnsLeft {a : Action} (hs : Sound t) (hconn : t.connClosed = true)
    (hbusy : t.owner ≠ .idle) (h : t.step a = some t') : t'.turnsLeft + 1 ≤ t.turnsLeft := by
  have hnotified := notifyKeepalive_left (t := t)
  unfold turnsLeft
  cases a with
  | recv ok =>
    obtain ⟨pc, hrecv, hpc, rfl⟩ | ⟨hrecv, -, rfl⟩ | ⟨-, hopen, -⟩ | ⟨hrecv, -, rfl⟩ | ⟨hrecv, rfl⟩ |
      ⟨hrecv, -, rfl⟩ | ⟨hrecv, rfl⟩ := step_recv h
    · have hleft : pc.left + 1 ≤ t.recv.left := by
        rcases hpc with rfl | ⟨-, hopen, -⟩ | ⟨hrecv, rfl⟩ | ⟨hrecv, rfl⟩
        · rcases hrecv with hrecv | hrecv | hrecv <;> simp [hrecv, RecvLoopPc.left]
        · exact absurd hopen (by simp [hconn])
        · simp [hrecv, RecvLoopPc.left]
        · simp [hrecv, RecvLoopPc.left]
      dsimp only
      omega
    · simp only [hrecv, RecvLoopPc.left]
      omega
    · exact absurd hopen (by simp [hconn])
    · simp only [hrecv, RecvLoopPc.left]
      omega
    · simp only [hrecv, RecvLoopPc.left]
      omega
    · simp only [hrecv, RecvLoopPc.left, notifyKeepalive_owner]
      omega
    · simp only [hrecv, RecvLoopPc.left]
      omega
  | keepalive =>
    obtain ⟨hka, rfl⟩ | ⟨hka, rfl⟩ | ⟨-, -, hopen, -⟩ | ⟨hka, -, rfl⟩ | ⟨-, hopen, -⟩ :=
      step_keepalive h
    · simp only [hka, KeepaliveLoopPc.left]
      omega
    · rcases hka with hka | ⟨hka, -⟩ <;> simp only [hka, KeepaliveLoopPc.left] <;> omega
    · exact absurd hopen (by simp [hconn])
    · simp only [hka, KeepaliveLoopPc.left]
      omega
    · exact absurd hopen (by simp [hconn])
  | expire timeout =>
    obtain ⟨hka, rfl⟩ := step_expire h
    cases timeout <;> simp only [hka, KeepaliveLoopPc.left] <;> omega
  | owner =>
    obtain ⟨howner, rfl⟩ | ⟨howner, rfl⟩ | ⟨howner, -, rfl⟩ | ⟨-, hopen, -⟩ | ⟨howner, -, rfl⟩ |
      ⟨howner, rfl⟩ | ⟨howner, -, rfl⟩ | ⟨howner, -, rfl⟩ | ⟨howner, -, rfl⟩ := step_owner h
    · have hka : t.keepalive = .absent := hs.absent.mpr howner
      simp only [howner, hka, OwnerPc.left, KeepaliveLoopPc.left]
      omega
    · simp only [howner, OwnerPc.left]
      omega
    · simp only [howner, OwnerPc.left]
      omega
    · exact absurd hopen (by simp [hconn])
    · simp only [howner, OwnerPc.left]
      omega
    · simp only [howner, OwnerPc.left]
      omega
    · simp only [howner, OwnerPc.left, notifyKeepalive_recv]
      omega
    · simp only [howner, OwnerPc.left]
      omega
    · simp only [howner, OwnerPc.left]
      omega
  | close => exact absurd (step_close h).1 hbusy
  | send => exact absurd (step_send h).2.1 (by simp [hconn])
  | written =>
    have hunlocked := hs.unlocked hconn
    rw [writeLocked, Bool.or_eq_false_iff, decide_eq_false_iff_not] at hunlocked
    obtain ⟨hka, -⟩ | ⟨-, hsending, -⟩ := step_written h
    · exact absurd hka hunlocked.1
    · exact absurd hsending (by simp [hunlocked.2])

/-- On a closed connection the keepalive thread goes on unless it waits. -/
theorem keepalive_enabled (hunlocked : t.writeLocked = false) (ha : t.keepalive ≠ .absent)
    (hw : t.keepalive ≠ .waiting) (he : t.keepalive ≠ .exited) :
    (t.step .keepalive).isSome = true := by
  cases hka : t.keepalive with
  | absent => exact absurd hka ha
  | locking timeout => simp [step, keepaliveStep, hka]
  | testing => simp [step, keepaliveStep, hka]
  | waiting => exact absurd hka hw
  | pinging => simp [step, keepaliveStep, hka, hunlocked]
  | writing => simp [writeLocked, hka] at hunlocked
  | exited => exact absurd hka he

theorem iclose_enabled (hunlocked : t.writeLocked = false) (pc : IclosePc) :
    (t.iclose pc).isSome = true ∨ (t.step .keepalive).isSome = true := by
  cases pc with
  | testing => exact .inl rfl
  | shutting => exact .inl (by simp [iclose, hunlocked])
  | failing => exact .inl rfl
  | notifying =>
    cases hlocked : t.kaLocked with
    | false => exact .inl (by simp [iclose, hlocked])
    | true =>
      simp only [kaLocked, Bool.or_eq_true, decide_eq_true_eq] at hlocked
      right
      apply keepalive_enabled hunlocked <;> rcases hlocked with (hka | hka) | hka <;> simp [hka]

theorem recv_enabled (hunlocked : t.writeLocked = false) (he : t.recv ≠ .exited) :
    (t.step (.recv false)).isSome = true ∨ (t.step .keepalive).isSome = true := by
  change (t.recvStep false).isSome = true ∨ _
  unfold recvStep
  split
  · exact .inl rfl
  · exact .inl rfl
  · exact .inl rfl
  · rename_i pc hrecv
    simpa [icloseRecv] using iclose_enabled hunlocked pc
  · exact .inl rfl
  · exact absurd ‹_› he

/-- Once the `::write` in progress has returned, `connection->close()` has its mutex. -/
theorem written_enabled (hs : Sound t) (hlocked : t.writeLocked = true)
    (howner : t.owner = .closing .shutting) :
    ∃ t', t.step .written = some t' ∧ (t'.step .owner).isSome = true := by
  by_cases hka : t.keepalive = .writing
  · refine ⟨{ t with keepalive := .testing }, by simp [step, written, hka], ?_⟩
    simp [step, ownerStep, howner, icloseOwner, iclose, writeLocked, hs.single hka]
  · have hsending : t.sending = true := by simpa [writeLocked, hka] using hlocked
    refine ⟨{ t with sending := false }, by simp [step, written, hka, hsending], ?_⟩
    simp [step, ownerStep, howner, icloseOwner, iclose, writeLocked, hka]

/-- A thread that `connect` or `close` waits for is not itself stuck. -/
theorem busy_enabled (hs : Sound t) (hbusy : t.owner ≠ .idle) :
    (t.step .owner).isSome = true ∨
    (t.owner = .closing .shutting ∧
      ∃ t', t.step .written = some t' ∧ (t'.step .owner).isSome = true) ∨
    t.connClosed = true ∧
      ((t.step (.recv false)).isSome = true ∨ (t.step .keepalive).isSome = true) := by
  cases howner : t.owner with
  | authed => exact .inl (by simp [step, ownerStep, howner])
  | starting => exact .inl (by simp [step, ownerStep, howner])
  | idle => exact absurd howner hbusy
  | closing pc =>
    cases hconn : t.connClosed with
    | true =>
      rcases iclose_enabled (hs.unlocked hconn) pc with h | h
      · exact .inl (by simpa [step, ownerStep, howner, icloseOwner] using h)
      · exact .inr (.inr ⟨rfl, .inr h⟩)
    | false =>
      have hshut := mt hs.shut (by simp [hconn])
      cases pc with
      | testing => exact .inl (by simp [step, ownerStep, howner, icloseOwner, iclose])
      | shutting =>
        cases hlocked : t.writeLocked with
        | true => exact .inr (.inl ⟨rfl, written_enabled hs hlocked howner⟩)
        | false => exact .inl (by simp [step, ownerStep, howner, icloseOwner, iclose, hlocked])
      | failing => exact absurd (by simp [pastShutdown, ownerNotifies, howner]) hshut
      | notifying => exact absurd (by simp [pastShutdown, ownerNotifies, howner]) hshut
  | joiningRecv =>
    have hconn : t.connClosed = true := hs.shut (by simp [pastShutdown, howner])
    by_cases he : t.recv = .exited
    · exact .inl (by simp [step, ownerStep, howner, he])
    · exact .inr (.inr ⟨hconn, recv_enabled (hs.unlocked hconn) he⟩)
  | joiningKeepalive =>
    have hconn : t.connClosed = true := hs.shut (by simp [pastShutdown, howner])
    have hrecv := hs.joined howner
    by_cases he : t.keepalive = .exited
    · exact .inl (by simp [step, ownerStep, howner, he])
    · have ha : t.keepalive ≠ .absent := by simp [hs.absent, howner]
      have hw : t.keepalive ≠ .waiting := by
        intro hw
        rcases hs.woken hw hconn with h | h
        · simp [recvNotifies, hrecv] at h
        · simp [ownerNotifies, howner] at h
      exact .inr (.inr ⟨hconn, .inr (keepalive_enabled (hs.unlocked hconn) ha hw he)⟩)

theorem busy_turns {as : List Action} (hs : Sound t) (hconn : t.connClosed = true)
    (h : busy.Run t as t') : as.length ≤ 14 := by
  have hcount := h.countP_add_le (P := fun s => Sound s ∧ s.connClosed = true) (p := fun _ => true)
    (v := turnsLeft) ⟨hs, hconn⟩
    (fun s a r hp hst => ⟨sound_step hp.1 hst.2, step_connClosed hp.2 hst.2⟩)
    (fun s a r hp hst => step_turnsLeft hp.1 hp.2 hst.1 hst.2)
  have hle := turnsLeft_le t
  rw [List.countP_true] at hcount
  omega

theorem busy_owner_turns {as : List Action} (h : busy.Run t as t') :
    as.countP (· = .owner) ≤ 6 := by
  have hcount := h.countP_add_le (P := fun _ => True) (p := (· = .owner))
    (v := fun s => s.owner.left) trivial (fun _ _ _ _ _ => trivial)
    (fun s a r _ hst => by simpa using step_owner_left hst.1 hst.2)
  have hle : t.owner.left ≤ 6 := OwnerPc.left_le t.owner
  omega

/-- `connect` and `close` return if a `::write` in progress does: besides that one call no join and no
lock waits for a thread that is itself stuck, also when no timer ends, and the thread that makes the
call has a bounded number of steps to take, as all threads together have once the connection is
closed. -/
theorem close_returns (h : system.Reachable t) (hbusy : t.owner ≠ .idle) :
    ((t.step .owner).isSome = true ∨
      (t.owner = .closing .shutting ∧
        ∃ t', t.step .written = some t' ∧ (t'.step .owner).isSome = true) ∨
      t.connClosed = true ∧
        ((t.step (.recv false)).isSome = true ∨ (t.step .keepalive).isSome = true)) ∧
    ∀ as t', busy.Run t as t' →
      as.countP (· = .owner) ≤ 6 ∧ (t.connClosed = true → as.length ≤ 14) := by
  have hs := sound_reachable h
  refine ⟨busy_enabled hs hbusy, ?_⟩
  intro as t' hrun
  exact ⟨busy_owner_turns hrun, fun hconn => busy_turns hs hconn hrun⟩

/-- `close` is called while the service does not read and a ping is being written. -/
def samplePing : ClientThreads :=
  { callback := true, keepalive := .writing, owner := .closing .shutting }

theorem close_returns_writing : system.Reachable samplePing ∧ samplePing.step .owner = none ∧
    (∃ t', samplePing.step .written = some t' ∧ (t'.step .owner).isSome = true) ∧
    ∀ as t', busy.Run samplePing as t' → as.countP (· = .owner) ≤ 6 := by
  have h : system.Reachable samplePing := execute_reachable rfl (by decide :
    execute step {} [.owner, .owner, .keepalive, .keepalive, .expire true, .keepalive, .keepalive,
      .close, .owner] = some _)
  obtain ⟨hnext | ⟨-, hwritten⟩ | ⟨hconn, -⟩, hturns⟩ := close_returns h (by decide)
  · cases hnext
  · exact ⟨h, rfl, hwritten, fun as t' hrun => (hturns as t' hrun).1⟩
  · cases hconn

theorem Sound.monDisconnects_eq (hs : Sound t) :
    t.monDisconnects = if t.lost = true ∧ t.recv = .exited then 1 else 0 := by
  have hlost := hs.lost
  rcases hs.reported with hnone | ⟨hone, hrecv⟩
  · rw [hnone, if_neg]
    rintro ⟨h, hrecv⟩
    simp [hnone, h, hrecv, recvReports, recvNotifies] at hlost
  · rw [hone, if_pos ⟨hlost.mpr (.inr hone), hrecv⟩]

/-- After a `close` the client is quiet. -/
theorem closed_step {a : Action} (hs : Sound t) (hcloses : t.closes ≠ 0) (h : t.step a = some t') :
    t'.closes ≠ 0 ∧ t'.disconnects = t.disconnects ∧ t'.monDisconnects = t.monDisconnects := by
  obtain ⟨hrecv, hka⟩ := hs.closed hcloses
  cases a with
  | recv ok => simp [step, recvStep, hrecv] at h
  | keepalive => simp [step, keepaliveStep, hka] at h
  | expire timeout => simp [step, hka] at h
  | owner =>
    obtain ⟨-, rfl⟩ | ⟨-, rfl⟩ | ⟨-, -, rfl⟩ | ⟨-, -, rfl⟩ | ⟨-, -, rfl⟩ | ⟨-, rfl⟩ |
      ⟨-, -, rfl⟩ | ⟨-, -, rfl⟩ | ⟨-, -, rfl⟩ := step_owner h <;> simp [hcloses]
  | close =>
    obtain ⟨-, rfl⟩ := step_close h
    exact ⟨hcloses, rfl, rfl⟩
  | send =>
    obtain ⟨-, -, rfl⟩ := step_send h
    exact ⟨hcloses, rfl, rfl⟩
  | written =>
    obtain ⟨-, rfl⟩ | ⟨-, -, rfl⟩ := step_written h <;> exact ⟨hcloses, rfl, rfl⟩

theorem closed_run {as : List Action} (hs : Sound t) (hcloses : t.closes ≠ 0)
    (h : system.Run t as t') :
    t'.recv = .exited ∧ t'.keepalive = .exited ∧
      t'.disconnects = t.disconnects ∧ t'.monDisconnects = t.monDisconnects := by
  have hquiet := h.invariant
    (P := fun s => Sound s ∧ s.closes ≠ 0 ∧
      s.disconnects = t.disconnects ∧ s.monDisconnects = t.monDisconnects)
    ⟨hs, hcloses, rfl, rfl⟩ (by
      rintro s a r ⟨hs, hcloses, hdis, hmon⟩ hst
      obtain ⟨hc, hd, hm⟩ := closed_step hs hcloses hst
      exact ⟨sound_step hs hst, hc, hd.trans hdis, hm.trans hmon⟩)
  obtain ⟨hs', hcloses', hdis, hmon⟩ := hquiet
  obtain ⟨hrecv, hka⟩ := hs'.closed hcloses'
  exact ⟨hrecv, hka, hdis, hmon⟩

/-- The receive thread does not come to its callbacks before `connect` has set `cli_callback`. -/
def afterConnect (t : ClientThreads) (a : Action) : Prop :=
  ∀ ok, a = .recv ok → t.recv = .reporting → t.callback = true

theorem disconnects_step {a : Action} (heq : t.disconnects = t.monDisconnects)
    (hafter : afterConnect t a) (h : t.step a = some t') : t'.disconnects = t'.monDisconnects := by
  cases a with
  | recv ok =>
    obtain ⟨pc, -, -, rfl⟩ | ⟨-, -, rfl⟩ | ⟨-, -, rfl⟩ | ⟨-, -, rfl⟩ | ⟨-, rfl⟩ | ⟨-, -, rfl⟩ |
      ⟨hrecv, rfl⟩ := step_recv h
    case inr.inr.inr.inr.inr.inr =>
      have hcallback := hafter ok rfl hrecv
      simp [hcallback, heq]
    all_goals exact heq
  | keepalive =>
    obtain ⟨-, rfl⟩ | ⟨-, rfl⟩ | ⟨-, -, -, rfl⟩ | ⟨-, -, rfl⟩ | ⟨-, -, rfl⟩ :=
      step_keepalive h <;> exact heq
  | expire timeout =>
    obtain ⟨-, rfl⟩ := step_expire h
    exact heq
  | owner =>
    obtain ⟨-, rfl⟩ | ⟨-, rfl⟩ | ⟨-, -, rfl⟩ | ⟨-, -, rfl⟩ | ⟨-, -, rfl⟩ | ⟨-, rfl⟩ |
      ⟨-, -, rfl⟩ | ⟨-, -, rfl⟩ | ⟨-, -, rfl⟩ := step_owner h <;> exact heq
  | close =>
    obtain ⟨-, rfl⟩ := step_close h
    exact heq
  | send =>
    obtain ⟨-, -, rfl⟩ := step_send h
    exact heq
  | written =>
    obtain ⟨-, rfl⟩ | ⟨-, -, rfl⟩ := step_written h <;> exact heq

theorem disconnects_eq (h : (system.guard afterConnect).Reachable t) :
    t.disconnects = t.monDisconnects := by
  apply h.invariant
  · rintro s rfl
    rfl
  · exact fun s a r heq hst => disconnects_step heq hst.1 hst.2

/-- A connection that the receive thread has closed is reported once, when the thread ends, and one
that `close` has closed is not. The client gets the report that the monitor gets unless the thread
came to it before `connect` had set `cli_callback`. After a `close` no thread runs and nothing is
reported. -/
theorem lost_reported_once (h : system.Reachable t) :
    t.monDisconnects = (if t.lost = true ∧ t.recv = .exited then 1 else 0) ∧
    t.disconnects ≤ t.monDisconnects ∧
    ((system.guard afterConnect).Reachable t → t.disconnects = t.monDisconnects) ∧
    (t.closes ≠ 0 → ∀ as t', system.Run t as t' →
      t'.recv = .exited ∧ t'.keepalive = .exited ∧
        t'.disconnects = t.disconnects ∧ t'.monDisconnects = t.monDisconnects) := by
  have hs := sound_reachable h
  exact ⟨hs.monDisconnects_eq, hs.disconnects_le, disconnects_eq,
    fun hcloses as t' hrun => closed_run hs hcloses hrun⟩

/-- The connection is lost while the client is in use. -/
theorem lost_reported_once_idle :
    (⟨true, true, .exited, .exited, .idle, false, 1, 1, 1, true⟩ : ClientThreads).monDisconnects = 1 := by
  have h : system.Reachable ⟨true, true, .exited, .exited, .idle, false, 1, 1, 1, true⟩ :=
    execute_reachable rfl (by decide :
      execute step {} [.owner, .owner, .recv true, .recv true, .recv false, .recv false,
        .recv false, .recv false, .recv false, .recv false, .keepalive, .keepalive, .close, .owner,
        .owner, .owner] = some _)
  exact (lost_reported_once h).1

/-- The connection is lost right after the service has accepted the client. -/
example : execute step {} [.recv true, .recv true, .recv false, .recv false, .recv false,
      .recv false, .recv false, .recv false, .owner, .owner] =
    some { connClosed := true, callback := true, recv := .exited, keepalive := .locking false,
           owner := .idle, monDisconnects := 1, lost := true } := by
  decide

end ClientThreads

end Flora
