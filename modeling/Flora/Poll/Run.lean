import Flora.Poll.Idle
import Flora.Lib.AssocMap

/-! # The run thread of a poll and its descriptors

`SocketPoll::start`, `stop` and `run` with the descriptor table of the process, for the plain poll
and for `BeepSocketPoll`. One action is one system call with the bookkeeping around it, one section
under `start_mutex` or under the `write_mutex` of an adapter, or one turn of a loop. The numbers of
closed descriptors are used again by later calls, also by those of the rest of the process. The
calls of `start` and `stop` do not overlap, and `start_cond` wakes nobody without a notification. -/

namespace Flora

open TransitionSystem

/-- What a descriptor refers to: the listening socket of the `n`-th start, the connection that the
adapter `a` was made for, or something of the rest of the process. -/
inductive OpenFile where
  | listener (n : Nat)
  | peer (a : AdapterId)
  | foreign
  deriving DecidableEq, Repr

inductive Syscall where
  | accept
  | read
  | write
  | shutdown
  | close
  deriving DecidableEq, Repr

/-- History of one system call: the end it was meant for, the end its descriptor referred to, and
whether the last `select` had reported that end and nothing has been taken from it since. -/
structure IoCall where
  call : Syscall
  owner : OpenFile
  reached : Option OpenFile
  reported : Bool
  deriving DecidableEq, Repr

/-- A call with the end it was meant for and the end it reached. -/
def IoCall.ends (c : IoCall) : Syscall × OpenFile × Option OpenFile := (c.call, c.owner, c.reached)

/-- The members of a `SocketAdapter` that concern its descriptor. -/
structure SocketHandle where
  socketfd : Nat
  /-- `buffer` is not null. -/
  buffer : Bool := true
  /-- History: the descriptor has been closed. -/
  released : Bool := false
  deriving DecidableEq, Repr

/-- The locals of the loop over the descriptors: `ifd` is the next one to look at. -/
structure Scan where
  lfd : Nat
  rfds : Nat → Bool
  ifd : Nat

def Scan.next (scan : Scan) : Scan := { scan with ifd := scan.ifd + 1 }

/-- Where the run thread stands. `delete_adapter` of the entry `(fd, a)` is at its three parts; it
goes on with the loop over the descriptors or with the loop that releases the adapters. -/
inductive PollPc where
  | absent
  | starting
  | polling
  | polled (rfds : Nat → Bool) (timeout : Bool)
  | scanning (scan : Scan)
  | closing (fd : Nat) (a : AdapterId) (back : Option Scan)
  | closingFd (fd : Nat) (a : AdapterId) (back : Option Scan)
  | erasing (fd : Nat) (a : AdapterId) (back : Option Scan)
  | releasing
  | exited

/-- Where the thread that starts and stops the poll stands. -/
inductive UserPc where
  | idle
  | waiting
  | notified
  | joining (fd : Option Nat)
  deriving DecidableEq, Repr

structure SocketPoll where
  /-- The descriptors of the process. -/
  table : Nat → Option OpenFile := fun _ => none
  sockets : AdapterId → Option SocketHandle := fun _ => none
  /-- `dispatcher` is not null. -/
  started : Bool := false
  listenFd : Option Nat := none
  maxFd : Nat := 0
  allFds : Nat → Bool := fun _ => false
  adapters : AList fun _ : Nat => AdapterId := ∅
  beep : BeepSocketPoll := {}
  run : PollPc := .absent
  user : UserPc := .idle
  /-- History: the calls of `start` that succeeded, and the listening socket of the last one until
  it is closed. -/
  starts : Nat := 0
  listening : Option Nat := none
  /-- History: what the last `select` reported and has not been read since. -/
  reported : List OpenFile := []
  calls : List IoCall := []
  /-- History: the calls of `erase_adapter`. -/
  erased : List AdapterId := []

def fdSetSize : Nat := 1024

namespace SocketPoll

/-- `FD_SET`. From `FD_SETSIZE` on it is undefined: a set has no place for such a descriptor. -/
def fdSet (fds : Nat → Bool) (fd : Nat) : Nat → Bool :=
  if fd < fdSetSize then Function.update fds fd true else fds

theorem fdSet_self (fds : Nat → Bool) (fd : Nat) :
    fdSet fds fd fd = true ↔ fd < fdSetSize ∨ fds fd = true := by
  unfold fdSet
  split
  · simp [*]
  · simp [*]

theorem fdSet_of_ne {fd x : Nat} (h : x ≠ fd) (fds : Nat → Bool) : fdSet fds fd x = fds x := by
  unfold fdSet
  split
  · exact Function.update_of_ne h _ _
  · rfl

inductive Action where
  | start (fd : Option Nat)
  | begin
  | returnStart
  | doPoll (ready : Option (List Nat)) (now : Nat)
  | getListenFd
  | endScan
  | skip
  | doAccept (conn : Option (Nat × AdapterId)) (now : Nat)
  | doRead (ok : Bool) (now : Nat)
  | closeAdapter
  | closeFd
  | eraseAdapter
  | release
  | stop
  | join
  | config (timeout : Word)
  | write (a : AdapterId) (ok : Bool)
  | close (a : AdapterId)
  | openForeign (fd : Nat)
  | closeForeign (fd : Nat)

variable (tcp : Bool) (s : SocketPoll)

/-- A call on a descriptor that is meant for the end `owner`. -/
def io (call : Syscall) (owner : OpenFile) (fd : Nat) : SocketPoll :=
  { s with calls := s.calls ++
      [⟨call, owner, s.table fd, (s.table fd).any (s.reported.contains ·)⟩] }

/-- What a call takes from its end is not there for another one. -/
def consume (owner : OpenFile) : SocketPoll :=
  { s with reported := s.reported.filter (· ≠ owner) }

def setSocket (a : AdapterId) (k : SocketHandle) : SocketPoll :=
  { s with sockets := Function.update s.sockets a (some k) }

/-- `SocketAdapter::close` -/
def closeSocket (a : AdapterId) : SocketPoll :=
  match s.sockets a with
  | none => s
  | some k =>
    if k.buffer then (s.io .shutdown (.peer a) k.socketfd).setSocket a { k with buffer := false }
    else s

/-- `SocketAdapter::write`, as long as somebody holds the adapter. -/
def writeSocket (a : AdapterId) (ok : Bool) : Option SocketPoll :=
  (s.sockets a).map fun k =>
    if k.buffer then
      let s := s.io .write (.peer a) k.socketfd
      if ok then s else s.closeSocket a
    else s

/-- `init_unix_socket` or `init_tcp_socket` fails, or the socket gets a number that is free. -/
def startWith (fd : Option Nat) : Option SocketPoll :=
  if s.started then some s
  else
    match fd with
    | none => some s
    | some fd =>
      if s.table fd = none then
        some { s with
          table := Function.update s.table fd (some (.listener (s.starts + 1)))
          started := true, listenFd := some fd, run := .starting, user := .waiting
          starts := s.starts + 1, listening := some fd }
      else none

/-- The first section of `run`. For a negative descriptor `FD_SET` is undefined, too. -/
def beginRun : Option SocketPoll :=
  s.listenFd.map fun fd =>
    { s with
      allFds := fdSet (fun _ => false) fd
      maxFd := fd + 1
      run := .polling
      user := if s.user = .waiting then .notified else s.user }

/-- `::shutdown` of an adapter's descriptor, whatever the adapter itself knows. -/
def shutdownFd (a : AdapterId) : SocketPoll :=
  match s.sockets a with
  | some k => s.io .shutdown (.peer a) k.socketfd
  | none => s

def shutdownAll (as : List AdapterId) : SocketPoll := as.foldl shutdownFd s

/-- The adapters at the front of the list that have been silent for too long. -/
def timedOut (now : Nat) : List AdapterId :=
  (s.beep.activeAdapters.takeWhile (s.beep.timedOut now)).map ActiveAdapter.adapter

/-- After its `select` the poll of TCP connections looks for adapters that are silent. -/
def shutdownTimeoutAdapter (now : Nat) : SocketPoll :=
  { s.shutdownAll (s.timedOut now) with
    beep := { s.beep.shutdownTimeoutAdapter now with clock := now } }

/-- `do_poll`: `select` fails or reports some of the descriptors it was given. -/
def doPoll (ready : Option (List Nat)) (now : Nat) : SocketPoll :=
  let s := if tcp then s.shutdownTimeoutAdapter now else s
  match ready with
  | none => { s with run := .releasing, reported := [] }
  | some ready =>
    { s with
      run := .polled (fun fd => ready.contains fd) ready.isEmpty
      reported := ready.filterMap s.table }

/-- `do_accept` and `new_adapter`. -/
def accept (fd : Nat) (a : AdapterId) (now : Nat) : Option SocketPoll :=
  if s.table fd = none ∧ s.sockets a = none then
    some { s with
      table := Function.update s.table fd (some (.peer a))
      sockets := Function.update s.sockets a (some { socketfd := fd })
      maxFd := if fd ≥ s.maxFd then fd + 1 else s.maxFd
      allFds := fdSet s.allFds fd
      adapters := (AssocMap.insertNew fd a s.adapters).1
      beep := if tcp then { s.beep.doAccept a now with clock := now } else s.beep }
  else none

/-- `do_read`: without a buffer it fails at once. -/
def readSocket (a : AdapterId) (ok : Bool) (now : Nat) : Option SocketPoll :=
  match s.sockets a with
  | none => none
  | some k =>
    if ok ∧ ¬ k.buffer then none
    else
      let s := if k.buffer then (s.io .read (.peer a) k.socketfd).consume (.peer a) else s
      some { s with beep := if tcp then { s.beep.doRead a ok now with clock := now } else s.beep }

/-- `delete_adapter` up to `FD_CLR`. -/
def clearAdapter (a : AdapterId) : SocketPoll :=
  match s.sockets a with
  | none => s
  | some k => { s.closeSocket a with allFds := Function.update s.allFds k.socketfd false }

/-- `::close` of the descriptor of an adapter. -/
def releaseSocket (a : AdapterId) : SocketPoll :=
  match s.sockets a with
  | none => s
  | some k =>
    { (s.io .close (.peer a) k.socketfd).setSocket a { k with released := true } with
      table := Function.update s.table k.socketfd none }

/-- Where the run thread goes on after `delete_adapter`. -/
def resume : Option Scan → PollPc
  | some scan => .scanning scan
  | none => .releasing

/-- A call on the listening socket of the last start. -/
def ioListener (call : Syscall) (fd : Option Nat) : SocketPoll :=
  match fd with
  | none => s
  | some fd => s.io call (.listener s.starts) fd

/-- The descriptors after `::close(fd)`. -/
def tableWithout (fd : Option Nat) : Nat → Option OpenFile :=
  match fd with
  | none => s.table
  | some fd => Function.update s.table fd none

def step : Action → Option SocketPoll
  | .start fd => if s.user = .idle then s.startWith fd else none
  | .begin => match s.run with
    | .starting => s.beginRun
    | _ => none
  | .returnStart => if s.user = .notified then some { s with user := .idle } else none
  | .doPoll ready now => match s.run with
    | .polling =>
      if s.beep.clock ≤ now ∧ ∀ l, ready = some l → ∀ fd ∈ l, s.allFds fd = true then
        some (s.doPoll tcp ready now)
      else none
    | _ => none
  | .getListenFd => match s.run with
    | .polled rfds timeout => match s.listenFd with
      | none => some { s with run := .releasing }
      | some lfd => some { s with run := if timeout then .polling else .scanning ⟨lfd, rfds, 0⟩ }
    | _ => none
  | .endScan => match s.run with
    | .scanning scan => if scan.ifd < s.maxFd then none else some { s with run := .polling }
    | _ => none
  | .skip => match s.run with
    | .scanning scan =>
      if scan.ifd < s.maxFd ∧ (scan.rfds scan.ifd = false ∨
          scan.ifd ≠ scan.lfd ∧ s.adapters.lookup scan.ifd = none) then
        some { s with run := .scanning scan.next }
      else none
    | _ => none
  | .doAccept conn now => match s.run with
    | .scanning scan =>
      if scan.ifd < s.maxFd ∧ scan.rfds scan.ifd ∧ scan.ifd = scan.lfd ∧ s.beep.clock ≤ now then
        let s := (s.io .accept (.listener s.starts) scan.lfd).consume (.listener s.starts)
        let s := { s with run := .scanning scan.next }
        match conn with
        | none => some s
        | some (fd, a) => s.accept tcp fd a now
      else none
    | _ => none
  | .doRead ok now => match s.run with
    | .scanning scan =>
      if scan.ifd < s.maxFd ∧ scan.rfds scan.ifd ∧ scan.ifd ≠ scan.lfd ∧ s.beep.clock ≤ now then
        (s.adapters.lookup scan.ifd).bind fun a =>
          (s.readSocket tcp a ok now).map fun s => { s with
            run := if ok then .scanning scan.next else .closing scan.ifd a (some scan.next) }
      else none
    | _ => none
  | .closeAdapter => match s.run with
    | .closing fd a back => some { s.clearAdapter a with run := .closingFd fd a back }
    | _ => none
  | .closeFd => match s.run with
    | .closingFd fd a back => some { s.releaseSocket a with run := .erasing fd a back }
    | _ => none
  | .eraseAdapter => match s.run with
    | .erasing fd a back => some { s with
        erased := s.erased ++ [a], adapters := s.adapters.erase fd, run := resume back }
    | _ => none
  | .release => match s.run with
    | .releasing => match s.adapters.keys.min? with
      | none => some { s with run := .exited }
      | some fd => (s.adapters.lookup fd).map fun a => { s with run := .closing fd a none }
    | _ => none
  | .stop =>
    if s.user = .idle then
      if s.started then
        some { s.ioListener .shutdown s.listenFd with listenFd := none, user := .joining s.listenFd }
      else some s
    else none
  | .join => match s.user, s.run with
    | .joining fd, .exited => some { s.ioListener .close fd with
        table := s.tableWithout fd, started := false, listening := none, run := .absent, user := .idle }
    | _, _ => none
  | .config timeout => some { s with beep := { s.beep with beepTimeout := timeout } }
  | .write a ok => s.writeSocket a ok
  | .close a => if (s.sockets a).isSome then some (s.closeSocket a) else none
  | .openForeign fd =>
    if s.table fd = none then
      some { s with table := Function.update s.table fd (some .foreign) }
    else none
  | .closeForeign fd =>
    if s.table fd = some .foreign then
      some { s with table := Function.update s.table fd none }
    else none

/-- A poll that has not been started; the rest of the process may have descriptors. -/
def Initial : Prop :=
  ∃ table beep, (∀ fd, table fd ≠ none → table fd = some .foreign) ∧ BeepSocketPoll.Initial beep ∧
    s = { table := table, beep := beep }

def system : System SocketPoll Action := System.ofStep Initial (step tcp)

variable {tcp : Bool} {s s' : SocketPoll}

theorem step_start {fd : Option Nat} (h : step tcp s (.start fd) = some s') :
    s.user = .idle ∧ (s' = s ∨ ∃ lfd, fd = some lfd ∧ s.started = false ∧ s.table lfd = none ∧
      s' = { s with
      table := Function.update s.table lfd (some (.listener (s.starts + 1)))
      started := true, listenFd := some lfd, run := .starting, user := .waiting
      starts := s.starts + 1, listening := some lfd }) := by
  simp only [step, Option.ite_none_right_eq_some] at h
  obtain ⟨hidle, h⟩ := h
  refine ⟨hidle, ?_⟩
  unfold startWith at h
  split at h
  · cases h
    exact .inl rfl
  · rename_i hstarted
    split at h
    · cases h
      exact .inl rfl
    · split at h
      · rename_i lfd hfree
        cases h
        exact .inr ⟨lfd, rfl, by simpa using hstarted, hfree, rfl⟩
      · cases h

theorem step_begin (h : step tcp s .begin = some s') :
    s.run = .starting ∧ ∃ lfd, s.listenFd = some lfd ∧ s' = { s with
      allFds := fdSet (fun _ => false) lfd
      maxFd := lfd + 1
      run := .polling
      user := if s.user = .waiting then .notified else s.user } := by
  simp only [step] at h
  split at h
  · rename_i hrun
    obtain ⟨lfd, hlfd, rfl⟩ := Option.map_eq_some_iff.mp h
    exact ⟨hrun, lfd, hlfd, rfl⟩
  · cases h

theorem step_returnStart (h : step tcp s .returnStart = some s') :
    s.user = .notified ∧ s' = { s with user := .idle } := by
  simp only [step, Option.ite_none_right_eq_some, Option.some.injEq] at h
  exact ⟨h.1, h.2.symm⟩

theorem step_doPoll {ready : Option (List Nat)} {now : Nat}
    (h : step tcp s (.doPoll ready now) = some s') :
    s.run = .polling ∧ s.beep.clock ≤ now ∧
      (∀ l, ready = some l → ∀ fd ∈ l, s.allFds fd = true) ∧ s' = s.doPoll tcp ready now := by
  simp only [step] at h
  split at h
  · rename_i hrun
    split at h
    · rename_i hready
      cases h
      exact ⟨hrun, hready.1, hready.2, rfl⟩
    · cases h
  · cases h

theorem step_getListenFd (h : step tcp s .getListenFd = some s') :
    ∃ rfds timeout, s.run = .polled rfds timeout ∧
      ((s.listenFd = none ∧ s' = { s with run := .releasing }) ∨
        s' = { s with run := .polling } ∨
        ∃ lfd, s.listenFd = some lfd ∧ s' = { s with run := .scanning ⟨lfd, rfds, 0⟩ }) := by
  simp only [step] at h
  split at h
  · rename_i rfds timeout hrun
    refine ⟨rfds, timeout, hrun, ?_⟩
    split at h
    · rename_i hlfd
      cases h
      exact .inl ⟨hlfd, rfl⟩
    · rename_i lfd hlfd
      cases h
      cases timeout with
      | true => exact .inr (.inl rfl)
      | false => exact .inr (.inr ⟨lfd, hlfd, rfl⟩)
  · cases h

theorem step_endScan (h : step tcp s .endScan = some s') :
    ∃ scan, s.run = .scanning scan ∧ s.maxFd ≤ scan.ifd ∧ s' = { s with run := .polling } := by
  simp only [step] at h
  split at h
  · rename_i scan hrun
    split at h
    · cases h
    · rename_i hge
      cases h
      exact ⟨scan, hrun, Nat.le_of_not_lt hge, rfl⟩
  · cases h

theorem step_skip (h : step tcp s .skip = some s') :
    ∃ scan, s.run = .scanning scan ∧ s' = { s with run := .scanning scan.next } := by
  simp only [step] at h
  split at h
  · rename_i scan hrun
    split at h
    · cases h
      exact ⟨scan, hrun, rfl⟩
    · cases h
  · cases h

theorem step_doAccept {conn : Option (Nat × AdapterId)} {now : Nat}
    (h : step tcp s (.doAccept conn now) = some s') :
    ∃ scan t, s.run = .scanning scan ∧ scan.rfds scan.ifd = true ∧ scan.ifd = scan.lfd ∧
      s.beep.clock ≤ now ∧
      t = { (s.io .accept (.listener s.starts) scan.lfd).consume (.listener s.starts) with
        run := .scanning scan.next } ∧
      (s' = t ∨ ∃ fd a, conn = some (fd, a) ∧ t.table fd = none ∧ t.sockets a = none ∧
        t.accept tcp fd a now = some s') := by
  simp only [step] at h
  split at h
  · rename_i scan hrun
    split at h
    · rename_i hready
      refine ⟨scan, _, hrun, hready.2.1, hready.2.2.1, hready.2.2.2, rfl, ?_⟩
      split at h
      · cases h
        exact .inl rfl
      · rename_i fd a
        have hfree := h
        simp only [accept, Option.ite_none_right_eq_some] at hfree
        exact .inr ⟨fd, a, rfl, hfree.1.1, hfree.1.2, h⟩
    · cases h
  · cases h

theorem step_doRead {ok : Bool} {now : Nat} (h : step tcp s (.doRead ok now) = some s') :
    ∃ scan a t, s.run = .scanning scan ∧ scan.rfds scan.ifd = true ∧ s.beep.clock ≤ now ∧
      s.adapters.lookup scan.ifd = some a ∧ s.readSocket tcp a ok now = some t ∧
      s' = { t with
        run := if ok then .scanning scan.next else .closing scan.ifd a (some scan.next) } := by
  simp only [step] at h
  split at h
  · rename_i scan hrun
    split at h
    · rename_i hready
      obtain ⟨a, ha, h⟩ := Option.bind_eq_some_iff.mp h
      obtain ⟨t, ht, rfl⟩ := Option.map_eq_some_iff.mp h
      exact ⟨scan, a, t, hrun, hready.2.1, hready.2.2.2, ha, ht, rfl⟩
    · cases h
  · cases h

theorem step_closeAdapter (h : step tcp s .closeAdapter = some s') :
    ∃ fd a back, s.run = .closing fd a back ∧
      s' = { s.clearAdapter a with run := .closingFd fd a back } := by
  simp only [step] at h
  split at h
  · rename_i fd a back hrun
    cases h
    exact ⟨fd, a, back, hrun, rfl⟩
  · cases h

theorem step_closeFd (h : step tcp s .closeFd = some s') :
    ∃ fd a back, s.run = .closingFd fd a back ∧
      s' = { s.releaseSocket a with run := .erasing fd a back } := by
  simp only [step] at h
  split at h
  · rename_i fd a back hrun
    cases h
    exact ⟨fd, a, back, hrun, rfl⟩
  · cases h

theorem step_eraseAdapter (h : step tcp s .eraseAdapter = some s') :
    ∃ fd a back, s.run = .erasing fd a back ∧ s' = { s with
      erased := s.erased ++ [a], adapters := s.adapters.erase fd, run := resume back } := by
  simp only [step] at h
  split at h
  · rename_i fd a back hrun
    cases h
    exact ⟨fd, a, back, hrun, rfl⟩
  · cases h

theorem step_release (h : step tcp s .release = some s') :
    s.run = .releasing ∧ ((s.adapters.keys = [] ∧ s' = { s with run := .exited }) ∨
      ∃ fd a, s.adapters.lookup fd = some a ∧ s' = { s with run := .closing fd a none }) := by
  simp only [step] at h
  split at h
  · rename_i hrun
    refine ⟨hrun, ?_⟩
    split at h
    · rename_i hmin
      cases h
      exact .inl ⟨List.min?_eq_none_iff.mp hmin, rfl⟩
    · rename_i fd hmin
      obtain ⟨a, ha, rfl⟩ := Option.map_eq_some_iff.mp h
      exact .inr ⟨fd, a, ha, rfl⟩
  · cases h

theorem step_stop (h : step tcp s .stop = some s') : s.user = .idle ∧
    ((s.started = false ∧ s' = s) ∨ (s.started = true ∧ s' = { s.ioListener .shutdown s.listenFd with
      listenFd := none, user := .joining s.listenFd })) := by
  simp only [step, Option.ite_none_right_eq_some] at h
  obtain ⟨hidle, h⟩ := h
  refine ⟨hidle, ?_⟩
  split at h
  · rename_i hstarted
    cases h
    exact .inr ⟨hstarted, rfl⟩
  · rename_i hstarted
    cases h
    exact .inl ⟨by simpa using hstarted, rfl⟩

theorem step_join (h : step tcp s .join = some s') :
    ∃ fd, s.user = .joining fd ∧ s.run = .exited ∧ s' = { s.ioListener .close fd with
      table := s.tableWithout fd, started := false, listening := none, run := .absent, user := .idle } := by
  simp only [step] at h
  split at h
  · rename_i fd huser hrun
    cases h
    exact ⟨fd, huser, hrun, rfl⟩
  · cases h

theorem step_write {a : AdapterId} {ok : Bool} (h : step tcp s (.write a ok) = some s') :
    ∃ k, s.sockets a = some k ∧ s' = if k.buffer then
      if ok then s.io .write (.peer a) k.socketfd
      else (s.io .write (.peer a) k.socketfd).closeSocket a
    else s := by
  obtain ⟨k, hk, rfl⟩ := Option.map_eq_some_iff.mp h
  exact ⟨k, hk, rfl⟩

theorem step_close {a : AdapterId} (h : step tcp s (.close a) = some s') :
    s' = s.closeSocket a := by
  simp only [step, Option.ite_none_right_eq_some, Option.some.injEq] at h
  exact h.2.symm

theorem step_openForeign {fd : Nat} (h : step tcp s (.openForeign fd) = some s') :
    s.table fd = none ∧ s' = { s with table := Function.update s.table fd (some .foreign) } := by
  simp only [step, Option.ite_none_right_eq_some, Option.some.injEq] at h
  exact ⟨h.1, h.2.symm⟩

theorem step_closeForeign {fd : Nat} (h : step tcp s (.closeForeign fd) = some s') :
    s.table fd = some .foreign ∧
      s' = { s with table := Function.update s.table fd none } := by
  simp only [step, Option.ite_none_right_eq_some, Option.some.injEq] at h
  exact ⟨h.1, h.2.symm⟩

end SocketPoll

end Flora
