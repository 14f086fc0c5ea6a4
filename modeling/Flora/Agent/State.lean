import Flora.Agent.View
import Flora.Lib.Transition
import Mathlib.Data.String.Basic

/-! # The agent: its run thread, its users and its clients

`flora-agent.cc`. One action is one section under `conn_mutex`, one request of a client, one step
of the run thread without the lock, or one step of a client's receive thread. The clients the agent
connects are numbered; only the run thread ever waits on `conn_cond`. -/

namespace Flora

open TransitionSystem

/-- The receive thread of a client: it reads, it has closed the connection and will report that, or
it is over. -/
inductive Receiver where
  | reading
  | reporting
  | ended
  deriving DecidableEq, Repr

/-- A client of the agent and what the service holds for it. -/
structure Link where
  /-- `cli_callback` has been set. -/
  callback : Bool := false
  /-- The socket carries frames. -/
  up : Bool := true
  /-- `connection->closed()` -/
  closed : Bool := false
  receiver : Receiver := .reading
  /-- History: the client has called `disconnected()`. -/
  reported : Bool := false
  /-- Requests on their way to the service. -/
  requests : List Request := []
  view : View := {}

/-- Where the run thread stands. A client it is at work on is named; `last` is the key of the map
that the walk of `init_cli` has come to. -/
inductive RunPc where
  | testing
  | connecting
  | authed (c : Nat)
  | initPosts (c : Nat) (last : Option String)
  | initCalls (c : Nat) (last : Option String)
  | publishing (c : Nat)
  | waiting (c : Nat)
  | woken (c : Nat)
  | failed
  | pausing
  | paused
  | cleaning
  | exited
  deriving DecidableEq, Repr

/-- The client the run thread is at work on and has not published. -/
def RunPc.initializing : RunPc → Option Nat
  | .authed c | .initPosts c _ | .initCalls c _ | .publishing c => some c
  | _ => none

structure Agent where
  working : Bool := true
  /-- The keys of the two maps. -/
  postHandlers : List String := []
  callHandlers : List String := []
  floraCli : Option Nat := none
  links : Nat → Link := fun _ => {}
  /-- How many clients have been connected. -/
  connected : Nat := 0
  pc : RunPc := .testing
  /-- Calls of the four name functions that have left their section with a client. -/
  calls : List (Request × Nat) := []
  /-- Calls of `post` and `call` that have left their section with a client. -/
  posts : List Nat := []
  /-- Threads that have to call `destroy_client`. -/
  destroyers : Nat := 0
  /-- Clients that `close` still has to close. -/
  closing : List Nat := []
  /-- History: since the run thread last tested `working`, `close` or the client it is at work on
  has notified. -/
  missed : Bool := false

/-- The options of an agent: the monitor flag, and which requests fit its buffer. -/
structure Options where
  monitor : Bool
  fits : Request → Bool

def sampleOptions : Options := ⟨false, fun _ => true⟩

namespace Agent

inductive Action where
  | addHandler (kind : Kind) (name : String)
  | removeHandler (kind : Kind) (name : String)
  | request (n : Nat)
  | beginPost
  | endPost (n : Nat) (ok : Bool)
  | destroyClient
  | close
  | closeClient (n : Nat)
  | test
  | connect (ok : Bool)
  | setCallback
  | walk (name : String)
  | walkEnd
  | publish
  | wake
  | resume
  | pause
  | clean
  | drop (c : Nat)
  | report (c : Nat)
  | lose (c : Nat)
  | handle (c : Nat)

variable (o : Options) (s : Agent)

def handlers : Kind → List String
  | .post => s.postHandlers
  | .call => s.callHandlers

def setHandlers (kind : Kind) (keys : List String) : Agent :=
  match kind with
  | .post => { s with postHandlers := keys }
  | .call => { s with callHandlers := keys }

def setLink (c : Nat) (l : Link) : Agent := { s with links := Function.update s.links c l }

/-- The section of a call that goes on with `cli` if there is one. -/
def enter (r : Request) (cli : Option Nat) : Agent :=
  match cli with
  | some c => { s with calls := s.calls ++ [(r, c)] }
  | none => s

/-- The locked section of `subscribe` and `declare_method`. -/
def addHandler (kind : Kind) (name : String) : Agent :=
  if name ∈ s.handlers kind then s
  else (s.setHandlers kind (name :: s.handlers kind)).enter ⟨kind, true, name⟩ s.floraCli

/-- The locked section of `unsubscribe` and `remove_method`. -/
def removeHandler (kind : Kind) (name : String) : Agent :=
  if name ∈ s.handlers kind then
    (s.setHandlers kind ((s.handlers kind).filter (· ≠ name))).enter ⟨kind, false, name⟩ s.floraCli
  else s

def subscribe : String → Agent := s.addHandler .post

def unsubscribe : String → Agent := s.removeHandler .post

def declareMethod : String → Agent := s.addHandler .call

def removeMethod : String → Agent := s.removeHandler .call

/-- The four requests of `Client`: refused in monitor mode and when they do not fit, lost on a
connection that is down. -/
def send (c : Nat) (r : Request) : Agent :=
  if o.monitor || !o.fits r || !(s.links c).up then s
  else s.setLink c { s.links c with requests := (s.links c).requests ++ [r] }

/-- `conn_cond.notify_one()`: it wakes the run thread if that waits. -/
def notify : Agent :=
  match s.pc with
  | .waiting c => { s with pc := .woken c }
  | .pausing => { s with pc := .paused }
  | _ => s

/-- `connection->close()` by a thread that does not report it. -/
def shut (c : Nat) : Agent := s.setLink c { s.links c with up := false, closed := true }

/-- The locked section of `close`. -/
def close : Agent :=
  if s.working then
    { ({ s with working := false, missed := true } : Agent).notify with
      floraCli := none, postHandlers := [], callHandlers := []
      closing := s.closing ++ s.floraCli.toList }
  else s

/-- `name` is the next key behind `last`. -/
def isNext (keys : List String) (last : Option String) (name : String) : Bool :=
  name ∈ keys && last.all (· < name) && keys.all fun k => k < name → ¬ last.all (· < k)

/-- There is no key behind `last`. -/
def atEnd (keys : List String) (last : Option String) : Bool :=
  keys.all fun k => ¬ last.all (· < k)

/-- One turn of a loop of `init_cli`. -/
def walk (name : String) : Option Agent :=
  match s.pc with
  | .initPosts c last =>
    if isNext s.postHandlers last name then
      some { s.send o c ⟨.post, true, name⟩ with pc := .initPosts c (some name) }
    else none
  | .initCalls c last =>
    if isNext s.callHandlers last name then
      some { s.send o c ⟨.call, true, name⟩ with pc := .initCalls c (some name) }
    else none
  | _ => none

def walkEnd : Option Agent :=
  match s.pc with
  | .initPosts c last =>
    if atEnd s.postHandlers last then some { s with pc := .initCalls c none } else none
  | .initCalls c last =>
    if atEnd s.callHandlers last then some { s with pc := .publishing c } else none
  | _ => none

/-- The receive thread ends: `iclose(true)` closes a connection that is not closed yet. -/
def drop (c : Nat) : Option Agent :=
  if c < s.connected ∧ (s.links c).receiver = .reading then
    some (if (s.links c).closed then s.setLink c { s.links c with receiver := .ended }
      else s.setLink c { s.links c with up := false, closed := true, receiver := .reporting })
  else none

/-- The end of `iclose(true)`: `disconnected()`, if there is a callback to call. -/
def report (c : Nat) : Option Agent :=
  if (s.links c).receiver = .reporting then
    if (s.links c).callback then
      some { (s.setLink c { s.links c with receiver := .ended, reported := true }).notify with
        missed := s.missed || s.pc.initializing == some c }
    else some (s.setLink c { s.links c with receiver := .ended })
  else none

/-- The service takes the next request off a connection. -/
def handle (c : Nat) : Option Agent :=
  match (s.links c).up, (s.links c).requests with
  | true, r :: rest =>
    match (s.links c).view.handle r with
    | some v => some (s.setLink c { s.links c with requests := rest, view := v })
    | none => some (s.setLink c { s.links c with requests := rest, up := false })
  | _, _ => none

/-- `clean_gabages` closes the clients of earlier rounds and joins their receive threads. -/
def clean : Agent :=
  { s with
    links := fun c => if c < s.connected then
      { s.links c with up := false, closed := true, receiver := .ended } else s.links c
    pc := .testing }

def step : Action → Option Agent
  | .addHandler kind name => some (s.addHandler kind name)
  | .removeHandler kind name => some (s.removeHandler kind name)
  | .request n =>
    (s.calls[n]?).map fun p => ({ s with calls := s.calls.eraseIdx n } : Agent).send o p.2 p.1
  | .beginPost => s.floraCli.map fun c => { s with posts := s.posts ++ [c] }
  | .endPost n ok =>
    (s.posts[n]?).map fun _ => { s with
      posts := s.posts.eraseIdx n, destroyers := s.destroyers + if ok then 0 else 1 }
  | .destroyClient =>
    if s.destroyers = 0 then none else some { s.notify with destroyers := s.destroyers - 1 }
  | .close => some s.close
  | .closeClient n =>
    (s.closing[n]?).map fun c => ({ s with closing := s.closing.eraseIdx n } : Agent).shut c
  | .test =>
    if s.pc = .testing then
      some (if s.working then { s with pc := .connecting, missed := false }
        else { s with pc := .exited })
    else none
  | .connect ok =>
    if s.pc = .connecting then
      some (if ok then { s with pc := .authed s.connected, connected := s.connected + 1 }
        else { s with pc := .failed })
    else none
  | .setCallback =>
    match s.pc with
    | .authed c => some { s.setLink c { s.links c with callback := true } with
      pc := .initPosts c none }
    | _ => none
  | .walk name => s.walk o name
  | .walkEnd => s.walkEnd
  | .publish =>
    match s.pc with
    | .publishing c => some { s with floraCli := some c, pc := .waiting c }
    | _ => none
  | .wake =>
    match s.pc with
    | .waiting _ | .pausing => some s.notify
    | _ => none
  | .resume =>
    match s.pc with
    | .woken _ => some { s with floraCli := none, pc := .cleaning }
    | .paused => some { s with pc := .cleaning }
    | _ => none
  | .pause => if s.pc = .failed then some { s with pc := .pausing } else none
  | .clean =>
    if s.pc = .cleaning ∧ (List.range s.connected).all
        (fun c => (s.links c).receiver ≠ .reporting) then some s.clean else none
  | .drop c => s.drop c
  | .report c => s.report c
  | .lose c =>
    if c < s.connected then some (s.setLink c { s.links c with up := false }) else none
  | .handle c => s.handle c

/-- An agent whose `run` begins: `working` has been set. What was subscribed before `start` counts
as the first actions. -/
def Initial : Prop := s = {}

def system : System Agent Action := System.ofStep Initial (step o)

variable {o : Options} {s s' : Agent} {c : Nat}

theorem setLink_links (c x : Nat) (l : Link) :
    (s.setLink c l).links x = if x = c then l else s.links x := by
  simp [setLink, Function.update_apply]

theorem setLink_congr {β : Type*} (f : Link → β) {l : Link} (h : f l = f (s.links c)) (x : Nat) :
    f ((s.setLink c l).links x) = f (s.links x) := by
  rw [setLink_links]
  split
  · rename_i hx
    rw [hx, h]
  · rfl

theorem step_destroyClient (h : step o s .destroyClient = some s') :
    0 < s.destroyers ∧ s' = { s.notify with destroyers := s.destroyers - 1 } := by
  simp only [step, Option.ite_none_left_eq_some, Option.some.injEq] at h
  exact ⟨Nat.pos_of_ne_zero h.1, h.2.symm⟩

theorem step_test (h : step o s .test = some s') : s.pc = .testing ∧
    ((s.working = true ∧ s' = { s with pc := .connecting, missed := false }) ∨
      (s.working = false ∧ s' = { s with pc := .exited })) := by
  simp only [step, Option.ite_none_right_eq_some, Option.some.injEq] at h
  obtain ⟨hpc, rfl⟩ := h
  refine ⟨hpc, ?_⟩
  cases s.working
  · exact .inr ⟨rfl, rfl⟩
  · exact .inl ⟨rfl, rfl⟩

theorem step_connect {ok : Bool} (h : step o s (.connect ok) = some s') : s.pc = .connecting ∧
    ((ok = true ∧ s' = { s with pc := .authed s.connected, connected := s.connected + 1 }) ∨
      (ok = false ∧ s' = { s with pc := .failed })) := by
  simp only [step, Option.ite_none_right_eq_some, Option.some.injEq] at h
  obtain ⟨hpc, rfl⟩ := h
  refine ⟨hpc, ?_⟩
  cases ok
  · exact .inr ⟨rfl, rfl⟩
  · exact .inl ⟨rfl, rfl⟩

theorem step_setCallback (h : step o s .setCallback = some s') : ∃ c, s.pc = .authed c ∧
    s' = { s.setLink c { s.links c with callback := true } with pc := .initPosts c none } := by
  simp only [step] at h
  split at h
  · rename_i c hpc
    exact ⟨c, hpc, (Option.some.inj h).symm⟩
  · cases h

theorem step_publish (h : step o s .publish = some s') : ∃ c, s.pc = .publishing c ∧
    s' = { s with floraCli := some c, pc := .waiting c } := by
  simp only [step] at h
  split at h
  · rename_i c hpc
    exact ⟨c, hpc, (Option.some.inj h).symm⟩
  · cases h

theorem step_wake (h : step o s .wake = some s') : s' = s.notify := by
  simp only [step] at h
  split at h
  · exact (Option.some.inj h).symm
  · exact (Option.some.inj h).symm
  · cases h

theorem step_resume (h : step o s .resume = some s') :
    (∃ c, s.pc = .woken c ∧ s' = { s with floraCli := none, pc := .cleaning }) ∨
      (s.pc = .paused ∧ s' = { s with pc := .cleaning }) := by
  simp only [step] at h
  split at h
  · rename_i c hpc
    exact .inl ⟨c, hpc, (Option.some.inj h).symm⟩
  · rename_i hpc
    exact .inr ⟨hpc, (Option.some.inj h).symm⟩
  · cases h

theorem step_pause (h : step o s .pause = some s') :
    s.pc = .failed ∧ s' = { s with pc := .pausing } := by
  simp only [step, Option.ite_none_right_eq_some, Option.some.injEq] at h
  exact ⟨h.1, h.2.symm⟩

theorem step_clean (h : step o s .clean = some s') : s.pc = .cleaning ∧
    (∀ c < s.connected, (s.links c).receiver ≠ .reporting) ∧ s' = s.clean := by
  simp only [step, Option.ite_none_right_eq_some, Option.some.injEq, List.all_eq_true,
    List.mem_range, decide_eq_true_eq] at h
  exact ⟨h.1.1, h.1.2, h.2.symm⟩

theorem step_lose (h : step o s (.lose c) = some s') :
    c < s.connected ∧ s' = s.setLink c { s.links c with up := false } := by
  simp only [step, Option.ite_none_right_eq_some, Option.some.injEq] at h
  exact ⟨h.1, h.2.symm⟩

theorem send_cases (o : Options) (s : Agent) (c : Nat) (r : Request) :
    s.send o c r = s ∨ (o.monitor = false ∧ o.fits r = true ∧ (s.links c).up = true ∧
      s.send o c r = s.setLink c { s.links c with requests := (s.links c).requests ++ [r] }) := by
  unfold send
  split
  · exact .inl rfl
  · rename_i hcond
    simp only [Bool.or_eq_true, Bool.not_eq_true', not_or, Bool.not_eq_true,
      Bool.not_eq_false] at hcond
    exact .inr ⟨hcond.1.1, hcond.1.2, hcond.2, rfl⟩

theorem walk_cases {name : String} (h : s.walk o name = some s') :
    (∃ c last, s.pc = .initPosts c last ∧ isNext s.postHandlers last name = true ∧
      s' = { s.send o c ⟨.post, true, name⟩ with pc := .initPosts c (some name) }) ∨
    ∃ c last, s.pc = .initCalls c last ∧ isNext s.callHandlers last name = true ∧
      s' = { s.send o c ⟨.call, true, name⟩ with pc := .initCalls c (some name) } := by
  unfold walk at h
  split at h
  · rename_i c last hpc
    simp only [Option.ite_none_right_eq_some, Option.some.injEq] at h
    exact .inl ⟨c, last, hpc, h.1, h.2.symm⟩
  · rename_i c last hpc
    simp only [Option.ite_none_right_eq_some, Option.some.injEq] at h
    exact .inr ⟨c, last, hpc, h.1, h.2.symm⟩
  · cases h

theorem walkEnd_cases (h : s.walkEnd = some s') :
    (∃ c last, s.pc = .initPosts c last ∧ atEnd s.postHandlers last = true ∧
      s' = { s with pc := .initCalls c none }) ∨
    ∃ c last, s.pc = .initCalls c last ∧ atEnd s.callHandlers last = true ∧
      s' = { s with pc := .publishing c } := by
  unfold walkEnd at h
  split at h
  · rename_i c last hpc
    simp only [Option.ite_none_right_eq_some, Option.some.injEq] at h
    exact .inl ⟨c, last, hpc, h.1, h.2.symm⟩
  · rename_i c last hpc
    simp only [Option.ite_none_right_eq_some, Option.some.injEq] at h
    exact .inr ⟨c, last, hpc, h.1, h.2.symm⟩
  · cases h

theorem drop_cases (h : s.drop c = some s') : c < s.connected ∧ (s.links c).receiver = .reading ∧
    (((s.links c).closed = true ∧ s' = s.setLink c { s.links c with receiver := .ended }) ∨
      s' = s.setLink c { s.links c with up := false, closed := true, receiver := .reporting }) := by
  simp only [drop, Option.ite_none_right_eq_some, Option.some.injEq] at h
  obtain ⟨⟨hlt, hreading⟩, rfl⟩ := h
  refine ⟨hlt, hreading, ?_⟩
  split
  · exact .inl ⟨‹_›, rfl⟩
  · exact .inr rfl

theorem report_cases (h : s.report c = some s') : (s.links c).receiver = .reporting ∧
    (((s.links c).callback = true ∧
        s' = { (s.setLink c { s.links c with receiver := .ended, reported := true }).notify with
          missed := s.missed || s.pc.initializing == some c }) ∨
      ((s.links c).callback = false ∧ s' = s.setLink c { s.links c with receiver := .ended })) := by
  simp only [report, Option.ite_none_right_eq_some] at h
  obtain ⟨hreporting, h⟩ := h
  refine ⟨hreporting, ?_⟩
  split at h
  · rename_i hcallback
    cases h
    exact .inl ⟨hcallback, rfl⟩
  · rename_i hcallback
    cases h
    exact .inr ⟨Bool.eq_false_iff.mpr hcallback, rfl⟩

theorem handle_cases (h : s.handle c = some s') : ∃ r rest, (s.links c).up = true ∧
    (s.links c).requests = r :: rest ∧
    ((∃ v, (s.links c).view.handle r = some v ∧
        s' = s.setLink c { s.links c with requests := rest, view := v }) ∨
      s' = s.setLink c { s.links c with requests := rest, up := false }) := by
  unfold handle at h
  split at h
  · rename_i r rest hup hrequests
    refine ⟨r, rest, hup, hrequests, ?_⟩
    split at h
    · rename_i v hv
      cases h
      exact .inl ⟨v, hv, rfl⟩
    · cases h
      exact .inr rfl
  · cases h

end Agent

end Flora
