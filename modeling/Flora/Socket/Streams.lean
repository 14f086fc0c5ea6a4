import Flora.Dispatcher.State
import Flora.Lib.Transition
import Mathlib.Data.List.Flatten

/-! # Outgoing streams

`SocketAdapter::write` and `SocketConn::send` over every behaviour of the operating system's write.
Both take a short write for success, so that the stream stays aligned with the frames exactly as
long as no write is short. -/

namespace Flora

open TransitionSystem

/-- What `::write` does with a message: it takes `count` leading bytes and returns their number, or
takes none and returns a negative value, with `errno` telling whether the write timed out. -/
inductive OsWrite where
  | accepted (count : Nat)
  | failed (again : Bool)
  deriving DecidableEq, Repr

/-- `::write` accepts no more bytes than it is given. -/
def OsWrite.within (message : List Byte) : OsWrite → Bool
  | .accepted count => count ≤ message.length
  | .failed _ => true

/-- What the callers of `SocketAdapter::write` see of it. -/
def OsWrite.result : OsWrite → WriteResult
  | .accepted _ => .success
  | .failed again => if again then .timeout else .error

/-- History of a message: the bytes of it that were accepted and whether success was reported. -/
structure Submission where
  message : List Byte
  accepted : List Byte
  success : Bool
  deriving DecidableEq, Repr

/-- The outgoing side of a socket. `opened` stands for a buffer that is not null on the service
side and for `sock_ready` on the client side. -/
structure Outgoing where
  opened : Bool := true
  /-- The bytes accepted by the operating system. -/
  wire : List Byte := []
  submissions : List Submission := []
  deriving DecidableEq, Repr

/-- A failing write closes the adapter; a short one is not told from a complete one. -/
def SocketAdapter.write (o : Outgoing) (data : List Byte) (os : OsWrite) : Outgoing × WriteResult :=
  if o.opened then
    match os with
    | .failed again => ({ o with opened := false }, if again then .timeout else .error)
    | .accepted count => ({ o with wire := o.wire ++ data.take count }, .success)
  else (o, .error)

/-- The dispatcher's write is this one, seen through its result. -/
theorem Dispatcher.write_refines (e : Env) (d : Dispatcher) (a : AdapterId) (order : ByteOrder)
    (caps : Caps) (answers : Option Answer) (o : Outgoing) (data : List Byte) (os : OsWrite)
    (hopen : o.opened = !(d.adapters a).closed) (hos : e.os d.out.length = os.result) :
    (d.write e a order caps answers).2 = (SocketAdapter.write o data os).2 ∧
      ((d.write e a order caps answers).1.adapters a).closed =
        !(SocketAdapter.write o data os).1.opened := by
  cases hclosed : (d.adapters a).closed with
  | true => simp [Dispatcher.write, SocketAdapter.write, hopen, hclosed, logWrite]
  | false =>
    rw [hclosed] at hopen
    cases os with
    | accepted count =>
      simp [Dispatcher.write, SocketAdapter.write, hopen, hclosed, hos, OsWrite.result, logWrite]
    | failed again =>
      cases again <;>
        simp [Dispatcher.write, SocketAdapter.write, hopen, hclosed, hos, OsWrite.result, logWrite,
          Dispatcher.close, setAdapter]

/-- A failing send leaves the connection open. -/
def SocketConn.send (o : Outgoing) (data : List Byte) (os : OsWrite) : Outgoing × Bool :=
  if o.opened then
    match os with
    | .failed _ => (o, false)
    | .accepted 0 => (o, false)
    | .accepted count => ({ o with wire := o.wire ++ data.take count }, true)
  else (o, false)

inductive Endpoint where
  | service
  | client
  deriving DecidableEq, Repr

namespace Outgoing

inductive Action where
  | submit (message : List Byte) (os : OsWrite)
  | close

/-- The new state and whether the message is reported as sent. -/
def deliver (k : Endpoint) (o : Outgoing) (message : List Byte) (os : OsWrite) : Outgoing × Bool :=
  match k with
  | .service => ((SocketAdapter.write o message os).1,
      (SocketAdapter.write o message os).2 = .success)
  | .client => SocketConn.send o message os

def step (k : Endpoint) (o : Outgoing) : Action → Option Outgoing
  | .submit message os =>
    if os.within message then
      let (o', success) := deliver k o message os
      some { o' with submissions :=
        o.submissions ++ [⟨message, o'.wire.drop o.wire.length, success⟩] }
    else none
  | .close => some { o with opened := false }

def system (k : Endpoint) : System Outgoing Action := System.ofStep (· = {}) (step k)

/-- The accepted bytes are complete messages in order, and possibly a proper prefix of a message
once the endpoint is closed. -/
def Aligned (o : Outgoing) : Prop :=
  ∃ (complete : List (List Byte)) (tail : List Byte),
    complete.Sublist (o.submissions.map Submission.message) ∧
    o.wire = complete.flatten ++ tail ∧
    (tail = [] ∨ o.opened = false ∧ ∃ s ∈ o.submissions, tail <+: s.message ∧ tail ≠ s.message)

/-- Success is reported for complete messages only. -/
def Honest (o : Outgoing) : Prop := ∀ s ∈ o.submissions, s.success = true → s.accepted = s.message

/-- The write that a step makes takes the whole message or nothing of it, and on the service side
does not return 0 instead of an error. -/
def WholeWrite (k : Endpoint) (o : Outgoing) : Action → Prop
  | .submit message (.accepted count) => o.opened = true →
      count = message.length ∨ k = .client ∧ count = 0
  | _ => True

/-- Complete messages only. -/
structure Whole (o : Outgoing) : Prop where
  wire : ∃ complete : List (List Byte), complete.Sublist (o.submissions.map Submission.message) ∧
    o.wire = complete.flatten
  honest : Honest o

variable {k : Endpoint} {o o' : Outgoing} {message : List Byte}

theorem Whole.aligned (h : Whole o) : Aligned o := by
  obtain ⟨complete, hsub, hwire⟩ := h.wire
  exact ⟨complete, [], hsub, by rw [hwire, List.append_nil], .inl rfl⟩

theorem Honest.append {s : Submission} {ss : List Submission}
    (h : ∀ s ∈ ss, s.success = true → s.accepted = s.message)
    (hs : s.success = true → s.accepted = s.message) :
    ∀ t ∈ ss ++ [s], t.success = true → t.accepted = t.message := by
  intro t ht
  obtain ht | ht := List.mem_append.mp ht
  · exact h t ht
  · rw [List.mem_singleton.mp ht]
    exact hs

/-- What one message does to the wire: nothing and it is not reported as sent, or some leading
bytes of it are accepted and it is. -/
theorem deliver_cases (k : Endpoint) (o : Outgoing) (message : List Byte) (os : OsWrite) :
    ((deliver k o message os).1.wire = o.wire ∧ (deliver k o message os).2 = false ∧
      (∀ count, os = .accepted count → o.opened = true → k = .client ∧ count = 0)) ∨
    ∃ count, os = .accepted count ∧ o.opened = true ∧ (k = .client → count ≠ 0) ∧
      (deliver k o message os).1.wire = o.wire ++ message.take count ∧
      (deliver k o message os).2 = true := by
  cases hopen : o.opened with
  | false =>
    left
    cases k <;> simp [deliver, SocketAdapter.write, SocketConn.send, hopen]
  | true =>
    cases os with
    | failed again =>
      left
      cases k <;> cases again <;> simp [deliver, SocketAdapter.write, SocketConn.send, hopen]
    | accepted count =>
      cases k with
      | service =>
        right
        simp [deliver, SocketAdapter.write, hopen]
      | client =>
        cases count with
        | zero =>
          left
          simp [deliver, SocketConn.send, hopen]
        | succ n =>
          right
          simp [deliver, SocketConn.send, hopen]

theorem step_submit {os : OsWrite} (h : step k o (.submit message os) = some o') :
    os.within message = true ∧ o'.wire = (deliver k o message os).1.wire ∧
      o'.submissions = o.submissions ++
        [⟨message, (deliver k o message os).1.wire.drop o.wire.length, (deliver k o message os).2⟩] := by
  simp only [step, Option.ite_none_right_eq_some, Option.some.injEq] at h
  obtain ⟨hwithin, rfl⟩ := h
  exact ⟨hwithin, rfl, rfl⟩

theorem Whole.step {act : Action} (h : Whole o) (hstep : step k o act = some o')
    (hwhole : WholeWrite k o act) : Whole o' := by
  cases act with
  | close =>
    cases hstep
    exact ⟨h.wire, h.honest⟩
  | submit message os =>
    obtain ⟨_, hwire', hsubs⟩ := step_submit hstep
    obtain ⟨complete, hsub, hwire⟩ := h.wire
    obtain ⟨hkeep, hfail, _⟩ | ⟨count, rfl, hopen, hne, htake, hsent⟩ := deliver_cases k o message os
    · constructor
      · refine ⟨complete, ?_, by rw [hwire', hkeep, hwire]⟩
        rw [hsubs, List.map_append]
        exact hsub.trans (List.sublist_append_left _ _)
      · rw [Honest, hsubs, hfail]
        exact Honest.append h.honest fun hs => absurd hs Bool.false_ne_true
    · have hcount : count = message.length := by
        obtain heq | ⟨hk, hzero⟩ := hwhole hopen
        · exact heq
        · exact absurd hzero (hne hk)
      subst hcount
      rw [List.take_length] at htake
      constructor
      · refine ⟨complete ++ [message], ?_, by rw [hwire', htake, hwire]; simp⟩
        rw [hsubs, List.map_append]
        exact hsub.append (List.Sublist.refl _)
      · rw [Honest, hsubs]
        refine Honest.append h.honest fun _ => ?_
        rw [htake, List.drop_left]

/-- A short write is reported as a success. -/
theorem wholeWrite_of_honest {act : Action} (hstep : step k o act = some o') (h : Honest o') :
    WholeWrite k o act := by
  cases act with
  | close => trivial
  | submit message os =>
    cases os with
    | failed again => trivial
    | accepted count =>
      intro hopen
      obtain ⟨hwithin, _, hsubs⟩ := step_submit hstep
      obtain ⟨_, _, hzero⟩ | ⟨n, hn, _, _, htake, hsent⟩ :=
        deliver_cases k o message (.accepted count)
      · exact .inr (hzero count rfl hopen)
      · cases hn
        left
        have hlast := h ⟨message, (deliver k o message (.accepted count)).1.wire.drop o.wire.length,
          (deliver k o message (.accepted count)).2⟩ (by rw [hsubs]; simp) hsent
        rw [htake, List.drop_left] at hlast
        have hlength : (message.take count).length = message.length := congrArg List.length hlast
        rw [List.length_take] at hlength
        have hle : count ≤ message.length := of_decide_eq_true hwithin
        omega

/-- The stream is aligned with the frames and every reported message is complete, in every state
of a run, exactly when every write of the run takes a whole message or nothing. -/
theorem aligned_iff_whole_writes (k : Endpoint) {acts : List Action} {o : Outgoing}
    (h : execute (step k) {} acts = some o) :
    (∀ bs o', bs <+: acts → execute (step k) {} bs = some o' → Aligned o' ∧ Honest o') ↔
      ((system k).guard (WholeWrite k)).Run {} acts o := by
  have hempty : Whole {} := ⟨⟨[], List.Sublist.refl _, rfl⟩, nofun⟩
  apply execute_guard_iff (I := Whole) _ _ _ hempty h
  · exact fun o ho => ⟨ho.aligned, ho.honest⟩
  · exact fun o o' act _ ho hstep hG => ho.step hstep hG
  · exact fun o o' act _ _ hstep hP => wholeWrite_of_honest hstep hP.2

/-- The second write fails, the third returns 0, and the client goes on with the fourth message. -/
def sampleWrites : List Action :=
  [.submit [1, 2] (.accepted 2), .submit [3, 4] (.failed true), .submit [5] (.accepted 0),
    .submit [6, 7, 8] (.accepted 3)]

theorem aligned_iff_whole_writes_sample :
    execute (step .client) {} sampleWrites = some ⟨true, [1, 2, 6, 7, 8],
      [⟨[1, 2], [1, 2], true⟩, ⟨[3, 4], [], false⟩, ⟨[5], [], false⟩,
        ⟨[6, 7, 8], [6, 7, 8], true⟩]⟩ ∧
    ∀ bs o', bs <+: sampleWrites → execute (step .client) {} bs = some o' →
      Aligned o' ∧ Honest o' := by
  refine ⟨rfl, (aligned_iff_whole_writes .client rfl).mpr ?_⟩
  exact .cons ⟨fun _ => .inl rfl, rfl⟩ (.cons ⟨trivial, rfl⟩
    (.cons ⟨fun _ => .inr ⟨rfl, rfl⟩, rfl⟩ (.single ⟨fun _ => .inl rfl, rfl⟩)))

/-- After one byte of `[1, 2]` and the message `[3, 4]`, on an open endpoint. -/
def shortWrite : Outgoing :=
  ⟨true, [1, 3, 4], [⟨[1, 2], [1], true⟩, ⟨[3, 4], [3, 4], true⟩]⟩

theorem shortWrite_not_aligned : ¬ Aligned shortWrite := by
  rintro ⟨complete, tail, hsub, hwire, htail⟩
  have hnil : tail = [] := by
    obtain hnil | ⟨hclosed, _⟩ := htail
    · exact hnil
    · cases hclosed
  subst hnil
  have hlength := congrArg List.length hwire
  -- Both messages have two bytes, and the wire has three.
  have heven : ∀ m ∈ complete, m.length = 2 := by
    intro m hm
    have hmem : m ∈ [([1, 2] : List Byte), [3, 4]] := hsub.subset hm
    obtain rfl | rfl : m = [1, 2] ∨ m = [3, 4] := by simpa using hmem
    · rfl
    · rfl
  have hsum : complete.flatten.length = complete.length * 2 := by
    clear hsub hwire htail hlength
    induction complete with
    | nil => rfl
    | cons m ms ih =>
      rw [List.flatten_cons, List.length_append, heven m List.mem_cons_self,
        ih fun x hx => heven x (List.mem_cons_of_mem m hx), List.length_cons]
      omega
  rw [List.append_nil, hsum] at hlength
  have hthree : shortWrite.wire.length = 3 := rfl
  omega

theorem shortWrite_not_honest : ¬ Honest shortWrite := by
  intro hhonest
  have hfirst := hhonest ⟨[1, 2], [1], true⟩ List.mem_cons_self rfl
  cases hfirst

/-- Either endpoint reports a message of which one byte was accepted as sent, and goes on with the
next message behind that byte. -/
theorem short_write_misaligns :
    (execute (step .service) {} [.submit [1, 2] (.accepted 1), .submit [3, 4] (.accepted 2)] =
      some shortWrite ∧
    execute (step .client) {} [.submit [1, 2] (.accepted 1), .submit [3, 4] (.accepted 2)] =
      some shortWrite) ∧ ¬ Aligned shortWrite ∧ ¬ Honest shortWrite :=
  ⟨⟨rfl, rfl⟩, shortWrite_not_aligned, shortWrite_not_honest⟩

end Outgoing

end Flora
