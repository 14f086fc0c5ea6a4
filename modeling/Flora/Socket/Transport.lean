import Flora.Client.Framing
import Flora.Socket.Framing
import Flora.Socket.Streams
import Flora.Wire

/-! # The two directions of a connection

A direction is the writing side of one end, the bytes on their way and the reading side of the
other end. As long as no write is short, the receiver is given exactly the messages that were
reported as sent, in their order. -/

namespace Flora

open TransitionSystem Framing

universe u

structure CapsLibrary extends CapsFormat where
  serialize : ByteOrder → Caps → List Byte

namespace CapsLibrary

variable (w : CapsLibrary)

def codec : CapsCodec where
  serialize := w.serialize
  parse := w.parse

/-- A serialized container states its length in its header and is read as it was written. -/
structure Sound (order : ByteOrder) (caps : Caps) : Prop where
  length : w.binaryInfo ((w.serialize order caps).take headerSize) =
    some (BitVec.ofNat 32 (w.serialize order caps).length)
  faithful : w.codec.Faithful order caps

/-- What a serializer with a buffer of `size` bytes made of the members. -/
def Written (size : Nat) (caps : Caps) (bytes : List Byte) : Prop :=
  ∃ order, w.Sound order caps ∧ w.codec.write order size caps = some bytes

variable {w} {size : Nat} {caps : Caps} {bytes : List Byte}

theorem Written.eq_serialize (h : w.Written size caps bytes) :
    ∃ order, w.Sound order caps ∧ bytes = w.serialize order caps ∧ bytes.length < 2 ^ 31 := by
  obtain ⟨order, hsound, hwrite⟩ := h
  simp only [CapsCodec.write, Option.ite_none_right_eq_some, Option.some.injEq] at hwrite
  obtain ⟨⟨hlt, -⟩, rfl⟩ := hwrite
  exact ⟨order, hsound, rfl, hlt⟩

theorem Written.parse (h : w.Written size caps bytes) : w.parse bytes = some caps := by
  obtain ⟨order, hsound, rfl, -⟩ := h.eq_serialize
  exact hsound.faithful

theorem Written.command (h : w.Written size caps bytes) :
    w.codec.command bytes = caps.readWord := by
  obtain ⟨order, hsound, hwrite⟩ := h
  exact CapsCodec.command_of_write hsound.faithful hwrite

theorem Written.header (h : w.Written size caps bytes) : headerSize ≤ bytes.length ∧
    ∃ length, w.binaryInfo (bytes.take headerSize) = some length ∧
      length.toNat = bytes.length := by
  constructor
  · apply Nat.le_of_not_lt
    intro hshort
    cases (w.parse_short bytes hshort).symm.trans h.parse
  · obtain ⟨order, hsound, rfl, hlt⟩ := h.eq_serialize
    exact ⟨_, hsound.length, Word.toNat_ofNat (Nat.lt_trans hlt (by decide))⟩

def sampleByte (caps : Caps) : Byte := (caps.readWord.map fun p => p.1.setWidth 8).getD 0

/-- A library whose frames are a header: its first byte tells which of the messages it carries, by
the command. -/
def sample (messages : List Caps) : CapsLibrary where
  binaryInfo := Caps.sampleLength
  parse data := if data.length < headerSize then none
    else messages.find? fun caps => data.head? == some (sampleByte caps)
  parse_short _ h := if_pos h
  serialize _ caps := [sampleByte caps, 0, 0, 0, 0, 0, 0, 8]

theorem sample_sound (order : ByteOrder) {messages : List Caps} {caps : Caps}
    (h : messages.find? (fun m => some (sampleByte caps) == some (sampleByte m)) = some caps) :
    (sample messages).Sound order caps := by
  have hlength : ((0 : Byte) ++ (0 : Byte) ++ (0 : Byte) ++ (8 : Byte) : Word) = 8 := by decide
  exact ⟨congrArg some hlength, h⟩

end CapsLibrary

/-- The messages of the sender, and the receiver with its history of the bytes it has read. -/
structure Direction (M : Type) (ρ : Type u) (α : Type) where
  endpoint : Endpoint
  caps : M → Caps
  receive : ρ → α → Option ρ
  received : ρ → List Byte

structure Channel (M : Type) (ρ : Type u) where
  sender : Outgoing := {}
  receiver : ρ
  /-- History: the messages that were reported as sent, with their bytes. -/
  sent : List (M × List Byte) := []

namespace Channel

inductive Action (M α : Type) where
  | send (message : M) (order : ByteOrder) (os : OsWrite)
  | close
  | receive (act : α)

section Model

variable {M α : Type} {ρ : Type u} (d : Direction M ρ α) (w : CapsLibrary) (size : Nat)
  (l : Channel M ρ)

/-- The serialized message is passed to the socket. -/
def submit (message : M) (bytes : List Byte) (os : OsWrite) : Option (Channel M ρ) :=
  (Outgoing.step d.endpoint l.sender (.submit bytes os)).map fun sender => { l with
    sender := sender
    sent := if (Outgoing.deliver d.endpoint l.sender bytes os).2 then l.sent ++ [(message, bytes)]
      else l.sent }

/-- A message that does not fit the buffer of the sender is not sent. The receiver reads bytes that
the operating system of the sender has accepted. -/
def step : Action M α → Option (Channel M ρ)
  | .send message order os =>
    match w.codec.write order size (d.caps message) with
    | none => some l
    | some bytes => l.submit d message bytes os
  | .close =>
    (Outgoing.step d.endpoint l.sender .close).map fun sender => { l with sender := sender }
  | .receive act => (d.receive l.receiver act).bind fun receiver =>
    if d.received receiver <+: l.sender.wire then some { l with receiver := receiver } else none

def system (init : ρ → Prop) : System (Channel M ρ) (Action M α) :=
  System.ofStep (fun l => ∃ r, init r ∧ l = { receiver := r }) (step d w size)

/-- The container library works for the message, and its bytes are written as a whole or not at
all. -/
def Regular : Action M α → Prop
  | .send message order os => w.Sound order (d.caps message) ∧
    ∀ bytes, w.codec.write order size (d.caps message) = some bytes →
      Outgoing.WholeWrite d.endpoint l.sender (.submit bytes os)
  | _ => True

def regular (init : ρ → Prop) : System (Channel M ρ) (Action M α) :=
  (system d w size init).guard (Regular d w size)

def receiverSteps (init : ρ → Prop) : System (Channel M ρ) (Action M α) :=
  (regular d w size init).guard fun _ act => ∃ a, act = .receive a

def frames : List (List Byte) := l.sent.map Prod.snd

/-- A bound on the steps of the receiver: reading a byte makes up for at most `bound` steps inside
the receiver, of which `inner` are left. -/
def remaining (bound : Nat) (inner : ρ → Nat) : Nat :=
  (bound + 1) * (l.sender.wire.length - (d.received l.receiver).length) + inner l.receiver

/-- The wire holds the messages that were reported as sent, and the receiver has read the
beginning of it. -/
structure Wf (init : ρ → Prop) : Prop where
  wire : l.sender.wire = l.frames.flatten
  written : ∀ m ∈ l.sent, w.Written size (d.caps m.1) m.2
  receiver : (System.ofStep init d.receive).Reachable l.receiver
  arrived : d.received l.receiver <+: l.sender.wire

end Model

variable {M α : Type} {ρ : Type u} {d : Direction M ρ α} {w : CapsLibrary} {size : Nat}
  {l l' : Channel M ρ} {init : ρ → Prop}

theorem Wf.submit (h : Wf d w size l init) {message : M} {order : ByteOrder} {os : OsWrite}
    {bytes : List Byte} (hsound : w.Sound order (d.caps message))
    (hwrite : w.codec.write order size (d.caps message) = some bytes)
    (hwhole : Outgoing.WholeWrite d.endpoint l.sender (.submit bytes os))
    (hstep : l.submit d message bytes os = some l') : Wf d w size l' init := by
  obtain ⟨sender, hsender, rfl⟩ := Option.map_eq_some_iff.mp hstep
  obtain ⟨-, hwire, -⟩ := Outgoing.step_submit hsender
  obtain ⟨hkeep, hfail, -⟩ | ⟨count, rfl, hopen, hne, htake, hsent⟩ :=
    Outgoing.deliver_cases d.endpoint l.sender bytes os
  · refine ⟨?_, ?_, h.receiver, ?_⟩
    · simp only [frames, hfail, hwire, hkeep, Bool.false_eq_true, if_false]
      exact h.wire
    · simp only [hfail, Bool.false_eq_true, if_false]
      exact h.written
    · change _ <+: sender.wire
      rw [hwire, hkeep]
      exact h.arrived
  · have hcount : count = bytes.length := by
      obtain heq | ⟨hk, hzero⟩ := hwhole hopen
      · exact heq
      · exact absurd hzero (hne hk)
    subst hcount
    rw [List.take_length] at htake
    refine ⟨?_, ?_, h.receiver, ?_⟩
    · simp only [frames, hsent, if_true, hwire, htake, List.map_append, List.flatten_append]
      rw [h.wire]
      simp [frames]
    · simp only [hsent, if_true]
      intro m hm
      obtain hm | hm := List.mem_append.mp hm
      · exact h.written m hm
      · rw [List.mem_singleton.mp hm]
        exact ⟨order, hsound, hwrite⟩
    · change _ <+: sender.wire
      rw [hwire, htake]
      exact h.arrived.trans (List.prefix_append _ _)

theorem Wf.receive (h : Wf d w size l init) {a : α} {r : ρ}
    (hstep : d.receive l.receiver a = some r) (harrived : d.received r <+: l.sender.wire) :
    Wf d w size { l with receiver := r } init :=
  ⟨h.wire, h.written, h.receiver.next hstep, harrived⟩

theorem reachable_wf (hinit : ∀ r, init r → d.received r = [])
    (h : (regular d w size init).Reachable l) : Wf d w size l init := by
  apply h.invariant
  · rintro l ⟨r, hr, rfl⟩
    have hnone : d.received r <+: [] := List.prefix_nil.mpr (hinit r hr)
    exact ⟨rfl, nofun, .start hr, hnone⟩
  · rintro l act l' hl ⟨hregular, hstep⟩
    cases act with
    | send message order os =>
      obtain ⟨hsound, hwhole⟩ := hregular
      change (match w.codec.write order size (d.caps message) with
        | none => some l
        | some bytes => l.submit d message bytes os) = some l' at hstep
      cases hwrite : w.codec.write order size (d.caps message) with
      | none =>
        rw [hwrite] at hstep
        cases hstep
        exact hl
      | some bytes =>
        rw [hwrite] at hstep
        exact hl.submit hsound hwrite (hwhole bytes hwrite) hstep
    | close =>
      cases hstep
      exact ⟨hl.wire, hl.written, hl.receiver, hl.arrived⟩
    | receive act =>
      obtain ⟨r, hr, hif⟩ := Option.bind_eq_some_iff.mp hstep
      obtain ⟨harrived, heq⟩ := Option.ite_none_right_eq_some.mp hif
      cases heq
      exact hl.receive hr harrived

theorem reachable_receive {act : α} (h : (regular d w size init).Reachable l)
    (hstep : l.step d w size (.receive act) = some l') : (regular d w size init).Reachable l' :=
  h.next (a := .receive act) ⟨trivial, hstep⟩

theorem remaining_read {bound : Nat} {inner : ρ → Nat} {r : ρ} {b : Byte} {tail : List Byte}
    (hwire : d.received l.receiver ++ b :: tail = l.sender.wire)
    (hreceived : d.received r = d.received l.receiver ++ [b]) (hinner : inner r ≤ bound) :
    remaining d { l with receiver := r } bound inner < remaining d l bound inner := by
  have hbefore : l.sender.wire.length - (d.received l.receiver).length = tail.length + 1 := by
    rw [← hwire, List.length_append, List.length_cons]
    omega
  have hafter : l.sender.wire.length - (d.received r).length = tail.length := by
    rw [hreceived, ← hwire, List.length_append, List.length_append, List.length_cons,
      List.length_singleton]
    omega
  simp only [remaining, hbefore, hafter, Nat.mul_succ]
  omega

/-- If the receiver has a step towards `Q` wherever `Q` does not hold yet, its steps lead to `Q`. -/
theorem exists_receiver_run {P Q : Channel M ρ → Prop} {v : Channel M ρ → Nat} (hl : P l)
    (hnext : ∀ l, P l → Q l ∨ ∃ act r, d.receive l.receiver act = some r ∧
      d.received r <+: l.sender.wire ∧ P { l with receiver := r } ∧
        v { l with receiver := r } < v l) :
    ∃ acts l', (receiverSteps d w size init).Run l acts l' ∧ l'.sent = l.sent ∧ Q l' := by
  have hstep : ∀ t, P t ∧ t.sent = l.sent → (t.sent = l.sent ∧ Q t) ∨
      ∃ act t', (receiverSteps d w size init).step t act t' ∧ (P t' ∧ t'.sent = l.sent) ∧
        v t' < v t := by
    rintro t ⟨ht, hsent⟩
    obtain hq | ⟨act, r, hr, harrived, ht', hlt⟩ := hnext t ht
    · exact .inl ⟨hsent, hq⟩
    · refine .inr ⟨.receive act, _, ⟨⟨act, rfl⟩, trivial, ?_⟩, ⟨ht', hsent⟩, hlt⟩
      change ((d.receive t.receiver act).bind fun receiver =>
        if d.received receiver <+: t.sender.wire then some { t with receiver := receiver }
        else none) = _
      rw [hr, Option.bind_some, if_pos harrived]
  exact System.exists_run_of_rank (P := fun t => P t ∧ t.sent = l.sent) ⟨hl, rfl⟩ hstep

/-- The rest is the beginning of the first of the messages that are still to come. -/
def Partial (rest : List Byte) (later : List (M × List Byte)) : Prop :=
  rest = [] ∨ ∃ m ms, later = m :: ms ∧ rest <+: m.2 ∧ rest ≠ m.2

/-- How the cutting of the bytes that have arrived ends, in terms of the messages. -/
inductive Cut {ε : Type} {σ : Type u} (p : Protocol Byte ε σ) (s : σ) (sent : List (M × List Byte))
    (received : List Byte) : σ × Ending Byte ε → Prop
  | more (done later : List (M × List Byte)) (rest : List Byte) (hsent : sent = done ++ later)
      (hreceived : received = (done.map Prod.snd).flatten ++ rest) (hrest : Partial rest later) :
      Cut p s sent received (p.feed s (done.map Prod.snd), .more rest)
  | invalid (done : List (M × List Byte)) (m : M × List Byte) (later : List (M × List Byte))
      (err : ε) (hsent : sent = done ++ m :: later)
      (hheader : p.frameLength (m.2.take p.headerSize) = .error err) :
      Cut p s sent received (p.feed s (done.map Prod.snd), .invalid err)
  | rejected (done : List (M × List Byte)) (m : M × List Byte) (later : List (M × List Byte))
      (hsent : sent = done ++ m :: later)
      (hreject : (p.deliver (p.feed s (done.map Prod.snd)) m.2).2 = false) :
      Cut p s sent received (p.feed s ((done ++ [m]).map Prod.snd), .rejected)

section Cutting

variable {ε : Type} {σ : Type u} {p : Protocol Byte ε σ}

theorem Wf.cut (h : Wf d w size l init)
    (hheaded : ∀ caps bytes, w.Written size caps bytes → p.Headed bytes) (s : σ) :
    Cut p s l.sent (d.received l.receiver) (p.split s (d.received l.receiver)) := by
  have hcut : p.Cut s l.frames (d.received l.receiver) (p.split s (d.received l.receiver)) := by
    apply Protocol.cut_of_prefix
    · intro frame hframe
      obtain ⟨m, hm, rfl⟩ := List.mem_map.mp hframe
      exact hheaded _ _ (h.written m hm)
    · rw [← h.wire]
      exact h.arrived
  generalize p.split s (d.received l.receiver) = result at hcut
  cases hcut with
  | more frames next rest hframes hreceived hrest =>
    obtain ⟨done, later, hsent, rfl, rfl⟩ := List.map_eq_append_iff.mp hframes
    refine .more done later rest hsent hreceived ?_
    obtain hnil | ⟨frame, frames, hnext, hfront, hne⟩ := hrest
    · exact .inl hnil
    · obtain ⟨m, ms, rfl, rfl, -⟩ := List.map_eq_cons_iff.mp hnext
      exact .inr ⟨m, ms, rfl, hfront, hne⟩
  | invalid frames frame next err hframes hheader =>
    obtain ⟨done, last, hsent, rfl, hlast⟩ := List.map_eq_append_iff.mp hframes
    obtain ⟨m, later, rfl, rfl, -⟩ := List.map_eq_cons_iff.mp hlast
    exact .invalid done m later err hsent hheader
  | rejected frames frame next hframes hreject =>
    obtain ⟨done, last, hsent, rfl, hlast⟩ := List.map_eq_append_iff.mp hframes
    obtain ⟨m, later, rfl, rfl, -⟩ := List.map_eq_cons_iff.mp hlast
    have hmap : done.map Prod.snd ++ [m.2] = (done ++ [m]).map Prod.snd := by simp
    rw [hmap]
    exact .rejected done m later hsent hreject

/-- When the bytes of all messages have arrived and the rest is no complete frame, no message is
left. -/
theorem Wf.all_arrived (h : Wf d w size l init)
    (hheaded : ∀ caps bytes, w.Written size caps bytes → p.Headed bytes)
    {done later : List (M × List Byte)} {rest : List Byte} (hsent : l.sent = done ++ later)
    (hrest : Partial rest later)
    (hreceived : d.received l.receiver = (done.map Prod.snd).flatten ++ rest)
    (hall : d.received l.receiver = l.sender.wire) : later = [] := by
  rw [hreceived, h.wire, frames, hsent, List.map_append, List.flatten_append] at hall
  have hnext : ∀ frame ∈ later.map Prod.snd, p.Headed frame := by
    intro frame hframe
    obtain ⟨m, hm, rfl⟩ := List.mem_map.mp hframe
    apply hheaded _ _ (h.written m _)
    rw [hsent]
    exact List.mem_append_right done hm
  apply List.map_eq_nil_iff.mp
  apply Protocol.eq_nil_of_flatten hnext _ (List.append_cancel_left hall)
  obtain hnil | ⟨m, ms, rfl, hfront, hne⟩ := hrest
  · exact .inl hnil
  · exact .inr ⟨m.2, ms.map Prod.snd, rfl, hfront, hne⟩

end Cutting

end Channel

end Flora
