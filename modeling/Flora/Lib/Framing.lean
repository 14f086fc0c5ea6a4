import Mathlib.Data.List.Basic

/-! # Streams of length-prefixed frames

A stream of bytes is cut into frames by the length that each frame declares in its header, and the
frames are handed to a consumer that may reject one. `split` cuts a whole stream. A receiver that
sees the stream in pieces agrees with it if it goes on from the undelivered rest, `split_append`. -/

namespace Framing

universe u v w

/-- `frameLength` is applied to a complete header. The consumer accepts no frame that is shorter
than a header, so that every accepted frame makes progress. -/
structure Protocol (β : Type u) (ε : Type v) (σ : Type w) where
  headerSize : Nat
  headerSize_pos : 0 < headerSize
  frameLength : List β → Except ε Nat
  deliver : σ → List β → σ × Bool
  rejects_short : ∀ s frame, frame.length < headerSize → (deliver s frame).2 = false

/-- Why the cutting of a stream stops: the rest holds no complete frame, a header is invalid, or
the consumer rejected a frame. -/
inductive Ending (β : Type u) (ε : Type v) where
  | more (rest : List β)
  | invalid (error : ε)
  | rejected

namespace Protocol

variable {β : Type u} {ε : Type v} {σ : Type w} (p : Protocol β ε σ)

theorem length_pos_of_accepted {s : σ} {frame : List β} (h : (p.deliver s frame).2 = true) :
    0 < frame.length := by
  have hpos := p.headerSize_pos
  have hnot : ¬ frame.length < p.headerSize := by
    intro hlt
    rw [p.rejects_short s frame hlt] at h
    cases h
  omega

def split (s : σ) (stream : List β) : σ × Ending β ε :=
  if stream.length < p.headerSize then (s, .more stream)
  else match p.frameLength (stream.take p.headerSize) with
  | .error err => (s, .invalid err)
  | .ok n =>
    if stream.length < n then (s, .more stream)
    else if _h : (p.deliver s (stream.take n)).2 = true then
      split (p.deliver s (stream.take n)).1 (stream.drop n)
    else ((p.deliver s (stream.take n)).1, .rejected)
termination_by stream.length
decreasing_by
  have hpos := p.length_pos_of_accepted _h
  rw [List.length_take] at hpos
  rw [List.length_drop]
  omega

/-- Nothing of the stream can be delivered yet. -/
def Incomplete (stream : List β) : Prop :=
  stream.length < p.headerSize ∨
    ∃ n, p.frameLength (stream.take p.headerSize) = .ok n ∧ stream.length < n

variable {p} {s : σ} {stream : List β}

theorem split_of_incomplete (h : p.Incomplete stream) : p.split s stream = (s, .more stream) := by
  obtain hshort | ⟨n, hn, hlt⟩ := h
  · rw [split, if_pos hshort]
  · rw [split, hn]
    simp only [if_pos hlt, ite_self]

theorem split_of_invalid {err : ε} (hheader : p.headerSize ≤ stream.length)
    (h : p.frameLength (stream.take p.headerSize) = .error err) :
    p.split s stream = (s, .invalid err) := by
  rw [split, if_neg (Nat.not_lt.mpr hheader), h]

theorem split_of_complete {n : Nat} (hheader : p.headerSize ≤ stream.length)
    (h : p.frameLength (stream.take p.headerSize) = .ok n) (hn : n ≤ stream.length) :
    p.split s stream =
      if (p.deliver s (stream.take n)).2 = true then
        p.split (p.deliver s (stream.take n)).1 (stream.drop n)
      else ((p.deliver s (stream.take n)).1, .rejected) := by
  rw [split, if_neg (Nat.not_lt.mpr hheader), h]
  simp only [if_neg (Nat.not_lt.mpr hn), dite_eq_ite]

/-- The cases a receiver distinguishes when it looks for the next frame. -/
theorem incomplete_or (p : Protocol β ε σ) (stream : List β) :
    p.Incomplete stream ∨ p.headerSize ≤ stream.length ∧
      ((∃ err, p.frameLength (stream.take p.headerSize) = .error err) ∨
        ∃ n, p.frameLength (stream.take p.headerSize) = .ok n ∧ n ≤ stream.length) := by
  by_cases hshort : stream.length < p.headerSize
  · exact .inl (.inl hshort)
  · cases hlen : p.frameLength (stream.take p.headerSize) with
    | error err => exact .inr ⟨Nat.le_of_not_lt hshort, .inl ⟨err, rfl⟩⟩
    | ok n =>
      by_cases hn : stream.length < n
      · exact .inl (.inr ⟨n, hlen, hn⟩)
      · exact .inr ⟨Nat.le_of_not_lt hshort, .inr ⟨n, rfl, Nat.le_of_not_lt hn⟩⟩

/-- Cutting goes on with what arrives after a stop for want of bytes; after any other stop nothing
more is cut. -/
def resume (p : Protocol β ε σ) : σ × Ending β ε → List β → σ × Ending β ε
  | (s, .more rest), received => p.split s (rest ++ received)
  | stopped, _ => stopped

/-- A stream can be cut in pieces. -/
theorem split_append (p : Protocol β ε σ) (s : σ) (stream received : List β) :
    p.split s (stream ++ received) = p.resume (p.split s stream) received := by
  induction hlen : stream.length using Nat.strongRecOn generalizing s stream with
  | ind m ih =>
    subst hlen
    obtain hinc | ⟨hheader, hcases⟩ := p.incomplete_or stream
    · rw [split_of_incomplete hinc]
      rfl
    · have htotal : p.headerSize ≤ (stream ++ received).length := by
        rw [List.length_append]
        omega
      have htake : (stream ++ received).take p.headerSize = stream.take p.headerSize :=
        List.take_append_of_le_length hheader
      obtain ⟨err, herr⟩ | ⟨n, hlength, hn⟩ := hcases
      · rw [split_of_invalid hheader herr, split_of_invalid htotal (htake ▸ herr)]
        rfl
      · have hntotal : n ≤ (stream ++ received).length := by
          rw [List.length_append]
          omega
        rw [split_of_complete hheader hlength hn,
          split_of_complete htotal (htake ▸ hlength) hntotal,
          List.take_append_of_le_length hn, List.drop_append_of_le_length hn]
        split
        · rename_i haccept
          have hpos := p.length_pos_of_accepted haccept
          rw [List.length_take] at hpos
          apply ih (stream.drop n).length _ _ _ rfl
          rw [List.length_drop]
          omega
        · rfl

theorem split_append_of_more {s' : σ} {rest : List β} (h : p.split s stream = (s', .more rest))
    (received : List β) : p.split s (stream ++ received) = p.split s' (rest ++ received) := by
  rw [split_append, h]
  rfl

/-- The rest that is kept when bytes are missing is a suffix of the stream without a complete
frame. -/
theorem incomplete_of_split {s' : σ} {rest : List β} (h : p.split s stream = (s', .more rest)) :
    p.Incomplete rest ∧ rest <:+ stream := by
  induction hlen : stream.length using Nat.strongRecOn generalizing s stream with
  | ind m ih =>
    subst hlen
    obtain hinc | ⟨hheader, ⟨err, herr⟩ | ⟨n, hlength, hn⟩⟩ := p.incomplete_or stream
    · rw [split_of_incomplete hinc] at h
      cases h
      exact ⟨hinc, List.suffix_rfl⟩
    · rw [split_of_invalid hheader herr] at h
      cases h
    · rw [split_of_complete hheader hlength hn] at h
      split at h
      · rename_i haccept
        have hpos := p.length_pos_of_accepted haccept
        rw [List.length_take] at hpos
        have hlt : (stream.drop n).length < stream.length := by
          rw [List.length_drop]
          omega
        obtain ⟨hinc, hsuffix⟩ := ih (stream.drop n).length hlt h rfl
        exact ⟨hinc, hsuffix.trans (List.drop_suffix n stream)⟩
      · cases h

/-- A frame with a complete header that declares no other length than its own. -/
def Headed (p : Protocol β ε σ) (frame : List β) : Prop :=
  p.headerSize ≤ frame.length ∧
    ∀ n, p.frameLength (frame.take p.headerSize) = .ok n → n = frame.length

/-- The consumer after it was given these frames. -/
def feed (p : Protocol β ε σ) (s : σ) (frames : List (List β)) : σ :=
  frames.foldl (fun s frame => (p.deliver s frame).1) s

/-- Cutting changes the consumer by giving frames to it. -/
theorem split_feeds (p : Protocol β ε σ) (s : σ) (stream : List β) :
    ∃ frames, (p.split s stream).1 = p.feed s frames := by
  induction hlen : stream.length using Nat.strongRecOn generalizing s stream with
  | ind m ih =>
    subst hlen
    obtain hinc | ⟨hheader, ⟨err, herr⟩ | ⟨n, hlength, hn⟩⟩ := p.incomplete_or stream
    · exact ⟨[], by rw [split_of_incomplete hinc]; rfl⟩
    · exact ⟨[], by rw [split_of_invalid hheader herr]; rfl⟩
    · rw [split_of_complete hheader hlength hn]
      split
      · rename_i haccept
        have hpos := p.length_pos_of_accepted haccept
        rw [List.length_take] at hpos
        have hlt : (stream.drop n).length < stream.length := by
          rw [List.length_drop]
          omega
        obtain ⟨frames, hframes⟩ := ih _ hlt (p.deliver s (stream.take n)).1 (stream.drop n) rfl
        exact ⟨stream.take n :: frames, hframes⟩
      · exact ⟨[stream.take n], rfl⟩

/-- How the cutting of the first bytes of a sequence of frames ends: they hold some of the frames
and the beginning of the next one, or a header is invalid, or the consumer rejected a frame. -/
inductive Cut (p : Protocol β ε σ) (s : σ) (frames : List (List β)) (received : List β) :
    σ × Ending β ε → Prop
  | more (done next : List (List β)) (rest : List β) (hframes : frames = done ++ next)
      (hreceived : received = done.flatten ++ rest)
      (hrest : rest = [] ∨ ∃ frame later, next = frame :: later ∧ rest <+: frame ∧ rest ≠ frame) :
      Cut p s frames received (p.feed s done, .more rest)
  | invalid (done : List (List β)) (frame : List β) (later : List (List β)) (err : ε)
      (hframes : frames = done ++ frame :: later)
      (hheader : p.frameLength (frame.take p.headerSize) = .error err) :
      Cut p s frames received (p.feed s done, .invalid err)
  | rejected (done : List (List β)) (frame : List β) (later : List (List β))
      (hframes : frames = done ++ frame :: later)
      (hreject : (p.deliver (p.feed s done) frame).2 = false) :
      Cut p s frames received (p.feed s (done ++ [frame]), .rejected)

theorem Cut.cons {frame received : List β} {frames : List (List β)} {result : σ × Ending β ε}
    (h : Cut p (p.deliver s frame).1 frames received result) :
    Cut p s (frame :: frames) (frame ++ received) result := by
  cases h with
  | more done next rest hframes hreceived hrest =>
    subst hframes hreceived
    exact .more (frame :: done) next rest rfl (by simp) hrest
  | invalid done bad later err hframes hheader =>
    subst hframes
    exact .invalid (frame :: done) bad later err rfl hheader
  | rejected done bad later hframes hreject =>
    subst hframes
    exact .rejected (frame :: done) bad later rfl hreject

/-- The first bytes of a frame can be cut no further, or its header is invalid. -/
theorem Headed.incomplete_of_prefix {frame received : List β} (h : p.Headed frame)
    (hfront : received <+: frame) (hlt : received.length < frame.length) :
    p.Incomplete received ∨ p.headerSize ≤ received.length ∧
      ∃ err, p.frameLength (received.take p.headerSize) = .error err ∧
        p.frameLength (frame.take p.headerSize) = .error err := by
  by_cases hheader : p.headerSize ≤ received.length
  · have htake : received.take p.headerSize = frame.take p.headerSize := by
      obtain ⟨tail, rfl⟩ := hfront
      exact (List.take_append_of_le_length hheader).symm
    cases hlen : p.frameLength (frame.take p.headerSize) with
    | error err => exact .inr ⟨hheader, err, by rw [htake, hlen], rfl⟩
    | ok n => exact .inl (.inr ⟨n, by rw [htake, hlen], (h.2 n hlen).symm ▸ hlt⟩)
  · exact .inl (.inl (Nat.lt_of_not_le hheader))

/-- The cutting of a stream that was put together from frames finds these frames. -/
theorem cut_of_prefix {frames : List (List β)} {received : List β}
    (hframes : ∀ frame ∈ frames, p.Headed frame) (h : received <+: frames.flatten) :
    Cut p s frames received (p.split s received) := by
  induction frames generalizing s received with
  | nil =>
    obtain rfl := List.prefix_nil.mp h
    have hempty : p.Incomplete [] := .inl p.headerSize_pos
    rw [split_of_incomplete hempty]
    exact .more [] [] [] rfl rfl (.inl rfl)
  | cons frame frames ih =>
    have hheaded := hframes frame List.mem_cons_self
    have hframe : frame <+: (frame :: frames).flatten := List.prefix_append _ _
    by_cases hlt : received.length < frame.length
    · have hfront : received <+: frame :=
        List.prefix_of_prefix_length_le h hframe (Nat.le_of_lt hlt)
      obtain hinc | ⟨hheader, err, herr, hinvalid⟩ := hheaded.incomplete_of_prefix hfront hlt
      · rw [split_of_incomplete hinc]
        exact .more [] _ received rfl rfl
          (.inr ⟨frame, frames, rfl, hfront, fun heq => absurd hlt (by rw [heq]; omega)⟩)
      · rw [split_of_invalid hheader herr]
        exact .invalid [] frame frames err rfl hinvalid
    · obtain ⟨tail, rfl⟩ := List.prefix_of_prefix_length_le hframe h (Nat.le_of_not_lt hlt)
      have htail : tail <+: frames.flatten := (List.prefix_append_right_inj frame).mp h
      have hheader : p.headerSize ≤ (frame ++ tail).length := by
        rw [List.length_append]
        exact Nat.le_add_right_of_le hheaded.1
      have htake : (frame ++ tail).take p.headerSize = frame.take p.headerSize :=
        List.take_append_of_le_length hheaded.1
      cases hlen : p.frameLength (frame.take p.headerSize) with
      | error err =>
        rw [split_of_invalid hheader (htake ▸ hlen)]
        exact .invalid [] frame frames err rfl hlen
      | ok n =>
        obtain rfl := hheaded.2 n hlen
        rw [split_of_complete hheader (htake ▸ hlen) (by simp), List.take_left, List.drop_left]
        split
        · exact (ih (fun m hm => hframes m (List.mem_cons_of_mem _ hm)) htail).cons
        · rename_i hreject
          exact .rejected [] frame frames rfl (Bool.eq_false_iff.mpr hreject)

/-- Where all bytes of the frames have arrived and the rest holds no frame, none is left. -/
theorem eq_nil_of_flatten {next : List (List β)} {rest : List β}
    (hframes : ∀ frame ∈ next, p.Headed frame)
    (hrest : rest = [] ∨ ∃ frame later, next = frame :: later ∧ rest <+: frame ∧ rest ≠ frame)
    (h : rest = next.flatten) : next = [] := by
  cases next with
  | nil => rfl
  | cons frame later =>
    have hpos := p.headerSize_pos
    have hheader := (hframes frame List.mem_cons_self).1
    have hlength := congrArg List.length h
    rw [List.flatten_cons, List.length_append] at hlength
    obtain rfl | ⟨_, _, heq, hfront, hne⟩ := hrest
    · rw [List.length_nil] at hlength
      omega
    · cases heq
      exact absurd (hfront.eq_of_length_le (by omega)) hne

end Protocol

end Framing
