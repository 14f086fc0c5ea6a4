import Mathlib.Algebra.Group.Nat.Defs
import Mathlib.Data.List.Basic

/-! # Caps messages

The wire container every flora frame is made of: an ordered list of typed members, read in order
through typed accessors. Signed and unsigned integers of one width share a member type, so a
32-bit member is kept as its bits; a nested container may be a null pointer. -/

namespace Flora

/-- The bits of an `int32_t` or a `uint32_t`. -/
abbrev Word := BitVec 32

namespace Word

theorem toNat_ofNat {n : Nat} (h : n < 2 ^ 32) : (BitVec.ofNat 32 n).toNat = n := by
  rw [BitVec.toNat_ofNat]
  exact Nat.mod_eq_of_lt h

theorem ofNat_inj {n m : Nat} (hn : n < 2 ^ 32) (hm : m < 2 ^ 32)
    (h : BitVec.ofNat 32 n = BitVec.ofNat 32 m) : n = m := by
  rw [← toNat_ofNat hn, h, toNat_ofNat hm]

theorem ofNat_ne_zero {n : Nat} (h₀ : 0 < n) (h₁ : n < 2 ^ 32) : BitVec.ofNat 32 n ≠ 0 := by
  intro heq
  have hzero : n = 0 := ofNat_inj h₁ (by omega) heq
  omega

end Word

inductive CapsValue where
  | i32 (v : Word)
  | i64 (v : BitVec 64)
  | f32 (bits : Word)
  | f64 (bits : BitVec 64)
  | str (s : String)
  | bin (data : List (BitVec 8))
  | obj (c : Option (List CapsValue))

/-- The members of a container that have not been read yet. -/
abbrev Caps := List CapsValue

/-- A `shared_ptr<Caps>`. -/
abbrev CapsPtr := Option Caps

namespace Caps

-- A failing read leaves the cursor where it is: the accessors return the rest only on success.

def readWord : Caps → Option (Word × Caps)
  | .i32 v :: rest => some (v, rest)
  | _ => none

def readLong : Caps → Option (BitVec 64 × Caps)
  | .i64 v :: rest => some (v, rest)
  | _ => none

def readString : Caps → Option (String × Caps)
  | .str s :: rest => some (s, rest)
  | _ => none

def readCaps : Caps → Option (CapsPtr × Caps)
  | .obj c :: rest => some (c, rest)
  | _ => none

@[simp] theorem readWord_i32 (v : Word) (rest : Caps) :
    readWord (.i32 v :: rest) = some (v, rest) := rfl

@[simp] theorem readLong_i64 (v : BitVec 64) (rest : Caps) :
    readLong (.i64 v :: rest) = some (v, rest) := rfl

@[simp] theorem readString_str (s : String) (rest : Caps) :
    readString (.str s :: rest) = some (s, rest) := rfl

@[simp] theorem readCaps_obj (c : CapsPtr) (rest : Caps) :
    readCaps (.obj c :: rest) = some (c, rest) := rfl

theorem readWord_eq_some_iff {caps rest : Caps} {v : Word} :
    caps.readWord = some (v, rest) ↔ caps = .i32 v :: rest := by
  constructor
  · intro h
    unfold readWord at h
    split at h <;> cases h
    rfl
  · rintro rfl
    rfl

theorem readString_eq_some_iff {caps rest : Caps} {s : String} :
    caps.readString = some (s, rest) ↔ caps = .str s :: rest := by
  constructor
  · intro h
    unfold readString at h
    split at h <;> cases h
    rfl
  · rintro rfl
    rfl

end Caps

abbrev Byte := BitVec 8

/-- `HEADER_SIZE` of a serialized container. -/
def headerSize : Nat := 8

theorem zero_lt_headerSize : 0 < headerSize := by decide

/-- What the receivers take from the container library: `binary_info` reads the length of a frame
from its header, and `parse` accepts no frame that is shorter than a header. -/
structure CapsFormat where
  binaryInfo : List Byte → Option Word
  parse : List Byte → Option Caps
  parse_short : ∀ data, data.length < headerSize → parse data = none

/-- The length stands in the last four bytes of a header. -/
def Caps.sampleLength : List Byte → Option Word
  | [_, _, _, _, b₃, b₂, b₁, b₀] => some (b₃ ++ b₂ ++ b₁ ++ b₀)
  | _ => none

/-- A format whose frames all carry one message. -/
def CapsFormat.sample (message : Caps) : CapsFormat where
  binaryInfo := Caps.sampleLength
  parse data := if data.length < headerSize then none else some message
  parse_short _ h := if_pos h

end Flora
