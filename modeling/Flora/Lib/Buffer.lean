import Mathlib.Data.List.Basic

/-! # Fixed-size buffers

A buffer is the list of its cells. `slice` is what a reader of a range sees, `store` writes a block
at an offset, and `moveFront` copies a range to the start of the buffer. -/

namespace Buffer

universe u

variable {β : Type u}

def slice (buffer : List β) (offset size : Nat) : List β := (buffer.drop offset).take size

def store (buffer : List β) (offset : Nat) (block : List β) : List β :=
  buffer.take offset ++ block ++ buffer.drop (offset + block.length)

/-- `memmove` of `size` cells from `offset` to the start. -/
def moveFront (buffer : List β) (offset size : Nat) : List β :=
  slice buffer offset size ++ buffer.drop size

variable {buffer block : List β} {offset size : Nat}

theorem length_slice (h : offset + size ≤ buffer.length) : (slice buffer offset size).length = size := by
  rw [slice, List.length_take, List.length_drop]
  omega

theorem length_store (h : offset + block.length ≤ buffer.length) :
    (store buffer offset block).length = buffer.length := by
  rw [store, List.length_append, List.length_append, List.length_take, List.length_drop]
  omega

theorem length_moveFront (h : offset + size ≤ buffer.length) :
    (moveFront buffer offset size).length = buffer.length := by
  rw [moveFront, List.length_append, length_slice h, List.length_drop]
  omega

@[simp] theorem slice_zero (buffer : List β) (offset : Nat) : slice buffer offset 0 = [] :=
  List.take_zero

theorem take_slice {n : Nat} (h : n ≤ size) : (slice buffer offset size).take n = slice buffer offset n := by
  rw [slice, slice, List.take_take, Nat.min_eq_left h]

theorem drop_slice {n : Nat} :
    (slice buffer offset size).drop n = slice buffer (offset + n) (size - n) := by
  rw [slice, slice, List.drop_take, List.drop_drop]

theorem slice_moveFront (h : offset + size ≤ buffer.length) :
    slice (moveFront buffer offset size) 0 size = slice buffer offset size := by
  rw [slice, List.drop_zero, moveFront, List.take_left' (length_slice h)]

/-- A block stored behind a range extends the range. -/
theorem slice_store (buffer block : List β) (offset size : Nat)
    (h : offset + size + block.length ≤ buffer.length) :
    slice (store buffer (offset + size) block) offset (size + block.length) =
      slice buffer offset size ++ block := by
  have htake : (buffer.take (offset + size)).length = offset + size := by
    rw [List.length_take]
    omega
  have hhead : (buffer.take (offset + size)).drop offset = slice buffer offset size := by
    rw [List.drop_take, Nat.add_sub_cancel_left]
    rfl
  have hdrop : (store buffer (offset + size) block).drop offset =
      slice buffer offset size ++ block ++ buffer.drop (offset + size + block.length) := by
    rw [store, List.append_assoc, List.drop_append_of_le_length (by omega), hhead,
      List.append_assoc]
  rw [slice, hdrop, List.take_left']
  rw [List.length_append, length_slice (by omega)]

end Buffer
