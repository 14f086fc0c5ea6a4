import Mathlib.Data.List.TakeWhile
import Mathlib.Order.Lattice

/-! # Lists sorted by a key

Queues that are kept sorted, by appending at the end or by an ordered insertion, and scanned from the
front up to a bound. The scan finds exactly the elements within the bound. -/

namespace SortedList

universe u v

variable {α : Type u} {β : Type v} [LinearOrder β] {key : α → β} {l xs ys : List α} {b : β}

def SortedBy (key : α → β) (l : List α) : Prop := l.Pairwise fun x y => key x ≤ key y

theorem SortedBy.concat (h : SortedBy key l) {x : α} (hx : ∀ y ∈ l, key y ≤ key x) :
    SortedBy key (l ++ [x]) := by
  refine List.pairwise_append.mpr ⟨h, List.pairwise_singleton _ x, fun y hy z hz => ?_⟩
  rw [List.mem_singleton.mp hz]
  exact hx y hy

theorem SortedBy.sublist (h : SortedBy key l) (hsub : xs.Sublist l) : SortedBy key xs :=
  List.Pairwise.sublist hsub h

theorem SortedBy.head_le (h : SortedBy key l) {x : α} (hx : l.head? = some x) :
    ∀ y ∈ l, key x ≤ key y := by
  cases l with
  | nil => cases hx
  | cons z l =>
    cases hx
    intro y hy
    obtain rfl | hy := List.mem_cons.mp hy
    · exact le_refl _
    · exact (List.pairwise_cons.mp h).1 y hy

/-- If the first element behind the scan is beyond the bound, so are all behind it. -/
theorem SortedBy.split (h : SortedBy key (xs ++ ys)) (hxs : ∀ x ∈ xs, key x ≤ b)
    (hys : ∀ y ∈ ys.head?, b < key y) :
    (xs ++ ys).filter (key · ≤ b) = xs ∧ (xs ++ ys).filter (b < key ·) = ys := by
  have hlater : ∀ y ∈ ys, b < key y := by
    intro y hy
    obtain ⟨z, hz⟩ : ∃ z, ys.head? = some z := by
      cases ys with
      | nil => exact absurd hy List.not_mem_nil
      | cons z ys => exact ⟨z, rfl⟩
    have htail : SortedBy key ys := h.sublist (List.sublist_append_right xs ys)
    exact lt_of_lt_of_le (hys z hz) (htail.head_le hz y hy)
  rw [List.filter_append, List.filter_append]
  constructor
  · rw [List.filter_eq_self.mpr fun x hx => decide_eq_true (hxs x hx),
      List.filter_eq_nil_iff.mpr fun y hy => ?_, List.append_nil]
    simpa using hlater y hy
  · rw [List.filter_eq_nil_iff.mpr fun x hx => ?_,
      List.filter_eq_self.mpr fun y hy => decide_eq_true (hlater y hy), List.nil_append]
    simpa using hxs x hx

theorem SortedBy.scan (h : SortedBy key l) (b : β) :
    l.takeWhile (key · ≤ b) = l.filter (key · ≤ b) ∧
      l.dropWhile (key · ≤ b) = l.filter (b < key ·) := by
  have hwhole : SortedBy key (l.takeWhile (key · ≤ b) ++ l.dropWhile (key · ≤ b)) := by
    rw [List.takeWhile_append_dropWhile]
    exact h
  have hwithin : ∀ x ∈ l.takeWhile (key · ≤ b), key x ≤ b := by
    intro x hx
    have hbound := List.mem_takeWhile_imp hx
    exact of_decide_eq_true hbound
  have hbeyond : ∀ y ∈ (l.dropWhile (key · ≤ b)).head?, b < key y := by
    intro y hy
    have hnot := List.head?_dropWhile_not (key · ≤ b) l
    rw [Option.mem_def.mp hy] at hnot
    exact not_le.mp (of_decide_eq_false hnot)
  have hsplit := hwhole.split hwithin hbeyond
  rw [List.takeWhile_append_dropWhile] at hsplit
  exact ⟨hsplit.1.symm, hsplit.2.symm⟩

end SortedList
