import Mathlib.Data.List.Nodup
import Mathlib.Logic.Function.Basic

/-! # Publish/subscribe

The eager table: for every topic the subscribers in the order of their subscriptions, each once.
Subscribers that leave are removed from every topic at once. -/

namespace PubSub

variable {N A : Type*}

@[ext]
structure Topics (N A : Type*) where
  subscribers : N → List A
  nodup : ∀ n, (subscribers n).Nodup

/-- A request to the table. -/
inductive Event (N A : Type*) where
  | subscribe (n : N) (a : A)
  | unsubscribe (n : N) (a : A)
  | silent

def enter [DecidableEq A] (a : A) (l : List A) : List A := if a ∈ l then l else l ++ [a]

theorem nodup_enter [DecidableEq A] {a : A} {l : List A} (h : l.Nodup) : (enter a l).Nodup := by
  unfold enter
  split
  · exact h
  · rename_i ha
    rw [List.nodup_append]
    refine ⟨h, List.nodup_singleton a, ?_⟩
    rintro x hx y hy rfl
    exact ha (List.mem_singleton.mp hy ▸ hx)

theorem mem_enter [DecidableEq A] {a b : A} {l : List A} : b ∈ enter a l ↔ b = a ∨ b ∈ l := by
  unfold enter
  split
  · rename_i ha
    constructor
    · exact .inr
    · rintro (rfl | hb)
      · exact ha
      · exact hb
  · rw [List.mem_append, List.mem_singleton, or_comm]

namespace Topics

variable [DecidableEq N] [DecidableEq A]

def change (t : Topics N A) (n : N) (l : List A) (h : l.Nodup) : Topics N A where
  subscribers := Function.update t.subscribers n l
  nodup m := by
    by_cases hm : m = n
    · rw [hm, Function.update_self]
      exact h
    · rw [Function.update_of_ne hm]
      exact t.nodup m

def apply (t : Topics N A) : Event N A → Topics N A
  | .subscribe n a => t.change n (enter a (t.subscribers n)) (nodup_enter (t.nodup n))
  | .unsubscribe n a =>
    t.change n ((t.subscribers n).filter (· ≠ a)) ((t.nodup n).filter _)
  | .silent => t

omit [DecidableEq N] [DecidableEq A] in
/-- Only the members that satisfy `p` stay. -/
def restrict (t : Topics N A) (p : A → Bool) : Topics N A where
  subscribers n := (t.subscribers n).filter p
  nodup n := (t.nodup n).filter p

theorem apply_subscribe (t : Topics N A) (n m : N) (a : A) :
    (t.apply (.subscribe n a)).subscribers m =
      if m = n then enter a (t.subscribers m) else t.subscribers m := by
  by_cases hm : m = n
  · subst hm
    simp [apply, change]
  · simp [apply, change, hm]

theorem apply_unsubscribe (t : Topics N A) (n m : N) (a : A) :
    (t.apply (.unsubscribe n a)).subscribers m =
      if m = n then (t.subscribers m).filter (· ≠ a) else t.subscribers m := by
  by_cases hm : m = n
  · subst hm
    simp [apply, change]
  · simp [apply, change, hm]

theorem mem_apply_of_ne (t : Topics N A) {ev : Event N A} {b : A}
    (h : ∀ n, ev ≠ .subscribe n b ∧ ev ≠ .unsubscribe n b) (m : N) :
    b ∈ (t.apply ev).subscribers m ↔ b ∈ t.subscribers m := by
  cases ev with
  | subscribe n a =>
    have hne : b ≠ a := fun heq => (h n).1 (by rw [heq])
    rw [apply_subscribe]
    split
    · rw [mem_enter, or_iff_right hne]
    · rfl
  | unsubscribe n a =>
    have hne : b ≠ a := fun heq => (h n).2 (by rw [heq])
    rw [apply_unsubscribe]
    split
    · simp [hne]
    · rfl
  | silent => rfl

end Topics

end PubSub
