import Mathlib.Data.List.Induction
import Mathlib.Data.Set.Insert
import Mathlib.Logic.Function.Basic

/-! # A directory of providers

Providers own names and offer methods until they withdraw them or leave. What the directory holds
after a history of events is what the last event about it says. -/

namespace Directory

universe u v w

/-- Something has happened that set a fact, and since then nothing that reset it. -/
def LastSet {α : Type u} (set reset : α → Prop) (h : List α) : Prop :=
  ∃ pre x post, h = pre ++ x :: post ∧ set x ∧ ∀ y ∈ post, ¬ reset y

section LastSet

variable {α : Type u} {set reset : α → Prop} {h : List α} {y : α}

theorem not_lastSet_nil : ¬ LastSet set reset ([] : List α) := by
  rintro ⟨pre, x, post, heq, -⟩
  exact absurd heq.symm (List.append_ne_nil_of_right_ne_nil pre (List.cons_ne_nil x post))

theorem lastSet_append_singleton :
    LastSet set reset (h ++ [y]) ↔ set y ∨ ¬ reset y ∧ LastSet set reset h := by
  constructor
  · rintro ⟨pre, x, post, heq, hset, hpost⟩
    obtain rfl | ⟨post', z, rfl⟩ := List.eq_nil_or_concat post
    · obtain ⟨-, hy⟩ := List.append_inj' heq rfl
      cases hy
      exact .inl hset
    · rw [List.concat_eq_append] at heq hpost
      rw [← List.cons_append, ← List.append_assoc] at heq
      obtain ⟨rfl, hy⟩ := List.append_inj' heq rfl
      cases hy
      refine .inr ⟨hpost y (List.mem_append_right _ (List.mem_singleton_self y)), pre, x, post', rfl,
        hset, ?_⟩
      exact fun w hw => hpost w (List.mem_append_left _ hw)
  · rintro (hset | ⟨hreset, pre, x, post, rfl, hset, hpost⟩)
    · exact ⟨h, y, [], rfl, hset, by simp⟩
    · refine ⟨pre, x, post ++ [y], by simp, hset, ?_⟩
      intro w hw
      obtain hw | hw := List.mem_append.mp hw
      · exact hpost w hw
      · rw [List.mem_singleton.mp hw]
        exact hreset

/-- A fact that every event sets, resets or leaves alone. -/
theorem foldl_iff_lastSet {σ : Type v} {f : σ → α → σ} {P : σ → Prop} {s₀ : σ} (hinit : ¬ P s₀)
    (hstep : ∀ s x, P (f s x) ↔ set x ∨ ¬ reset x ∧ P s) (h : List α) :
    P (h.foldl f s₀) ↔ LastSet set reset h := by
  induction h using List.reverseRecOn with
  | nil => exact iff_of_false hinit not_lastSet_nil
  | append_singleton h y ih =>
    rw [List.foldl_append, List.foldl_cons, List.foldl_nil, hstep, ih, lastSet_append_singleton]

end LastSet

variable {N : Type u} {A : Type v} {M : Type w}

@[ext]
structure Entries (N : Type u) (A : Type v) (M : Type w) where
  owner : N → Option A
  offers : A → Set M

inductive Event (N : Type u) (A : Type v) (M : Type w) where
  | join (n : N) (a : A)
  | leave (a : A)
  | offer (a : A) (m : M)
  | withdraw (a : A) (m : M)
  | silent

namespace Entries

def empty : Entries N A M := ⟨fun _ => none, fun _ => ∅⟩

variable [DecidableEq N] [DecidableEq A]

def apply (d : Entries N A M) : Event N A M → Entries N A M
  | .join n a => { d with owner := Function.update d.owner n (some a) }
  | .leave a => ⟨fun n => if d.owner n = some a then none else d.owner n,
      Function.update d.offers a ∅⟩
  | .offer a m => { d with offers := Function.update d.offers a (insert m (d.offers a)) }
  | .withdraw a m => { d with offers := Function.update d.offers a (d.offers a \ {m}) }
  | .silent => d

/-- `a` is found under the name `n` with the method `m`. -/
def Serves (d : Entries N A M) (n : N) (m : M) (a : A) : Prop := d.owner n = some a ∧ m ∈ d.offers a

theorem owner_apply (d : Entries N A M) (ev : Event N A M) (n : N) (a : A) :
    (d.apply ev).owner n = some a ↔
      ev = .join n a ∨ ¬ (ev = .leave a ∨ ∃ b, ev = .join n b) ∧ d.owner n = some a := by
  cases ev with
  | join m b =>
    by_cases hn : n = m
    · subst hn
      simp [apply]
    · simp [apply, Function.update_of_ne hn, Ne.symm hn]
  | leave b =>
    by_cases hb : b = a
    · subst hb
      simp [apply]
    · by_cases howner : d.owner n = some b
      · simp [apply, howner, hb]
      · simp [apply, howner, hb]
  | offer | withdraw | silent => simp [apply]

theorem mem_offers_apply (d : Entries N A M) (ev : Event N A M) (a : A) (m : M) :
    m ∈ (d.apply ev).offers a ↔
      ev = .offer a m ∨ ¬ (ev = .leave a ∨ ev = .withdraw a m) ∧ m ∈ d.offers a := by
  cases ev with
  | join | silent => simp [apply]
  | leave b =>
    by_cases hb : a = b
    · subst hb
      simp [apply]
    · simp [apply, Function.update_of_ne hb, Ne.symm hb]
  | offer b l =>
    by_cases hb : a = b
    · subst hb
      simp [apply, eq_comm]
    · simp [apply, Function.update_of_ne hb, Ne.symm hb]
  | withdraw b l =>
    by_cases hb : a = b
    · subst hb
      simp [apply, and_comm, eq_comm]
    · simp [apply, Function.update_of_ne hb, Ne.symm hb]

/-- Some time ago `a` joined as `n`, has not left since, and nobody has taken the name; and `a` has
offered `m` and neither withdrawn it nor left since. -/
def ServesAfter (h : List (Event N A M)) (n : N) (m : M) (a : A) : Prop :=
  LastSet (· = .join n a) (fun ev => ev = .leave a ∨ ∃ b, ev = .join n b) h ∧
    LastSet (· = .offer a m) (fun ev => ev = .leave a ∨ ev = .withdraw a m) h

theorem serves_foldl (h : List (Event N A M)) (n : N) (m : M) (a : A) :
    (h.foldl apply empty).Serves n m a ↔ ServesAfter h n m a := by
  refine and_congr ?_ ?_
  · refine foldl_iff_lastSet (P := fun d : Entries N A M => d.owner n = some a) ?_ ?_ h
    · simp [empty]
    · exact fun d ev => owner_apply d ev n a
  · refine foldl_iff_lastSet (P := fun d : Entries N A M => m ∈ d.offers a) ?_ ?_ h
    · simp [empty]
    · exact fun d ev => mem_offers_apply d ev a m

end Entries

end Directory
