import Mathlib.Data.List.Basic
import Mathlib.Order.Basic

/-! # Labelled transition systems

Runs, reachable states and guarded runs, with the induction rule used throughout: an inductive
invariant holds in every reachable state. Executable systems are given by a partial step function;
for these, a run stays within a property exactly when its steps are guarded. -/

namespace TransitionSystem

universe u v w x

structure System (σ : Type u) (α : Type v) where
  init : σ → Prop
  step : σ → α → σ → Prop

namespace System

variable {σ : Type u} {α : Type v}

inductive Run (T : System σ α) : σ → List α → σ → Prop
  | nil (s : σ) : Run T s [] s
  | cons {s t r : σ} {a : α} {as : List α} : T.step s a t → Run T t as r → Run T s (a :: as) r

def Reachable (T : System σ α) (s : σ) : Prop := ∃ s₀ as, T.init s₀ ∧ T.Run s₀ as s

/-- The runs of `T` whose steps all meet `G` in the state before the step. -/
def guard (T : System σ α) (G : σ → α → Prop) : System σ α where
  init := T.init
  step s a t := G s a ∧ T.step s a t

theorem Run.append {T : System σ α} {s t r : σ} {as bs : List α}
    (h : T.Run s as t) (h' : T.Run t bs r) : T.Run s (as ++ bs) r := by
  induction h with
  | nil => exact h'
  | cons hstep _ ih => exact .cons hstep (ih h')

theorem Run.single {T : System σ α} {s t : σ} {a : α} (h : T.step s a t) : T.Run s [a] t :=
  .cons h (.nil t)

theorem Run.invariant {T : System σ α} {P : σ → Prop} {s t : σ} {as : List α}
    (h : T.Run s as t) (hs : P s) (hstep : ∀ s a t, P s → T.step s a t → P t) : P t := by
  induction h with
  | nil => exact hs
  | cons hst _ ih => exact ih (hstep _ _ _ hs hst)

/-- A variant that no step raises bounds the number of the steps that lower it. -/
theorem Run.countP_add_le {T : System σ α} {P : σ → Prop} {p : α → Bool} {v : σ → Nat} {s t : σ}
    {as : List α} (h : T.Run s as t) (hs : P s) (hkeep : ∀ s a t, P s → T.step s a t → P t)
    (hstep : ∀ s a t, P s → T.step s a t → v t + (if p a then 1 else 0) ≤ v s) :
    as.countP p + v t ≤ v s := by
  induction h with
  | nil => exact Nat.le_of_eq (Nat.zero_add _)
  | cons hst _ ih =>
    have hrest := ih (hkeep _ _ _ hs hst)
    have hfirst := hstep _ _ _ hs hst
    rw [List.countP_cons]
    omega

/-- Where a step of `T` within `P` lowers the rank as long as `Q` does not hold, a run leads to `Q`. -/
theorem exists_run_of_rank {T : System σ α} {P Q : σ → Prop} {v : σ → Nat} {s : σ} (hs : P s)
    (hnext : ∀ s, P s → Q s ∨ ∃ a t, T.step s a t ∧ P t ∧ v t < v s) :
    ∃ as t, T.Run s as t ∧ Q t := by
  induction hn : v s using Nat.strongRecOn generalizing s with
  | ind n ih =>
    obtain hq | ⟨a, t, hst, ht, hlt⟩ := hnext s hs
    · exact ⟨[], s, .nil s, hq⟩
    · obtain ⟨as, r, hrun, hq⟩ := ih (v t) (hn ▸ hlt) ht rfl
      exact ⟨a :: as, r, .cons hst hrun, hq⟩

theorem Reachable.start {T : System σ α} {s : σ} (h : T.init s) : T.Reachable s :=
  ⟨s, [], h, .nil s⟩

theorem Reachable.run {T : System σ α} {s t : σ} {as : List α} (h : T.Reachable s)
    (h' : T.Run s as t) : T.Reachable t := by
  obtain ⟨s₀, bs, hinit, hrun⟩ := h
  exact ⟨s₀, bs ++ as, hinit, hrun.append h'⟩

theorem Reachable.next {T : System σ α} {s t : σ} {a : α} (h : T.Reachable s)
    (h' : T.step s a t) : T.Reachable t := h.run (.single h')

theorem Reachable.invariant {T : System σ α} {P : σ → Prop} {s : σ} (h : T.Reachable s)
    (hinit : ∀ s, T.init s → P s) (hstep : ∀ s a t, P s → T.step s a t → P t) : P s := by
  obtain ⟨s₀, as, h₀, hrun⟩ := h
  exact hrun.invariant (hinit s₀ h₀) hstep

theorem Reachable.invariant_of {T : System σ α} {P : σ → Prop} {s : σ} (h : T.Reachable s)
    (hinit : ∀ s, T.init s → P s)
    (hstep : ∀ s a t, T.Reachable s → P s → T.step s a t → P t) : P s := by
  have both : T.Reachable s ∧ P s := by
    apply h.invariant (P := fun s => T.Reachable s ∧ P s)
    · intro s hs
      exact ⟨.start hs, hinit s hs⟩
    · rintro s a t ⟨hr, hp⟩ hst
      exact ⟨hr.next hst, hstep s a t hr hp hst⟩
  exact both.2

/-- Where the steps from related states are matched by runs, a run is matched by a run. -/
theorem Run.simulate {τ : Type w} {β : Type x} {T : System σ α} {S : System τ β}
    {R : σ → τ → Prop} (hstep : ∀ s a t p, R s p → T.step s a t → ∃ bs q, S.Run p bs q ∧ R t q)
    {s t : σ} {as : List α} (h : T.Run s as t) {p : τ} (hp : R s p) :
    ∃ bs q, S.Run p bs q ∧ R t q := by
  induction h generalizing p with
  | nil => exact ⟨[], p, .nil p, hp⟩
  | cons hst _ ih =>
    obtain ⟨bs, q, hfirst, hq⟩ := hstep _ _ _ p hp hst
    obtain ⟨cs, r, hrest, hr⟩ := ih hq
    exact ⟨bs ++ cs, r, hfirst.append hrest, hr⟩

theorem Run.of_guard {T : System σ α} {G : σ → α → Prop} {s t : σ} {as : List α}
    (h : (T.guard G).Run s as t) : T.Run s as t := by
  induction h with
  | nil => exact .nil _
  | cons hst _ ih => exact .cons hst.2 ih

theorem Run.guard {T : System σ α} {G : σ → α → Prop} {s t : σ} {as : List α}
    (h : T.Run s as t) (hG : ∀ s a, G s a) : (T.guard G).Run s as t := by
  induction h with
  | nil => exact .nil _
  | cons hst _ ih => exact .cons ⟨hG _ _, hst⟩ ih

theorem Run.guard_mono {T : System σ α} {G G' : σ → α → Prop} {s t : σ} {as : List α}
    (h : (T.guard G).Run s as t) (hG : ∀ s a, G s a → G' s a) : (T.guard G').Run s as t := by
  induction h with
  | nil => exact .nil _
  | cons hst _ ih => exact .cons ⟨hG _ _ hst.1, hst.2⟩ ih

theorem Reachable.guard_mono {T : System σ α} {G G' : σ → α → Prop} {s : σ}
    (h : (T.guard G).Reachable s) (hG : ∀ s a, G s a → G' s a) : (T.guard G').Reachable s := by
  obtain ⟨s₀, as, hinit, hrun⟩ := h
  exact ⟨s₀, as, hinit, hrun.guard_mono hG⟩

theorem Reachable.of_guard {T : System σ α} {G : σ → α → Prop} {s : σ}
    (h : (T.guard G).Reachable s) : T.Reachable s := by
  obtain ⟨s₀, as, hinit, hrun⟩ := h
  exact ⟨s₀, as, hinit, hrun.of_guard⟩

end System

section Executable

variable {σ : Type u} {α : Type v}

/-- The system of a partial step function from a set of initial states. -/
def System.ofStep (init : σ → Prop) (f : σ → α → Option σ) : System σ α where
  init := init
  step s a t := f s a = some t

def execute (f : σ → α → Option σ) : σ → List α → Option σ
  | s, [] => some s
  | s, a :: as => (f s a).bind fun t => execute f t as

theorem execute_run {init : σ → Prop} {f : σ → α → Option σ} {as : List α} {s t : σ}
    (h : execute f s as = some t) : (System.ofStep init f).Run s as t := by
  induction as generalizing s with
  | nil =>
    cases h
    exact .nil _
  | cons a as ih =>
    obtain ⟨r, hr, ht⟩ := Option.bind_eq_some_iff.mp h
    exact .cons hr (ih ht)

theorem execute_guarded_run {init : σ → Prop} {f : σ → α → Option σ} {G : σ → α → Prop}
    [∀ s a, Decidable (G s a)] {as : List α} {s t : σ}
    (h : execute (fun s a => if G s a then f s a else none) s as = some t) :
    ((System.ofStep init f).guard G).Run s as t := by
  induction as generalizing s with
  | nil =>
    cases h
    exact .nil _
  | cons a as ih =>
    obtain ⟨r, hr, ht⟩ := Option.bind_eq_some_iff.mp h
    dsimp only at hr
    split at hr
    · rename_i hG
      exact .cons ⟨hG, hr⟩ (ih ht)
    · cases hr

theorem execute_reachable {init : σ → Prop} {f : σ → α → Option σ} {as : List α} {s t : σ}
    (hs : init s) (h : execute f s as = some t) : (System.ofStep init f).Reachable t :=
  ⟨s, as, hs, execute_run h⟩

theorem execute_single {f : σ → α → Option σ} {s t : σ} {a : α} (h : f s a = some t) :
    execute f s [a] = some t := by
  simp [execute, h]

theorem execute_cons {f : σ → α → Option σ} {s t r : σ} {a : α} {as : List α} (h : f s a = some t)
    (h' : execute f t as = some r) : execute f s (a :: as) = some r := by
  simp [execute, h, h']

/-- Let a guarded step keep `I`, and let a step from `I` that is not guarded leave `P`. Then a run
from `I` whose steps meet `E` stays within `P` exactly when all its steps are guarded. -/
theorem execute_guard_iff_of {init : σ → Prop} {f : σ → α → Option σ} {E G : σ → α → Prop}
    {I P : σ → Prop} (hP : ∀ s, I s → P s) {as : List α} {s t : σ}
    (hkeep : ∀ s t, ∀ a ∈ as, I s → E s a → f s a = some t → G s a → I t)
    (hbreak : ∀ s t, ∀ a ∈ as, I s → E s a → f s a = some t → P t → G s a)
    (hs : I s) (h : ((System.ofStep init f).guard E).Run s as t) :
    (∀ bs r, bs <+: as → execute f s bs = some r → P r) ↔
      ((System.ofStep init f).guard G).Run s as t := by
  induction h with
  | nil s =>
    constructor
    · exact fun _ => .nil s
    · intro _ bs r hbs hr
      rw [List.prefix_nil.mp hbs] at hr
      cases hr
      exact hP s hs
  | @cons s r t a as hst _ ih =>
    obtain ⟨hE, hr⟩ := hst
    change f s a = some r at hr
    have tail := ih (fun s t b hb => hkeep s t b (List.mem_cons_of_mem a hb))
      (fun s t b hb => hbreak s t b (List.mem_cons_of_mem a hb))
    constructor
    · intro hall
      have hfirst : P r := hall [a] r (by simp) (execute_single hr)
      have hG := hbreak s r a List.mem_cons_self hs hE hr hfirst
      refine .cons ⟨hG, hr⟩ ((tail (hkeep s r a List.mem_cons_self hs hE hr hG)).mp ?_)
      intro bs q hbs hq
      exact hall (a :: bs) q (List.cons_prefix_cons.mpr ⟨rfl, hbs⟩) (execute_cons hr hq)
    · intro hrun bs q hbs hq
      cases hrun with
      | cons hst hrest =>
        obtain ⟨hG, hst⟩ := hst
        cases hr.symm.trans hst
        cases bs with
        | nil =>
          cases hq
          exact hP s hs
        | cons b bs =>
          obtain ⟨rfl, htail⟩ := List.cons_prefix_cons.mp hbs
          obtain ⟨r', hr', hq⟩ := Option.bind_eq_some_iff.mp hq
          cases hr.symm.trans hr'
          exact (tail (hkeep s r b List.mem_cons_self hs hE hr hG)).mpr hrest bs q htail hq

theorem execute_guard_iff {init : σ → Prop} {f : σ → α → Option σ} {G : σ → α → Prop}
    {I P : σ → Prop} (hP : ∀ s, I s → P s) {as : List α} {s t : σ}
    (hkeep : ∀ s t, ∀ a ∈ as, I s → f s a = some t → G s a → I t)
    (hbreak : ∀ s t, ∀ a ∈ as, I s → f s a = some t → P t → G s a)
    (hs : I s) (h : execute f s as = some t) :
    (∀ bs r, bs <+: as → execute f s bs = some r → P r) ↔
      ((System.ofStep init f).guard G).Run s as t := by
  apply execute_guard_iff_of (E := fun _ _ => True) hP
  · exact fun s t a ha hI _ => hkeep s t a ha hI
  · exact fun s t a ha hI _ => hbreak s t a ha hI
  · exact hs
  · exact (execute_run h).guard fun _ _ => trivial

end Executable

end TransitionSystem
