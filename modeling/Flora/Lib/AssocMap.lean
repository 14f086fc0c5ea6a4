import Mathlib.Data.List.AList

/-! # Finite maps with unique keys

Mathlib's `AList` with the operations of an ordered map container that it lacks: insertion that
keeps an existing entry, and a pass that rewrites or drops the value of every entry. The values of a
map are a list that its lookups determine up to order. -/

namespace AssocMap

variable {α : Type*} {β : Type*} [DecidableEq α]

/-- Container insertion: the entry is added only when the key is absent; the flag tells whether
it was. -/
def insertNew (a : α) (b : β) (m : AList fun _ : α => β) : (AList fun _ : α => β) × Bool :=
  match m.lookup a with
  | some _ => (m, false)
  | none => (m.insert a b, true)

theorem insertNew_of_none {a : α} {b : β} {m : AList fun _ : α => β} (h : m.lookup a = none) :
    insertNew a b m = (m.insert a b, true) := by
  simp [insertNew, h]

theorem insertNew_of_some {a : α} {b c : β} {m : AList fun _ : α => β} (h : m.lookup a = some c) :
    insertNew a b m = (m, false) := by
  simp [insertNew, h]

def filterMapEntries (f : β → Option β) (l : List (Σ _ : α, β)) : List (Σ _ : α, β) :=
  l.filterMap fun e => (f e.2).map fun b => ⟨e.1, b⟩

omit [DecidableEq α] in
theorem keys_filterMapEntries_sublist (f : β → Option β) (l : List (Σ _ : α, β)) :
    (filterMapEntries f l).keys.Sublist l.keys := by
  induction l with
  | nil => exact List.Sublist.refl _
  | cons e l ih =>
    cases h : f e.2 with
    | none => simpa [filterMapEntries, h] using ih.cons e.1
    | some b => simpa [filterMapEntries, h] using ih.cons_cons e.1

/-- Every value is replaced by its image; entries without one are removed. -/
def filterMapValues (f : β → Option β) (m : AList fun _ : α => β) : AList fun _ : α => β where
  entries := filterMapEntries f m.entries
  nodupKeys := (keys_filterMapEntries_sublist f m.entries).nodup m.nodupKeys

theorem dlookup_filterMapEntries (f : β → Option β) (a : α) (l : List (Σ _ : α, β))
    (hl : l.NodupKeys) : (filterMapEntries f l).dlookup a = (l.dlookup a).bind f := by
  induction l with
  | nil => rfl
  | cons e l ih =>
    obtain ⟨k, b⟩ := e
    obtain ⟨hk, hl⟩ := List.nodupKeys_cons.mp hl
    by_cases hak : a = k
    · subst hak
      cases h : f b with
      | none =>
        have hnone : (filterMapEntries f l).dlookup a = none := by
          rw [List.dlookup_eq_none]
          exact fun hmem => hk ((keys_filterMapEntries_sublist f l).subset hmem)
        simpa [filterMapEntries, h] using hnone
      | some c => simp [filterMapEntries, h]
    · have htail := ih hl
      have hne (c : β) (l : List (Σ _ : α, β)) : List.dlookup a (⟨k, c⟩ :: l) = List.dlookup a l :=
        List.dlookup_cons_ne l ⟨k, c⟩ hak
      cases h : f b with
      | none => simpa [filterMapEntries, h, hne] using htail
      | some c => simpa [filterMapEntries, h, hne] using htail

theorem lookup_filterMapValues (f : β → Option β) (a : α) (m : AList fun _ : α => β) :
    (filterMapValues f m).lookup a = (m.lookup a).bind f :=
  dlookup_filterMapEntries f a m.entries m.nodupKeys

section Values

variable {γ : Type*} (f : β → γ) {m m' : AList fun _ : α => β}

/-- A view of every value, in the order of the entries. -/
def values (m : AList fun _ : α => β) : List γ := m.entries.map fun s => f s.2

theorem values_perm (h : ∀ a, (m.lookup a).map f = (m'.lookup a).map f) :
    (values f m).Perm (values f m') := by
  let pair : (Σ _ : α, β) → α × γ := fun s => (s.1, f s.2)
  have nodup (m : AList fun _ : α => β) : (m.entries.map pair).Nodup := by
    apply List.Nodup.of_map Prod.fst
    rw [List.map_map]
    exact m.nodupKeys
  have mem (m : AList fun _ : α => β) (x : α × γ) :
      x ∈ m.entries.map pair ↔ (m.lookup x.1).map f = some x.2 := by
    rw [List.mem_map, Option.map_eq_some_iff]
    constructor
    · rintro ⟨⟨a, b⟩, hmem, rfl⟩
      exact ⟨b, AList.mem_lookup_iff.mpr hmem, rfl⟩
    · rintro ⟨b, hlookup, hb⟩
      exact ⟨⟨x.1, b⟩, AList.mem_lookup_iff.mp hlookup, Prod.ext rfl hb⟩
  have hperm : (m.entries.map pair).Perm (m'.entries.map pair) := by
    rw [List.perm_ext_iff_of_nodup (nodup m) (nodup m')]
    intro x
    rw [mem, mem, h]
  have hsnd := hperm.map Prod.snd
  rw [List.map_map, List.map_map] at hsnd
  exact hsnd

/-- One more entry is one more value. -/
theorem values_perm_cons {a : α} {c : γ} (hnew : m.lookup a = none)
    (h : ∀ x, (m'.lookup x).map f = if x = a then some c else (m.lookup x).map f) :
    (values f m').Perm (c :: values f m) := by
  obtain ⟨b, _, rfl⟩ := Option.map_eq_some_iff.mp ((h a).trans (if_pos rfl))
  have hinsert : values f (m.insert a b) = f b :: values f m := by
    rw [values, AList.entries_insert_of_notMem (AList.lookup_eq_none.mp hnew)]
    rfl
  rw [← hinsert]
  apply values_perm
  intro x
  rw [h]
  by_cases hx : x = a
  · subst hx
    simp
  · simp [hx, AList.lookup_insert_ne hx]

end Values

end AssocMap
