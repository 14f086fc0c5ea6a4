import Flora.Dispatcher.RegistryInvariant

/-! # Addresses that are taken again

`adapter_infos` and `monitors` are keyed by the addresses of adapters, and an adapter that is freed
before it is erased leaves its entry behind. Here a new adapter may be allocated where a freed one
was. It then meets that entry: its registration adds no other and leaves its `info` null. -/

namespace Flora

open TransitionSystem

namespace Registry

variable {r : Registry} {a b : AdapterId} {item : MonitorListItem} {n : String}

/-- The adapter at the address is a new one, and what is keyed by the address stays. -/
def renew (r : Registry) (a : AdapterId) : Registry :=
  { r with info := Function.update r.info a none }

theorem Agrees.renew (h : r.Agrees) (hnamed : ∀ n, r.named n ≠ some a) : (r.renew a).Agrees where
  named n b hb := by
    obtain ⟨hne, hinfo, hrecord⟩ := h.named n b hb
    have hba : b ≠ a := by
      rintro rfl
      exact hnamed n hb
    refine ⟨hne, ?_, hrecord⟩
    change Function.update r.info a none b = some .client
    rw [Function.update_of_ne hba]
    exact hinfo
  clients := h.clients
  disjoint := h.disjoint

/-- An auth request gives names to its sender only. -/
theorem named_authenticate {service : Word} {req : AuthReq}
    (h : (r.authenticate service req a).named n = some b) : r.named n = some b ∨ b = a := by
  unfold Registry.authenticate at h
  split at h
  · exact .inl h
  · split at h
    · split at h <;> exact .inl h
    · split at h
      · exact .inl h
      · rw [enrolClient_named] at h
        split at h
        · exact .inl h
        · by_cases hn : n = req.extra
          · rw [hn, Function.update_self] at h
            exact .inr (Option.some.inj h).symm
          · rw [Function.update_of_ne hn] at h
            exact .inl h

theorem named_leave (h : (r.leave a).named n = some b) : r.named n = some b := by
  unfold leave at h
  split at h
  · exact h
  · exact (named_of_erase h).1

end Registry

namespace Dispatcher

variable {e : Env} {d d' : Dispatcher} {a b : AdapterId} {n : String}

/-- An action of the dispatcher, or `new_adapter` with an adapter at the address of a freed one. -/
inductive MemoryEvent where
  | act (x : Action)
  | newAdapter (a : AdapterId) (order : ByteOrder) (tag : BitVec 64)

/-- The weak references to the freed adapter stay expired. They are dropped from the lists, whose
readers skip them. -/
def newAdapter (a : AdapterId) (order : ByteOrder) (tag : BitVec 64) (d : Dispatcher) : Dispatcher :=
  { d.setAdapter a { serializeFlags := order, tag := tag } with
    subscriptions := AssocMap.filterMapValues
      (fun adapters => some (adapters.filter (· ≠ a))) d.subscriptions }

def happen (e : Env) (d : Dispatcher) : MemoryEvent → Option Dispatcher
  | .act x => step e d x
  | .newAdapter a order tag => if d.alive a then none else some (d.newAdapter a order tag)

/-- The dispatcher together with the memory of its adapters. -/
def lifetimes (e : Env) : System Dispatcher MemoryEvent := System.ofStep Initial (happen e)

theorem happen_newAdapter {order : ByteOrder} {tag : BitVec 64}
    (h : happen e d (.newAdapter a order tag) = some d') :
    d.alive a = false ∧ d' = d.newAdapter a order tag := by
  simp only [happen] at h
  split at h
  · cases h
  · rename_i hdead
    exact ⟨Bool.eq_false_iff.mpr hdead, (Option.some.inj h).symm⟩

theorem registry_newAdapter (a : AdapterId) (order : ByteOrder) (tag : BitVec 64) (d : Dispatcher) :
    (d.newAdapter a order tag).registry = d.registry.renew a := by
  simp only [registry, Registry.renew, newAdapter]
  congr 1
  funext b
  rw [setAdapter_adapters]
  by_cases hb : b = a
  · rw [if_pos hb, hb, Function.update_self]
  · rw [if_neg hb, Function.update_of_ne hb]

theorem alive_newAdapter {order : ByteOrder} {tag : BitVec 64} (hb : b ≠ a) :
    (d.newAdapter a order tag).alive b = d.alive b := by
  unfold alive
  congr 2
  change ((d.setAdapter a _).adapters b) = _
  rw [setAdapter_adapters, if_neg hb]

theorem held_of_named (h : d.namedAdapters.lookup n = some a) : d.held a = true := by
  rw [held, Bool.or_eq_true]
  left
  rw [List.any_eq_true]
  exact ⟨⟨n, a⟩, AList.mem_lookup_iff.mp h, beq_self_eq_true a⟩

/-- The `shared_ptr` in `named_adapters` keeps the owner of a name from being freed. -/
def NamesAlive (d : Dispatcher) : Prop :=
  ∀ n a, d.namedAdapters.lookup n = some a → d.alive a = true

theorem namesAlive_step {x : Action} (hs : NamesAlive d) (h : step e d x = some d') :
    NamesAlive d' := by
  intro n b hb
  have hreg := step_registry h
  have hb : d'.registry.named n = some b := hb
  rw [hreg] at hb
  have hold : d.namedAdapters.lookup n = some b ∨ ∃ caps now done, x = .msg caps b now done := by
    cases x with
    | msg caps sender now done =>
      simp only [registryAfter, Registry.handle] at hb
      split at hb
      · exact .inl hb
      · obtain hb | rfl := Registry.named_authenticate hb
        · exact .inl hb
        · exact .inr ⟨caps, now, done, rfl⟩
    | erase sender now => exact .inl (Registry.named_leave hb)
    | expire tp => exact .inl hb
    | close a => exact .inl hb
    | destroy a => exact .inl hb
  have halive : d.alive b = true := by
    obtain hold | ⟨caps, now, done, rfl⟩ := hold
    · exact hs n b hold
    · exact (step_msg h).1
  obtain hsame | ⟨rfl, -⟩ := step_alive (a := b) h
  · rw [hsame]
    exact halive
  · obtain hold | ⟨caps, now, done, heq⟩ := hold
    · exact absurd ((step_destroy h).2.1.symm.trans (held_of_named hold)) Bool.false_ne_true
    · cases heq

theorem namesAlive_happen {x : MemoryEvent} (hs : NamesAlive d) (h : happen e d x = some d') :
    NamesAlive d' := by
  cases x with
  | act x => exact namesAlive_step hs h
  | newAdapter a order tag =>
    obtain ⟨hdead, rfl⟩ := happen_newAdapter h
    intro n b hb
    have halive := hs n b hb
    rw [alive_newAdapter]
    · exact halive
    · rintro rfl
      rw [hdead] at halive
      cases halive

end Dispatcher

end Flora
