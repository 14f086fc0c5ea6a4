import Flora.Dispatcher.State
import Flora.Lib.Transition
import Mathlib.Data.List.Nodup
import Mathlib.Data.List.TakeWhile

/-! # The poll of TCP connections

`BeepSocketPoll` keeps its connections in a list ordered by the time they were last heard of, and
after every `select` shuts down those at its front that have been silent for `beep_timeout`. Time is
counted in nanoseconds of the steady clock. -/

namespace Flora

open TransitionSystem

structure ActiveAdapter where
  lastestActionTp : Nat
  adapter : AdapterId
  deriving DecidableEq, Repr

structure BeepSocketPoll where
  /-- The values of `SocketPoll::adapters`. -/
  adapters : List AdapterId := []
  activeAdapters : List ActiveAdapter := []
  beepTimeout : Word := 60000
  /-- The last reading of the clock. -/
  clock : Nat := 0
  /-- History: when an adapter was accepted or last read from with success. -/
  lastAction : AdapterId → Option Nat := fun _ => none
  /-- History: the adapters whose sockets were shut down. -/
  shut : List AdapterId := []

namespace BeepSocketPoll

/-- `read` is the end of a `do_read` that returned `r`. -/
inductive Action where
  | accept (a : AdapterId) (now : Nat)
  | read (a : AdapterId) (r : Bool) (now : Nat)
  | poll (now : Nat)
  | config (timeout : Word)

def Action.clock : Action → Option Nat
  | .accept _ now => some now
  | .read _ _ now => some now
  | .poll now => some now
  | .config _ => none

variable (p : BeepSocketPoll)

def doAccept (a : AdapterId) (now : Nat) : BeepSocketPoll :=
  { p with
    adapters := p.adapters ++ [a]
    activeAdapters := p.activeAdapters ++ [⟨now, a⟩]
    lastAction := Function.update p.lastAction a (some now) }

/-- The entry of an adapter that is still listed goes to the end of the list. -/
def touch (a : AdapterId) (now : Nat) : List ActiveAdapter :=
  if p.activeAdapters.any (·.adapter == a) then
    p.activeAdapters.eraseP (·.adapter == a) ++ [⟨now, a⟩]
  else p.activeAdapters

/-- After a failing read `run` deletes the adapter. -/
def doRead (a : AdapterId) (r : Bool) (now : Nat) : BeepSocketPoll :=
  if r then
    { p with
      activeAdapters := p.touch a now
      lastAction := Function.update p.lastAction a (some now) }
  else
    { p with
      adapters := p.adapters.filter (· ≠ a)
      activeAdapters := p.activeAdapters.eraseP (·.adapter == a) }

/-- `nowtp >= it->lastest_action_tp`, where `beep_timeout` has been taken off `nowtp`. -/
def timedOut (now : Nat) (x : ActiveAdapter) : Bool :=
  (now : Int) - p.beepTimeout.toNat * 1000000 ≥ x.lastestActionTp

def shutdownTimeoutAdapter (now : Nat) : BeepSocketPoll :=
  { p with
    activeAdapters := p.activeAdapters.dropWhile (p.timedOut now)
    shut := p.shut ++ (p.activeAdapters.takeWhile (p.timedOut now)).map ActiveAdapter.adapter }

/-- A new connection is a new adapter, and only those of `adapters` are read. -/
def perform : Action → Option BeepSocketPoll
  | .accept a now => if p.lastAction a = none then some (p.doAccept a now) else none
  | .read a r now => if a ∈ p.adapters then some (p.doRead a r now) else none
  | .poll now => some (p.shutdownTimeoutAdapter now)
  | .config timeout => some { p with beepTimeout := timeout }

/-- The clock never goes back. -/
def step (act : Action) : Option BeepSocketPoll :=
  match act.clock with
  | none => p.perform act
  | some now => if now < p.clock then none else (p.perform act).map ({ · with clock := now })

/-- Every adapter has at most one entry, with the time it was last heard of. -/
structure Stamped : Prop where
  nodup : (p.activeAdapters.map ActiveAdapter.adapter).Nodup
  stamp : ∀ x ∈ p.activeAdapters, p.lastAction x.adapter = some x.lastestActionTp

variable {p} {p' : BeepSocketPoll}

theorem Stamped.eraseP (h : Stamped p) (a : AdapterId) :
    ∀ x ∈ p.activeAdapters.eraseP (·.adapter == a), x ∈ p.activeAdapters ∧ x.adapter ≠ a := by
  have hnodup := h.nodup
  generalize p.activeAdapters = l at hnodup
  induction l with
  | nil => exact fun x hx => absurd hx List.not_mem_nil
  | cons y l ih =>
    rw [List.map_cons, List.nodup_cons] at hnodup
    intro x hx
    rw [List.eraseP_cons, Bool.cond_eq_ite] at hx
    split at hx
    · rename_i hy
      refine ⟨List.mem_cons_of_mem y hx, ?_⟩
      intro hxa
      exact hnodup.1 (beq_iff_eq.mp hy ▸ hxa ▸ List.mem_map_of_mem hx)
    · rename_i hy
      obtain rfl | hx := List.mem_cons.mp hx
      · exact ⟨List.mem_cons_self, fun hxa => hy (beq_iff_eq.mpr hxa)⟩
      · obtain ⟨hmem, hne⟩ := ih hnodup.2 x hx
        exact ⟨List.mem_cons_of_mem y hmem, hne⟩

theorem Stamped.append {l : List ActiveAdapter} {a : AdapterId} {now : Nat}
    (hnodup : (l.map ActiveAdapter.adapter).Nodup)
    (hstamp : ∀ x ∈ l, x.adapter ≠ a ∧ p.lastAction x.adapter = some x.lastestActionTp)
    (hlist : p'.activeAdapters = l ++ [⟨now, a⟩])
    (hlast : p'.lastAction = Function.update p.lastAction a (some now)) : Stamped p' := by
  constructor
  · rw [hlist, List.map_append, List.nodup_append]
    refine ⟨hnodup, List.nodup_singleton _, ?_⟩
    intro b hb c hc
    obtain ⟨x, hx, rfl⟩ := List.mem_map.mp hb
    rw [List.mem_singleton.mp hc]
    exact (hstamp x hx).1
  · intro x hx
    rw [hlist] at hx
    rw [hlast]
    obtain hx | hx := List.mem_append.mp hx
    · obtain ⟨hne, htp⟩ := hstamp x hx
      rw [Function.update_of_ne hne]
      exact htp
    · rw [List.mem_singleton.mp hx]
      exact Function.update_self ..

theorem Stamped.doRead (h : Stamped p) (a : AdapterId) (r : Bool) (now : Nat) :
    Stamped (p.doRead a r now) := by
  have hnodup : ((p.activeAdapters.eraseP (·.adapter == a)).map ActiveAdapter.adapter).Nodup :=
    h.nodup.sublist (List.eraseP_sublist.map _)
  unfold BeepSocketPoll.doRead touch
  split
  · split
    · refine Stamped.append hnodup (fun x hx => ?_) rfl rfl
      obtain ⟨hmem, hne⟩ := h.eraseP a x hx
      exact ⟨hne, h.stamp x hmem⟩
    · rename_i hany
      refine ⟨h.nodup, fun x hx => ?_⟩
      have hne : x.adapter ≠ a := fun hxa => hany (List.any_eq_true.mpr ⟨x, hx, beq_iff_eq.mpr hxa⟩)
      exact (Function.update_of_ne hne ..).trans (h.stamp x hx)
  · exact ⟨hnodup, fun x hx => h.stamp x (h.eraseP a x hx).1⟩

theorem perform_accept {a : AdapterId} {now : Nat} (h : p.perform (.accept a now) = some p') :
    p.lastAction a = none ∧ p' = p.doAccept a now := by
  simp only [perform, Option.ite_none_right_eq_some, Option.some.injEq] at h
  exact ⟨h.1, h.2.symm⟩

theorem perform_read {a : AdapterId} {r : Bool} {now : Nat}
    (h : p.perform (.read a r now) = some p') : a ∈ p.adapters ∧ p' = p.doRead a r now := by
  simp only [perform, Option.ite_none_right_eq_some, Option.some.injEq] at h
  exact ⟨h.1, h.2.symm⟩

theorem Stamped.perform {act : Action} (h : Stamped p) (hp : p.perform act = some p') :
    Stamped p' := by
  cases act with
  | accept a now =>
    obtain ⟨hnew, rfl⟩ := perform_accept hp
    refine Stamped.append h.nodup (fun x hx => ⟨?_, h.stamp x hx⟩) rfl rfl
    rintro rfl
    exact absurd (hnew.symm.trans (h.stamp x hx)) (Option.some_ne_none _).symm
  | read a r now =>
    obtain ⟨-, rfl⟩ := perform_read hp
    exact h.doRead a r now
  | poll now =>
    cases hp
    have hsub := List.dropWhile_sublist (p.timedOut now) (l := p.activeAdapters)
    exact ⟨h.nodup.sublist (hsub.map _), fun x hx => h.stamp x (hsub.subset hx)⟩
  | config timeout =>
    cases hp
    exact ⟨h.nodup, h.stamp⟩

theorem step_perform {act : Action} (hp : p.step act = some p') :
    ∃ q, p.perform act = some q ∧ p' = { q with clock := p'.clock } := by
  unfold step at hp
  split at hp
  · exact ⟨p', hp, rfl⟩
  · split at hp
    · cases hp
    · obtain ⟨q, hq, rfl⟩ := Option.map_eq_some_iff.mp hp
      exact ⟨q, hq, rfl⟩

theorem Stamped.step {act : Action} (h : Stamped p) (hp : p.step act = some p') : Stamped p' := by
  obtain ⟨q, hq, heq⟩ := step_perform hp
  have hstamped := h.perform hq
  rw [heq]
  exact ⟨hstamped.nodup, hstamped.stamp⟩

/-- A socket that is shut down has been silent for `beep_timeout`. -/
theorem shut_step {act : Action} {a : AdapterId} (h : Stamped p) (hp : p.step act = some p')
    (ha : a ∈ p'.shut) : a ∈ p.shut ∨ ∃ now tp, act.clock = some now ∧ p.lastAction a = some tp ∧
      (now : Int) - tp ≥ p.beepTimeout.toNat * 1000000 := by
  obtain ⟨q, hq, heq⟩ := step_perform hp
  have ha : a ∈ q.shut := by
    rw [heq] at ha
    exact ha
  cases act with
  | accept b now =>
    obtain ⟨-, rfl⟩ := perform_accept hq
    exact .inl ha
  | read b r now =>
    obtain ⟨-, rfl⟩ := perform_read hq
    cases r with
    | true => exact .inl ha
    | false => exact .inl ha
  | poll now =>
    cases hq
    obtain ha | ha := List.mem_append.mp ha
    · exact .inl ha
    · obtain ⟨x, hx, rfl⟩ := List.mem_map.mp ha
      have hout := List.mem_takeWhile_imp hx
      have hmem := (List.takeWhile_sublist _).subset hx
      refine .inr ⟨now, x.lastestActionTp, rfl, h.stamp x hmem, ?_⟩
      have hle := of_decide_eq_true hout
      omega
  | config timeout =>
    cases hq
    exact .inl ha

theorem adapters_step {act : Action} {a : AdapterId} (hp : p.step act = some p')
    (ha : a ∈ p.adapters) (hread : ∀ now, act ≠ .read a false now) : a ∈ p'.adapters := by
  obtain ⟨q, hq, heq⟩ := step_perform hp
  rw [heq]
  change a ∈ q.adapters
  cases act with
  | accept b now =>
    obtain ⟨-, rfl⟩ := perform_accept hq
    exact List.mem_append_left _ ha
  | read b r now =>
    obtain ⟨-, rfl⟩ := perform_read hq
    cases r with
    | true => exact ha
    | false =>
      have hne : a ≠ b := fun hab => hread now (hab ▸ rfl)
      exact List.mem_filter.mpr ⟨ha, decide_eq_true hne⟩
  | poll now =>
    cases hq
    exact ha
  | config timeout =>
    cases hq
    exact ha

end BeepSocketPoll

end Flora
