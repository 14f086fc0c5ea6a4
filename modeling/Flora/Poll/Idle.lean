import Flora.Poll.State
import Flora.Lib.SortedList
import Mathlib.Data.Int.Order.Basic

/-! # Idle connections

The list of active adapters is sorted by the time of the last action and has one entry for every
connection that was accepted, did not fail a read and has not been timed out. So the scan from the
front, which stops at the first entry that is not due, finds every idle connection. -/

namespace Flora

open TransitionSystem SortedList

namespace BeepSocketPoll

variable {p p' : BeepSocketPoll} {a : AdapterId} {tp : Nat} {act : Action} {as : List Action}

/-- A poll that has just been started, with the timeout it was configured with. -/
def Initial (p : BeepSocketPoll) : Prop :=
  ∃ timeout clock, p = { beepTimeout := timeout, clock := clock }

def system : System BeepSocketPoll Action := System.ofStep Initial step

/-- The time at which the action accepts `a` or reads from it with success. -/
def Action.hears (a : AdapterId) : Action → Option Nat
  | .accept b now => if b = a then some now else none
  | .read b true now => if b = a then some now else none
  | _ => none

/-- The time of the last accept of `a` or successful read from it. -/
def heard (a : AdapterId) : List Action → Option Nat
  | [] => none
  | act :: as => (heard a as).or (act.hears a)

def Connected (a : AdapterId) (as : List Action) : Prop :=
  (∃ now, .accept a now ∈ as) ∧ ∀ now, .read a false now ∉ as

/-- The list agrees with the histories. -/
structure Exact (p : BeepSocketPoll) : Prop extends Stamped p where
  sorted : SortedBy (fun x : ActiveAdapter => (x.lastestActionTp : Int)) p.activeAdapters
  past : ∀ x ∈ p.activeAdapters, x.lastestActionTp ≤ p.clock
  accepted : ∀ a, a ∈ p.adapters ∨ a ∈ p.shut → p.lastAction a ≠ none
  mem_iff : ∀ a tp, ⟨tp, a⟩ ∈ p.activeAdapters ↔
    a ∈ p.adapters ∧ a ∉ p.shut ∧ p.lastAction a = some tp

theorem step_clock (h : p.step act = some p') : p.clock ≤ p'.clock ∧
    ∀ now, act.clock = some now → p'.clock = now := by
  unfold step at h
  split at h
  · rename_i hnone
    cases act <;> cases hnone
    cases h
    exact ⟨Nat.le_refl _, nofun⟩
  · rename_i now hnow
    split at h
    · cases h
    · rename_i hle
      obtain ⟨q, -, rfl⟩ := Option.map_eq_some_iff.mp h
      refine ⟨Nat.le_of_not_lt hle, fun now' hnow' => ?_⟩
      cases hnow.symm.trans hnow'
      rfl

theorem Stamped.mem_eraseP (h : Stamped p) (a : AdapterId) (x : ActiveAdapter) :
    x ∈ p.activeAdapters.eraseP (·.adapter == a) ↔ x ∈ p.activeAdapters ∧ x.adapter ≠ a := by
  constructor
  · exact h.eraseP a x
  · rintro ⟨hmem, hne⟩
    exact (List.mem_eraseP_of_neg (by simpa using hne)).mpr hmem

theorem mem_concat_iff {l : List ActiveAdapter} {now : Nat} {b : AdapterId}
    (hl : ∀ x ∈ l, x.adapter ≠ a) : (⟨tp, b⟩ : ActiveAdapter) ∈ l ++ [⟨now, a⟩] ↔
      if b = a then tp = now else ⟨tp, b⟩ ∈ l := by
  rw [List.mem_append, List.mem_singleton, ActiveAdapter.mk.injEq]
  split
  · rename_i hba
    subst hba
    constructor
    · rintro (hmem | ⟨htp, -⟩)
      · exact absurd rfl (hl _ hmem)
      · exact htp
    · exact fun htp => .inr ⟨htp, rfl⟩
  · rename_i hba
    constructor
    · rintro (hmem | ⟨-, heq⟩)
      · exact hmem
      · exact absurd heq hba
    · exact .inl

theorem update_ne_none {f : AdapterId → Option Nat} {now : Nat} {b : AdapterId}
    (hb : b ≠ a → f b ≠ none) : Function.update f a (some now) b ≠ none := by
  by_cases hba : b = a
  · subst hba
    rw [Function.update_self]
    exact Option.some_ne_none _
  · rw [Function.update_of_ne hba]
    exact hb hba

namespace Exact

theorem doAccept (h : Exact p) {now : Nat} (hnew : p.lastAction a = none) (hnow : p.clock ≤ now) :
    Exact { p.doAccept a now with clock := now } := by
  have hstamped : Stamped (p.doAccept a now) :=
    h.toStamped.perform (show p.perform (.accept a now) = _ from if_pos hnew)
  have hfresh : ∀ x ∈ p.activeAdapters, x.adapter ≠ a := by
    rintro x hx rfl
    rw [h.stamp x hx] at hnew
    cases hnew
  have hlate : ∀ x ∈ p.activeAdapters, x.lastestActionTp ≤ now :=
    fun x hx => Nat.le_trans (h.past x hx) hnow
  refine ⟨⟨hstamped.nodup, hstamped.stamp⟩, ?_, ?_, ?_, ?_⟩
  · exact h.sorted.concat fun x hx => Int.ofNat_le.mpr (hlate x hx)
  · intro x hx
    obtain hx | hx := List.mem_append.mp hx
    · exact hlate x hx
    · rw [List.mem_singleton.mp hx]
  · intro b hb
    refine update_ne_none fun hba => ?_
    obtain hb | hb := hb
    · obtain hb | hb := List.mem_append.mp hb
      · exact h.accepted b (.inl hb)
      · exact absurd (List.mem_singleton.mp hb) hba
    · exact h.accepted b (.inr hb)
  · intro b tp
    change (⟨tp, b⟩ : ActiveAdapter) ∈ p.activeAdapters ++ [⟨now, a⟩] ↔
      b ∈ p.adapters ++ [a] ∧ b ∉ p.shut ∧ Function.update p.lastAction a (some now) b = some tp
    rw [mem_concat_iff hfresh]
    split
    · rename_i hba
      subst hba
      have hopen : b ∉ p.shut := fun hb => h.accepted b (.inr hb) hnew
      simp [hopen, eq_comm]
    · rename_i hba
      rw [h.mem_iff, Function.update_of_ne hba]
      simp [hba]

theorem doRead_true (h : Exact p) {now : Nat} (ha : a ∈ p.adapters) (hnow : p.clock ≤ now) :
    Exact { p.doRead a true now with clock := now } := by
  have hstamped := h.toStamped.doRead a true now
  have hsub := List.eraseP_sublist (p := (·.adapter == a)) (l := p.activeAdapters)
  have hlate : ∀ x ∈ p.activeAdapters, x.lastestActionTp ≤ now :=
    fun x hx => Nat.le_trans (h.past x hx) hnow
  have hany : p.activeAdapters.any (·.adapter == a) = true ↔ a ∉ p.shut := by
    obtain ⟨tp, htp⟩ := Option.ne_none_iff_exists'.mp (h.accepted a (.inl ha))
    rw [List.any_eq_true]
    constructor
    · rintro ⟨⟨tp', b⟩, hx, hb⟩
      rw [show b = a from beq_iff_eq.mp hb] at hx
      exact ((h.mem_iff a tp').mp hx).2.1
    · exact fun hopen => ⟨⟨tp, a⟩, (h.mem_iff a tp).mpr ⟨ha, hopen, htp⟩, beq_self_eq_true a⟩
  refine ⟨⟨hstamped.nodup, hstamped.stamp⟩, ?_, ?_, ?_, ?_⟩
  · change SortedBy _ (p.touch a now)
    unfold touch
    split
    · refine (h.sorted.sublist hsub).concat fun x hx => Int.ofNat_le.mpr ?_
      exact hlate x (hsub.subset hx)
    · exact h.sorted
  · intro x hx
    have hx : x ∈ p.touch a now := hx
    unfold touch at hx
    split at hx
    · obtain hx | hx := List.mem_append.mp hx
      · exact hlate x (hsub.subset hx)
      · rw [List.mem_singleton.mp hx]
    · exact hlate x hx
  · exact fun b hb => update_ne_none fun _ => h.accepted b hb
  · intro b tp
    change (⟨tp, b⟩ : ActiveAdapter) ∈ p.touch a now ↔
      b ∈ p.adapters ∧ b ∉ p.shut ∧ Function.update p.lastAction a (some now) b = some tp
    unfold touch
    split
    · rename_i hlisted
      rw [mem_concat_iff fun x hx => (h.toStamped.eraseP a x hx).2]
      split
      · rename_i hba
        subst hba
        simp [ha, hany.mp hlisted, eq_comm]
      · rename_i hba
        rw [h.toStamped.mem_eraseP, h.mem_iff, Function.update_of_ne hba]
        simp [hba]
    · rename_i hunlisted
      rw [h.mem_iff]
      by_cases hba : b = a
      · subst hba
        have hshut : b ∈ p.shut := not_not.mp fun hopen => hunlisted (hany.mpr hopen)
        simp [hshut]
      · rw [Function.update_of_ne hba]

theorem doRead_false (h : Exact p) {now : Nat} (hnow : p.clock ≤ now) :
    Exact { p.doRead a false now with clock := now } := by
  have hstamped := h.toStamped.doRead a false now
  have hsub := List.eraseP_sublist (p := (·.adapter == a)) (l := p.activeAdapters)
  refine ⟨⟨hstamped.nodup, hstamped.stamp⟩, h.sorted.sublist hsub, ?_, ?_, ?_⟩
  · exact fun x hx => Nat.le_trans (h.past x (hsub.subset hx)) hnow
  · intro b hb
    exact h.accepted b (hb.imp_left fun hmem => (List.mem_filter.mp hmem).1)
  · intro b tp
    change (⟨tp, b⟩ : ActiveAdapter) ∈ p.activeAdapters.eraseP (·.adapter == a) ↔
      b ∈ p.adapters.filter (· ≠ a) ∧ b ∉ p.shut ∧ p.lastAction b = some tp
    rw [h.toStamped.mem_eraseP, h.mem_iff, List.mem_filter, decide_eq_true_iff]
    exact ⟨fun ⟨⟨hb, hopen, htp⟩, hne⟩ => ⟨⟨hb, hne⟩, hopen, htp⟩,
      fun ⟨⟨hb, hne⟩, hopen, htp⟩ => ⟨⟨hb, hopen, htp⟩, hne⟩⟩

theorem scan (h : Exact p) (now : Nat) :
    p.activeAdapters.takeWhile (p.timedOut now) = p.activeAdapters.filter (p.timedOut now) ∧
      p.activeAdapters.dropWhile (p.timedOut now) =
        p.activeAdapters.filter fun x => !p.timedOut now x := by
  obtain ⟨hdue, hrest⟩ := h.sorted.scan ((now : Int) - p.beepTimeout.toNat * 1000000)
  refine ⟨hdue, hrest.trans ?_⟩
  congr 1
  funext x
  simp only [timedOut, ge_iff_le, ← decide_not, not_le]

theorem shutdownTimeoutAdapter (h : Exact p) {now : Nat} (hnow : p.clock ≤ now) :
    Exact { p.shutdownTimeoutAdapter now with clock := now } := by
  have hstamped : Stamped (p.shutdownTimeoutAdapter now) :=
    h.toStamped.perform (show p.perform (.poll now) = _ from rfl)
  have hsub := List.dropWhile_sublist (p.timedOut now) (l := p.activeAdapters)
  obtain ⟨htake, hdrop⟩ := h.scan now
  refine ⟨⟨hstamped.nodup, hstamped.stamp⟩, h.sorted.sublist hsub, ?_, ?_, ?_⟩
  · exact fun x hx => Nat.le_trans (h.past x (hsub.subset hx)) hnow
  · intro b hb
    obtain hb | hb := hb
    · exact h.accepted b (.inl hb)
    · obtain hb | hb := List.mem_append.mp hb
      · exact h.accepted b (.inr hb)
      · obtain ⟨x, hx, rfl⟩ := List.mem_map.mp hb
        change p.lastAction x.adapter ≠ none
        rw [h.stamp x ((List.takeWhile_sublist _).subset hx)]
        exact Option.some_ne_none _
  · intro b tp
    change (⟨tp, b⟩ : ActiveAdapter) ∈ p.activeAdapters.dropWhile (p.timedOut now) ↔
      b ∈ p.adapters ∧ b ∉ p.shut ++ (p.activeAdapters.takeWhile (p.timedOut now)).map
        ActiveAdapter.adapter ∧ p.lastAction b = some tp
    rw [hdrop, htake, List.mem_filter, h.mem_iff, List.mem_append, not_or]
    constructor
    · rintro ⟨⟨hb, hopen, htp⟩, hkept⟩
      refine ⟨hb, ⟨hopen, fun hmem => ?_⟩, htp⟩
      obtain ⟨x, hx, hxb⟩ := List.mem_map.mp hmem
      obtain ⟨hx, hout⟩ := List.mem_filter.mp hx
      have hstamp := h.stamp x hx
      rw [hxb, htp] at hstamp
      have heq : x = ⟨tp, b⟩ := by
        cases x
        cases hstamp
        cases hxb
        rfl
      rw [heq] at hout
      rw [hout] at hkept
      cases hkept
    · rintro ⟨hb, ⟨hopen, hkept⟩, htp⟩
      refine ⟨⟨hb, hopen, htp⟩, ?_⟩
      rw [Bool.not_eq_true', ← Bool.not_eq_true]
      intro hout
      have hmem := (h.mem_iff b tp).mpr ⟨hb, hopen, htp⟩
      exact hkept (List.mem_map.mpr ⟨_, List.mem_filter.mpr ⟨hmem, hout⟩, rfl⟩)

end Exact

theorem Exact.step (h : Exact p) (hp : p.step act = some p') : Exact p' := by
  obtain ⟨hclock, hnow⟩ := step_clock hp
  obtain ⟨q, hq, heq⟩ := step_perform hp
  cases act with
  | accept a now =>
    obtain ⟨hnew, rfl⟩ := perform_accept hq
    rw [hnow now rfl] at heq hclock
    rw [heq]
    exact h.doAccept hnew hclock
  | read a r now =>
    obtain ⟨ha, rfl⟩ := perform_read hq
    rw [hnow now rfl] at heq hclock
    rw [heq]
    cases r with
    | true => exact h.doRead_true ha hclock
    | false => exact h.doRead_false hclock
  | poll now =>
    cases hq
    rw [hnow now rfl] at heq hclock
    rw [heq]
    exact h.shutdownTimeoutAdapter hclock
  | config timeout =>
    cases hp
    exact ⟨⟨h.nodup, h.stamp⟩, h.sorted, h.past, h.accepted, h.mem_iff⟩

theorem exact_reachable (h : system.Reachable p) : Exact p := by
  apply h.invariant (P := Exact)
  · rintro p ⟨timeout, clock, rfl⟩
    exact ⟨⟨List.nodup_nil, nofun⟩, .nil, nofun, nofun, by simp⟩
  · exact fun p act p' hp hst => hp.step hst

theorem lastAction_step (hp : p.step act = some p') (a : AdapterId) :
    p'.lastAction a = (act.hears a).or (p.lastAction a) := by
  have hupdate (b : AdapterId) (now : Nat) : Function.update p.lastAction b (some now) a =
      (if b = a then some now else none).or (p.lastAction a) := by
    by_cases hba : b = a
    · subst hba
      rw [Function.update_self, if_pos rfl]
      rfl
    · rw [Function.update_of_ne (Ne.symm hba), if_neg hba]
      rfl
  obtain ⟨q, hq, heq⟩ := step_perform hp
  rw [heq]
  cases act with
  | accept b now =>
    obtain ⟨-, rfl⟩ := perform_accept hq
    exact hupdate b now
  | read b r now =>
    obtain ⟨-, rfl⟩ := perform_read hq
    cases r with
    | true => exact hupdate b now
    | false => rfl
  | poll now =>
    cases hq
    rfl
  | config timeout =>
    cases hq
    rfl

theorem lastAction_run (h : system.Run p as p') (a : AdapterId) :
    p'.lastAction a = (heard a as).or (p.lastAction a) := by
  induction h with
  | nil => rfl
  | cons hst _ ih => rw [ih, lastAction_step hst a, heard, Option.or_assoc]

theorem not_accept_of_heard (h : system.Run p as p') (ha : p.lastAction a ≠ none) (now : Nat) :
    .accept a now ∉ as := by
  induction h with
  | nil => exact List.not_mem_nil
  | @cons s t r act as hst _ ih =>
    intro hmem
    obtain rfl | hmem := List.mem_cons.mp hmem
    · obtain ⟨q, hq, -⟩ := step_perform hst
      exact ha (perform_accept hq).1
    · refine ih ?_ hmem
      rw [lastAction_step hst a]
      cases hhears : act.hears a with
      | none => exact ha
      | some tp => exact Option.some_ne_none _

theorem mem_adapters_step (hp : p.step act = some p') : a ∈ p'.adapters ↔
    (a ∈ p.adapters ∨ ∃ now, act = .accept a now) ∧ ∀ now, act ≠ .read a false now := by
  obtain ⟨q, hq, heq⟩ := step_perform hp
  rw [heq]
  cases act with
  | accept b now =>
    obtain ⟨-, rfl⟩ := perform_accept hq
    change a ∈ p.adapters ++ [b] ↔ _
    have hacc : (∃ now', Action.accept b now = .accept a now') ↔ a = b := by
      simp only [Action.accept.injEq]
      exact ⟨fun ⟨_, hba, _⟩ => hba.symm, fun hab => ⟨now, hab.symm, rfl⟩⟩
    rw [hacc, List.mem_append, List.mem_singleton]
    exact ⟨fun hmem => ⟨hmem, nofun⟩, fun hmem => hmem.1⟩
  | read b r now =>
    obtain ⟨-, rfl⟩ := perform_read hq
    cases r with
    | true => simp [doRead]
    | false => simp [doRead, eq_comm (a := b)]
  | poll now =>
    cases hq
    simp [shutdownTimeoutAdapter]
  | config timeout =>
    cases hq
    simp

theorem mem_adapters_run (hp : Exact p) (h : system.Run p as p') : a ∈ p'.adapters ↔
    (a ∈ p.adapters ∨ ∃ now, .accept a now ∈ as) ∧ ∀ now, .read a false now ∉ as := by
  induction h with
  | nil => simp
  | @cons s t r act as hst hrun ih =>
    rw [ih (hp.step hst), mem_adapters_step hst]
    by_cases hfail : ∃ now, act = .read a false now
    · -- the failing read is the last that happens to the adapter
      obtain ⟨now, rfl⟩ := hfail
      obtain ⟨q, hq, -⟩ := step_perform hst
      have hheard := hp.accepted a (.inl (perform_read hq).1)
      have hafter : t.lastAction a ≠ none := by
        rw [lastAction_step hst a]
        exact hheard
      constructor
      · rintro ⟨(⟨-, hno⟩ | ⟨now', hmem⟩), -⟩
        · exact absurd rfl (hno now)
        · exact absurd hmem (not_accept_of_heard hrun hafter now')
      · exact fun ⟨_, hno⟩ => absurd List.mem_cons_self (hno now)
    · have hfail : ∀ now, act ≠ .read a false now := fun now heq => hfail ⟨now, heq⟩
      simp only [List.mem_cons, exists_or, not_or, forall_and]
      constructor
      · rintro ⟨(⟨hmem | hacc, -⟩ | hacc), hno⟩
        · exact ⟨.inl hmem, fun now heq => hfail now heq.symm, hno⟩
        · exact ⟨.inr (.inl (hacc.imp fun _ => Eq.symm)), fun now heq => hfail now heq.symm, hno⟩
        · exact ⟨.inr (.inr hacc), fun now heq => hfail now heq.symm, hno⟩
      · rintro ⟨(hmem | hacc | hacc), -, hno⟩
        · exact ⟨.inl ⟨.inl hmem, hfail⟩, hno⟩
        · exact ⟨.inl ⟨.inr (hacc.imp fun _ => Eq.symm), hfail⟩, hno⟩
        · exact ⟨.inr hacc, hno⟩

/-- After every run the list is sorted, without repetition, and has an entry with the time of the
last accept or successful read for exactly the connections that are up and were not timed out. A
poll at `now` shuts down exactly those of them that have been silent for `beep_timeout`. -/
theorem idle_shut_exactly {p₀ : BeepSocketPoll} (h₀ : Initial p₀) (h : system.Run p₀ as p) :
    p.activeAdapters.Pairwise (fun x y => x.lastestActionTp ≤ y.lastestActionTp) ∧
    (p.activeAdapters.map ActiveAdapter.adapter).Nodup ∧
    (∀ a tp, ⟨tp, a⟩ ∈ p.activeAdapters ↔
      Connected a as ∧ a ∉ p.shut ∧ heard a as = some tp) ∧
    ∀ now, p.clock ≤ now → ∃ p' out, p.step (.poll now) = some p' ∧ p'.shut = p.shut ++ out ∧
      ∀ a, a ∈ out ↔ Connected a as ∧ a ∉ p.shut ∧ ∃ tp, heard a as = some tp ∧
        (now : Int) - tp ≥ p.beepTimeout.toNat * 1000000 := by
  have hexact := exact_reachable ⟨p₀, as, h₀, h⟩
  have hstart := exact_reachable (.start h₀)
  have hmem (a : AdapterId) (tp : Nat) : ⟨tp, a⟩ ∈ p.activeAdapters ↔
      Connected a as ∧ a ∉ p.shut ∧ heard a as = some tp := by
    obtain ⟨timeout, clock, rfl⟩ := h₀
    rw [hexact.mem_iff, lastAction_run h, mem_adapters_run hstart h, Option.or_none]
    simp only [List.not_mem_nil, false_or]
    rfl
  refine ⟨hexact.sorted.imp Int.ofNat_le.mp, hexact.nodup, hmem, fun now hnow => ?_⟩
  refine ⟨{ p.shutdownTimeoutAdapter now with clock := now }, _, ?_, rfl, fun a => ?_⟩
  · exact if_neg (Nat.not_lt.mpr hnow)
  · rw [(hexact.scan now).1, List.mem_map]
    constructor
    · rintro ⟨⟨tp, b⟩, hx, rfl⟩
      obtain ⟨hx, hout⟩ := List.mem_filter.mp hx
      obtain ⟨hconn, hopen, hheard⟩ := (hmem b tp).mp hx
      have hdue : (now : Int) - p.beepTimeout.toNat * 1000000 ≥ tp := of_decide_eq_true hout
      exact ⟨hconn, hopen, tp, hheard, by omega⟩
    · rintro ⟨hconn, hopen, tp, hheard, hidle⟩
      refine ⟨⟨tp, a⟩, List.mem_filter.mpr ⟨(hmem a tp).mpr ⟨hconn, hopen, hheard⟩, ?_⟩, rfl⟩
      have hdue : (now : Int) - p.beepTimeout.toNat * 1000000 ≥ tp := by omega
      exact decide_eq_true hdue

theorem idle_shut_exactly_one_silent : ∃ p p' out,
    execute step {} [.accept 0 0, .accept 1 5, .read 0 true 30000000000] = some p ∧
    p.step (.poll 60000000005) = some p' ∧ p'.shut = out ∧ (1 ∈ out ∧ 0 ∉ out) := by
  have hrun : execute step {} [.accept 0 0, .accept 1 5, .read 0 true 30000000000] = some _ := rfl
  obtain ⟨-, -, -, hpoll⟩ := idle_shut_exactly ⟨_, _, rfl⟩ (execute_run hrun)
  obtain ⟨p', out, hst, hshut, hout⟩ := hpoll 60000000005 (by decide)
  refine ⟨_, p', out, rfl, hst, hshut, (hout 1).mpr ?_, fun hmem => ?_⟩
  · exact ⟨⟨⟨5, by simp⟩, by simp⟩, nofun, 5, rfl, by decide⟩
  · obtain ⟨-, -, tp, htp, hidle⟩ := (hout 0).mp hmem
    cases htp
    exact absurd hidle (by decide)

end BeepSocketPoll

end Flora
