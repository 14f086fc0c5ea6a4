import Flora.Poll.Idle

/-! # The timeout of select

`do_poll` lets `select` wait until the connection that has been silent longest is due.
`obtain_timeout` computes this from a later reading of the clock than the last
`shutdown_timeout_adapter`, so the difference can be negative. -/

namespace Flora

open TransitionSystem SortedList

structure Timeval where
  tvSec : Int
  tvUsec : Int
  deriving DecidableEq, Repr

/-- What `select` takes without `EINVAL`. -/
def Timeval.Valid (tv : Timeval) : Prop := 0 ≤ tv.tvSec ∧ 0 ≤ tv.tvUsec ∧ tv.tvUsec < 1000000

instance (tv : Timeval) : Decidable tv.Valid :=
  inferInstanceAs (Decidable (0 ≤ tv.tvSec ∧ 0 ≤ tv.tvUsec ∧ tv.tvUsec < 1000000))

namespace BeepSocketPoll

variable {p : BeepSocketPoll} {now : Nat}

/-- `obtain_timeout` for the front of the list. The cast to milliseconds, the quotient and the
remainder truncate towards zero. -/
def obtainTimeout (p : BeepSocketPoll) (now : Nat) (front : ActiveAdapter) : Timeval :=
  let dur := Int.tdiv (p.beepTimeout.toNat * 1000000 - (now - front.lastestActionTp)) 1000000
  { tvSec := Int.tdiv dur 1000, tvUsec := Int.tmod dur 1000 * 1000 }

/-- The timeout of `do_poll`; with no active adapters `select` waits without one. -/
def pollTimeout (p : BeepSocketPoll) (now : Nat) : Option Timeval :=
  p.activeAdapters.head?.map (p.obtainTimeout now)

theorem tdiv_nonneg_iff {d k : Int} (hk : 0 < k) : 0 ≤ Int.tdiv d k ↔ -k < d := by
  by_cases hd : 0 ≤ d
  · exact iff_of_true (Int.tdiv_nonneg hd (Int.le_of_lt hk)) (by omega)
  · have hneg : Int.tdiv d k = -(-d / k) := by
      rw [← Int.tdiv_eq_ediv_of_nonneg (by omega), Int.neg_tdiv, Int.neg_neg]
    have hlt : -d / k < 1 ↔ -d < 1 * k := Int.ediv_lt_iff_lt_mul hk
    omega

/-- Seconds and microseconds of a duration are in range exactly if it is not negative in whole
milliseconds. -/
theorem valid_iff {dur : Int} :
    Timeval.Valid ⟨Int.tdiv dur 1000, Int.tmod dur 1000 * 1000⟩ ↔ 0 ≤ dur := by
  have hsplit := Int.mul_tdiv_add_tmod dur 1000
  constructor
  · rintro ⟨hsec, husec, -⟩
    dsimp only at hsec husec
    omega
  · intro hdur
    have hsec := Int.tdiv_nonneg hdur (by decide : (0 : Int) ≤ 1000)
    have hrem := Int.tmod_nonneg 1000 hdur
    have hlt := Int.tmod_lt_of_pos dur (by decide : (0 : Int) < 1000)
    refine ⟨hsec, ?_, ?_⟩ <;> dsimp only <;> omega

theorem obtainTimeout_valid_iff (front : ActiveAdapter) : (p.obtainTimeout now front).Valid ↔
    (now : Int) - front.lastestActionTp < (p.beepTimeout.toNat + 1) * 1000000 := by
  unfold obtainTimeout
  rw [valid_iff, tdiv_nonneg_iff (by decide)]
  omega

/-- In every reachable state and at every time, the timeout handed to `select` is valid if and
only if no active connection has been silent for `beep_timeout` and a millisecond. -/
theorem pollTimeout_valid_iff (h : system.Reachable p) :
    (∀ tv, p.pollTimeout now = some tv → tv.Valid) ↔
      ∀ x ∈ p.activeAdapters,
        (now : Int) - x.lastestActionTp < (p.beepTimeout.toNat + 1) * 1000000 := by
  have hsorted := (exact_reachable h).sorted
  constructor
  · intro hvalid x hx
    obtain ⟨front, hfront⟩ : ∃ front, p.activeAdapters.head? = some front := by
      rw [← Option.isSome_iff_exists, List.isSome_head?]
      exact List.ne_nil_of_mem hx
    have hlt := (obtainTimeout_valid_iff front).mp (hvalid _ (by rw [pollTimeout, hfront]; rfl))
    have hle : (front.lastestActionTp : Int) ≤ x.lastestActionTp := hsorted.head_le hfront x hx
    omega
  · intro hall tv htv
    obtain ⟨front, hfront, rfl⟩ := Option.map_eq_some_iff.mp htv
    exact (obtainTimeout_valid_iff front).mpr (hall front (List.mem_of_head? hfront))

theorem pollTimeout_valid_before_due : ∃ p, execute step {} [.accept 0 0, .poll 0] = some p ∧
    p.activeAdapters = [⟨0, 0⟩] ∧ ∀ tv, p.pollTimeout 60000999999 = some tv → tv.Valid := by
  have hrun : execute step {} [.accept 0 0, .poll 0] = some _ := rfl
  refine ⟨_, hrun, by decide +kernel,
    (pollTimeout_valid_iff (execute_reachable ⟨_, _, rfl⟩ hrun)).mpr (by decide +kernel)⟩

/-- Handling the data of adapter 1 takes until one millisecond after adapter 0 is due: the timeout
is -1000 microseconds. -/
theorem pollTimeout_valid_fails_late : ¬ ∀ (p : BeepSocketPoll) (now : Nat), system.Reachable p →
    p.clock ≤ now → ∀ tv, p.pollTimeout now = some tv → tv.Valid := by
  intro h
  have hrun : execute step {} [.accept 0 0, .poll 0, .accept 1 0, .poll 0,
    .read 1 true 60001000000] = some _ := rfl
  have hvalid := h _ 60001000000 (execute_reachable ⟨_, _, rfl⟩ hrun) (by decide) ⟨0, -1000⟩
    (by decide +kernel)
  exact absurd hvalid.2.1 (by decide)

end BeepSocketPoll

end Flora
