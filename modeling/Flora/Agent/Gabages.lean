import Flora.Agent.State
import Mathlib.Data.List.ReduceOption

/-! # Clients of earlier connections

`run` puts every client it publishes into a list, and `clean_gabages` closes them after each round
and erases those that nobody else holds. It counts the holders while it holds the client itself:
`use_count` is never 1, and the list has a client for every connection that was ever made. -/

namespace Flora

open TransitionSystem

namespace Agent

/-- `use_count()` of a client: the holders outside the list, the entries of the list and the copy
`cli` of the loop. -/
def useCount (outside : Nat → Nat) (gabages : List (Option Nat)) (cli : Option Nat) (c : Nat) : Nat :=
  outside c + gabages.count (some c) + if cli = some c then 1 else 0

/-- The loop of `clean_gabages`, with the list split at its iterator; `closed` are the clients that
were closed. -/
def cleanLoop (outside : Nat → Nat) (front rest : List (Option Nat)) (closed : List Nat) :
    List (Option Nat) × List Nat :=
  match rest with
  | [] => (front, closed)
  | none :: rest => cleanLoop outside (front ++ [none]) rest closed
  | some c :: rest =>
    if useCount outside (front ++ some c :: rest) (some c) c = 1 then
      cleanLoop outside front rest (closed ++ [c])
    else cleanLoop outside (front ++ [some c]) rest (closed ++ [c])

def cleanGabages (outside : Nat → Nat) (gabages : List (Option Nat)) :
    List (Option Nat) × List Nat :=
  cleanLoop outside [] gabages []

/-- Every client of the list has been closed, and those that have a holder outside are left. -/
structure Cleaned (outside : Nat → Nat) (gabages : List (Option Nat)) : Prop where
  closed : ∀ c, some c ∈ gabages → c ∈ (cleanGabages outside gabages).2
  left : ∀ c, some c ∈ (cleanGabages outside gabages).1 ↔ some c ∈ gabages ∧ 0 < outside c

variable {outside : Nat → Nat} {gabages front rest : List (Option Nat)} {closed : List Nat}

/-- The copy of the loop is a second holder next to the entry it was made from. -/
theorem useCount_ne_one (c : Nat) : useCount outside (front ++ some c :: rest) (some c) c ≠ 1 := by
  have hentry : 0 < (front ++ some c :: rest).count (some c) :=
    List.count_pos_iff.mpr (List.mem_append_right _ List.mem_cons_self)
  rw [useCount, if_pos rfl]
  omega

theorem cleanLoop_eq : cleanLoop outside front rest closed =
    (front ++ rest, closed ++ rest.reduceOption) := by
  induction rest generalizing front closed with
  | nil => simp [cleanLoop]
  | cons x rest ih =>
    cases x with
    | none => rw [cleanLoop, ih, List.append_assoc, List.reduceOption_cons_of_none]; rfl
    | some c =>
      rw [cleanLoop, if_neg (useCount_ne_one c), ih, List.append_assoc, List.append_assoc,
        List.reduceOption_cons_of_some]
      rfl

theorem cleanGabages_eq : cleanGabages outside gabages = (gabages, gabages.reduceOption) :=
  cleanLoop_eq

theorem cleaned_iff :
    Cleaned outside gabages ↔ ∀ c, some c ∈ gabages → 0 < outside c := by
  constructor
  · intro h c hc
    have hleft := h.left c
    rw [cleanGabages_eq] at hleft
    exact (hleft.mp hc).2
  · intro h
    refine ⟨fun c hc => ?_, fun c => ?_⟩
    · rw [cleanGabages_eq]
      exact List.reduceOption_mem_iff.mpr hc
    · rw [cleanGabages_eq]
      exact ⟨fun hc => ⟨hc, h c hc⟩, fun hc => hc.1⟩

end Agent

/-- The agent with the list of its run thread. -/
structure Recycler where
  agent : Agent := {}
  gabages : List (Option Nat) := []

namespace Recycler

/-- `kept` tells how many pointers to a client its users hold when the list is cleaned. -/
inductive Action where
  | agent (act : Agent.Action)
  | clean (kept : Nat → Nat)

variable (o : Options) (s : Recycler)

/-- The holders of a client apart from the list: `flora_cli`, the threads that work with it, and its
users. -/
def holders (kept : Nat → Nat) (c : Nat) : Nat :=
  s.agent.floraCli.toList.count c + (s.agent.calls.map Prod.snd).count c + s.agent.posts.count c +
    s.agent.closing.count c + kept c

/-- What an action of the agent adds to the list: the client that the run thread publishes. -/
def pushed : Agent.Action → List (Option Nat)
  | .publish => [match s.agent.pc with
    | .publishing c => some c
    | _ => none]
  | _ => []

def step : Action → Option Recycler
  | .agent .clean => none
  | .agent act => (s.agent.step o act).map fun a =>
    { agent := a, gabages := s.gabages ++ s.pushed act }
  | .clean kept => (s.agent.step o .clean).map fun a =>
    { agent := a, gabages := (Agent.cleanGabages (s.holders kept) s.gabages).1 }

def system : System Recycler Action := System.ofStep (· = {}) (step o)

def Action.connects : Action → Bool
  | .agent .publish => true
  | _ => false

variable {o} {s} {s' : Recycler} {act : Action} {as : List Action}

theorem length_pushed (s : Recycler) (act : Agent.Action) :
    (s.pushed act).length = if (Action.agent act).connects then 1 else 0 := by
  cases act <;> rfl

theorem gabages_step (h : s.step o act = some s') :
    s'.gabages.length = s.gabages.length + if act.connects then 1 else 0 := by
  unfold step at h
  split at h
  · cases h
  · obtain ⟨a, -, rfl⟩ := Option.map_eq_some_iff.mp h
    rw [List.length_append, length_pushed]
  · obtain ⟨a, -, rfl⟩ := Option.map_eq_some_iff.mp h
    dsimp only
    rw [Agent.cleanGabages_eq]
    rfl

theorem gabages_run (h : (system o).Run s as s') :
    s'.gabages.length = s.gabages.length + as.countP Action.connects := by
  induction h with
  | nil => rfl
  | cons hst _ ih =>
    rw [ih, gabages_step hst, List.countP_cons]
    omega

/-- A round of the run thread whose connection is lost while nobody holds its client. -/
def lostRound (c : Nat) : List Action :=
  [.agent .test, .agent (.connect true), .agent .setCallback, .agent .walkEnd, .agent .walkEnd,
    .agent .publish, .agent (.drop c), .agent (.report c), .agent .resume, .clean fun _ => 0]

def spent : Link := ⟨true, false, true, .ended, true, [], {}⟩

def afterRounds (n : Nat) : Recycler where
  agent := { links := fun c => if c < n then spent else {}, connected := n }
  gabages := (List.range n).map some

/-- The agent at work on client `n`, which it has published if `cli` names it. -/
def inRound (n : Nat) (pc : RunPc) (cli : Option Nat) (l : Link) : Agent where
  links := Function.update (afterRounds n).agent.links n l
  connected := n + 1
  floraCli := cli
  pc := pc

variable {n : Nat} {pc : RunPc} {cli : Option Nat} {l : Link}

theorem step_agent {act : Agent.Action} {a : Agent} (h : s.agent.step o act = some a)
    (hclean : act ≠ .clean) (hquiet : (Action.agent act).connects = false) :
    s.step o (.agent act) = some ⟨a, s.gabages⟩ := by
  cases act with
  | clean => exact absurd rfl hclean
  | publish => cases hquiet
  | _ => simp [step, h, pushed]

theorem inRound_links : (inRound n pc cli l).links n = l := by
  simp [inRound]

theorem inRound_setLink (l' : Link) :
    (inRound n pc cli l).setLink n l' = inRound n pc cli l' := by
  simp [Agent.setLink, inRound]

theorem connect_round :
    Agent.step o { (afterRounds n).agent with pc := .connecting } (.connect true) =
      some (inRound n (.authed n) none {}) := by
  have hfresh : Function.update (afterRounds n).agent.links n {} = (afterRounds n).agent.links :=
    Function.update_eq_self_iff.mpr (if_neg (Nat.lt_irrefl n)).symm
  rw [inRound, hfresh]
  rfl

theorem callback_round : Agent.step o (inRound n (.authed n) none {}) .setCallback =
    some (inRound n (.initPosts n none) none { callback := true }) := by
  change some ({ (inRound n (.authed n) none {}).setLink n
    { (inRound n (.authed n) none {}).links n with callback := true } with
      pc := .initPosts n none } : Agent) = _
  rw [inRound_links, inRound_setLink]
  rfl

theorem drop_round :
    Agent.step o (inRound n (.waiting n) (some n) { callback := true }) (.drop n) =
      some (inRound n (.waiting n) (some n)
        { callback := true, up := false, closed := true, receiver := .reporting }) := by
  change Agent.drop _ n = _
  rw [Agent.drop, inRound_links, if_pos ⟨Nat.lt_succ_self n, rfl⟩, if_neg Bool.false_ne_true,
    inRound_setLink]

theorem report_round :
    Agent.step o (inRound n (.waiting n) (some n)
      { callback := true, up := false, closed := true, receiver := .reporting }) (.report n) =
      some (inRound n (.woken n) (some n) spent) := by
  change Agent.report _ n = _
  rw [Agent.report, inRound_links, if_pos rfl, if_pos rfl, inRound_setLink]
  rfl

theorem clean_round : Agent.step o (inRound n .cleaning none spent) .clean =
    some (afterRounds (n + 1)).agent := by
  have hlinks (c : Nat) : (inRound n .cleaning none spent).links c =
      if c < n + 1 then spent else {} := by
    simp only [inRound, afterRounds, Function.update_apply]
    grind
  have hended : (List.range (n + 1)).all
      (fun c => ((inRound n .cleaning none spent).links c).receiver ≠ .reporting) = true := by
    refine List.all_eq_true.mpr fun c hc => ?_
    rw [hlinks, if_pos (List.mem_range.mp hc)]
    rfl
  refine (if_pos ⟨rfl, hended⟩).trans ?_
  have hclosed : (inRound n .cleaning none spent).clean.links =
      (afterRounds (n + 1)).agent.links := by
    funext c
    simp only [Agent.clean, hlinks]
    simp only [inRound, afterRounds]
    split <;> rfl
  change some ({ (afterRounds (n + 1)).agent with
    links := (inRound n .cleaning none spent).clean.links } : Agent) = _
  rw [hclosed]

theorem lostRound_run (n : Nat) :
    (system o).Run (afterRounds n) (lostRound n) (afterRounds (n + 1)) := by
  have hpublish :
      step o ⟨inRound n (.publishing n) none { callback := true }, (afterRounds n).gabages⟩
        (.agent .publish) = some ⟨inRound n (.waiting n) (some n) { callback := true },
          (afterRounds (n + 1)).gabages⟩ := by
    rw [afterRounds, afterRounds, List.range_succ, List.map_append]
    rfl
  have hclean : step o ⟨inRound n .cleaning none spent, (afterRounds (n + 1)).gabages⟩
      (.clean fun _ => 0) = some (afterRounds (n + 1)) := by
    simp only [step, clean_round, Option.map_some, Agent.cleanGabages_eq]
  refine .cons (step_agent rfl (by simp) rfl) ?_
  refine .cons (step_agent connect_round (by simp) rfl) ?_
  refine .cons (step_agent callback_round (by simp) rfl) ?_
  refine .cons (step_agent rfl (by simp) rfl) ?_
  refine .cons (step_agent rfl (by simp) rfl) ?_
  refine .cons hpublish ?_
  refine .cons (step_agent drop_round (by simp) rfl) ?_
  refine .cons (step_agent report_round (by simp) rfl) ?_
  refine .cons (step_agent rfl (by simp) rfl) ?_
  exact .single hclean

theorem rounds_run (n : Nat) :
    (system o).Run {} ((List.range n).flatMap lostRound) (afterRounds n) := by
  induction n with
  | zero => exact .nil _
  | succ n ih =>
    rw [List.range_succ, List.flatMap_append, List.flatMap_singleton]
    exact ih.append (lostRound_run n)

/-- A cleaning leaves the clients with a holder outside exactly if all of the list have one. In every
run the list has a client for every connection that was made, and there are runs of every number of
connections in which no user keeps a client. -/
theorem clean_gabages_iff (outside : Nat → Nat) (gabages : List (Option Nat)) (o : Options) :
    (Agent.Cleaned outside gabages ↔ ∀ c, some c ∈ gabages → 0 < outside c) ∧
    (∀ as s, (system o).Run {} as s → s.gabages.length = as.countP Action.connects) ∧
    ∀ n, ∃ as s, (system o).Run {} as s ∧ (∀ kept, Action.clean kept ∈ as → kept = fun _ => 0) ∧
      s.gabages.length = n := by
  refine ⟨Agent.cleaned_iff, fun as s h => ?_, fun n => ?_⟩
  · rw [gabages_run h]
    exact Nat.zero_add _
  · refine ⟨_, _, rounds_run n, fun kept h => ?_, ?_⟩
    · obtain ⟨c, -, h⟩ := List.mem_flatMap.mp h
      simpa [lostRound] using h
    · rw [afterRounds, List.length_map, List.length_range]

theorem clean_gabages_fails_unheld :
    ¬ ∀ (outside : Nat → Nat) (gabages : List (Option Nat)), Agent.Cleaned outside gabages := by
  intro h
  have hleft := (h (fun _ => 0) [some 0]).left 0
  exact absurd (hleft.mp (by decide)).2 (by decide)

end Recycler

end Flora
