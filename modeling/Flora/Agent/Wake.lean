import Flora.Agent.State

/-! # Does the agent sleep through its wake-up?

The run thread waits without a predicate, so a notification counts only if the thread waits already.
It goes to sleep for good exactly when `close` or the new client notifies between the test of
`working` and the wait, and nobody else has to notify after that. -/

namespace Flora

open TransitionSystem

namespace Agent

variable {o : Options} {s s' : Agent} {c : Nat}

/-- A notification is due: a thread has to call `destroy_client`, or a receive thread has to report
to the agent. -/
def Due (s : Agent) : Prop :=
  0 < s.destroyers ∨ ∃ c, (s.links c).receiver = .reporting ∧ (s.links c).callback = true

/-- The run thread does not wait while `working` is false or its client has reported, unless a
notification is due. -/
def Awake (s : Agent) : Prop := ∀ c, s.pc = .waiting c →
  s.Due ∨ (s.working = true ∧ (s.links c).reported = false)

/-- `missed` tells what the run thread would find if it looked. -/
structure Heard (s : Agent) : Prop where
  fresh : ∀ c, s.connected ≤ c → (s.links c).reported = false ∧ (s.links c).receiver = .reading
  connecting : s.pc = .connecting → (s.missed = true ↔ s.working = false)
  initializing : ∀ c, s.pc.initializing = some c →
    (s.missed = true ↔ s.working = false ∨ (s.links c).reported = true)

/-- Nothing that concerns the wait has changed. -/
structure Still (s s' : Agent) : Prop where
  working : s'.working = s.working
  missed : s'.missed = s.missed
  connected : s'.connected = s.connected
  destroyers : s'.destroyers = s.destroyers
  links : ∀ c, (s'.links c).callback = (s.links c).callback ∧
    (s'.links c).receiver = (s.links c).receiver ∧ (s'.links c).reported = (s.links c).reported

namespace Still

theorem refl (s : Agent) : Still s s := ⟨rfl, rfl, rfl, rfl, fun _ => ⟨rfl, rfl, rfl⟩⟩

theorem due (h : Still s s') (hdue : s.Due) : s'.Due := by
  obtain hpos | ⟨c, hrep, hcb⟩ := hdue
  · exact .inl (by rw [h.destroyers]; exact hpos)
  · exact .inr ⟨c, (h.links c).2.1.trans hrep, (h.links c).1.trans hcb⟩

theorem heard (h : Still s s') (hs : Heard s)
    (hconn : s'.pc = .connecting → s.pc = .connecting)
    (hinit : ∀ c, s'.pc.initializing = some c → s.pc.initializing = some c) : Heard s' where
  fresh c hc := by
    rw [h.connected] at hc
    rw [(h.links c).2.2, (h.links c).2.1]
    exact hs.fresh c hc
  connecting hpc := by
    rw [h.missed, h.working]
    exact hs.connecting (hconn hpc)
  initializing c hpc := by
    rw [h.missed, h.working, (h.links c).2.2]
    exact hs.initializing c (hinit c hpc)

theorem awake (h : Still s s') (hs : Awake s) (hpc : ∀ c, s'.pc = .waiting c → s.pc = .waiting c) :
    Awake s' := by
  intro c hc
  obtain hdue | ⟨hworking, hrep⟩ := hs c (hpc c hc)
  · exact .inl (h.due hdue)
  · exact .inr ⟨h.working.trans hworking, (h.links c).2.2.trans hrep⟩

theorem setLink (s : Agent) (c : Nat) {l : Link} (hcb : l.callback = (s.links c).callback)
    (hrec : l.receiver = (s.links c).receiver) (hrep : l.reported = (s.links c).reported) :
    Still s (s.setLink c l) := by
  refine ⟨rfl, rfl, rfl, rfl, fun x => ⟨?_, ?_, ?_⟩⟩
  · exact setLink_congr Link.callback hcb x
  · exact setLink_congr Link.receiver hrec x
  · exact setLink_congr Link.reported hrep x

theorem send (o : Options) (s : Agent) (c : Nat) (r : Request) : Still s (s.send o c r) := by
  obtain heq | ⟨_, _, _, heq⟩ := send_cases o s c r
  · rw [heq]
    exact .refl s
  · rw [heq]
    exact .setLink s c rfl rfl rfl

theorem setPc (h : Still s s') (pc : RunPc) : Still s { s' with pc := pc } :=
  ⟨h.working, h.missed, h.connected, h.destroyers, h.links⟩

end Still

theorem send_pc (o : Options) (s : Agent) (c : Nat) (r : Request) : (s.send o c r).pc = s.pc := by
  rcases send_cases o s c r with heq | ⟨_, _, _, heq⟩ <;> rw [heq]
  rfl

theorem still_enter (kind : Kind) (keys : List String) (r : Request) (cli : Option Nat) :
    Still s ((s.setHandlers kind keys).enter r cli) ∧
      ((s.setHandlers kind keys).enter r cli).pc = s.pc := by
  cases kind <;> cases cli <;> exact ⟨⟨rfl, rfl, rfl, rfl, fun _ => ⟨rfl, rfl, rfl⟩⟩, rfl⟩

theorem still_addHandler (kind : Kind) (name : String) :
    Still s (s.addHandler kind name) ∧ (s.addHandler kind name).pc = s.pc := by
  unfold addHandler
  split
  · exact ⟨.refl s, rfl⟩
  · exact still_enter ..

theorem still_removeHandler (kind : Kind) (name : String) :
    Still s (s.removeHandler kind name) ∧ (s.removeHandler kind name).pc = s.pc := by
  unfold removeHandler
  split
  · exact still_enter ..
  · exact ⟨.refl s, rfl⟩

theorem notify_pc (s : Agent) : (∀ c, s.notify.pc ≠ .waiting c) ∧
    s.notify.pc.initializing = s.pc.initializing ∧
    (s.notify.pc = .connecting ↔ s.pc = .connecting) := by
  unfold notify
  split
  · rename_i c hpc
    simp [hpc, RunPc.initializing]
  · rename_i hpc
    simp [hpc, RunPc.initializing]
  · rename_i hwait hpause
    exact ⟨hwait, rfl, .rfl⟩

theorem still_notify (s : Agent) : Still s s.notify := by
  unfold notify
  split <;> exact ⟨rfl, rfl, rfl, rfl, fun _ => ⟨rfl, rfl, rfl⟩⟩

/-- The run thread goes to sleep only if nothing has been missed, or if a notification is due. -/
def SleepsInTime (s : Agent) : Action → Prop
  | .publish => s.missed = false ∨ s.Due
  | _ => True

theorem awake_of_not_waiting (h : ∀ c, s'.pc ≠ .waiting c) : Awake s' :=
  fun c hc => absurd hc (h c)

theorem Still.wake (h : Still s s') (hpc : s'.pc = s.pc) (hs : Heard s) (ha : Awake s) :
    Heard s' ∧ Awake s' := by
  refine ⟨h.heard hs (fun heq => hpc ▸ heq) (fun c heq => hpc ▸ heq), ?_⟩
  exact h.awake ha fun c heq => hpc ▸ heq

theorem Still.wake_init (h : Still s s') (hs : Heard s)
    (hpc : s'.pc.initializing = s.pc.initializing) (hinit : s'.pc.initializing ≠ none) :
    Heard s' ∧ Awake s' := by
  refine ⟨h.heard hs ?_ (fun c heq => hpc ▸ heq), awake_of_not_waiting ?_⟩
  · intro heq
    rw [heq] at hinit
    exact absurd rfl hinit
  · intro c heq
    rw [heq] at hinit
    exact hinit rfl

theorem heard_close (hs : Heard s) : Heard s.close := by
  unfold close
  split
  · have hpc := notify_pc { s with working := false, missed := true }
    have hstill := still_notify { s with working := false, missed := true }
    refine ⟨fun c hc => ?_, fun _ => ?_, fun c _ => ?_⟩
    · have hlinks := hstill.links c
      rw [show ({ s with working := false, missed := true } : Agent).links c = s.links c from rfl]
        at hlinks
      change (Agent.links (Agent.notify _) c).reported = false ∧ _
      rw [hlinks.2.2]
      refine ⟨(hs.fresh c ?_).1, hlinks.2.1.trans (hs.fresh c ?_).2⟩
      all_goals
        rw [← show (Agent.connected (Agent.notify _)) = s.connected from hstill.connected]
        exact hc
    · exact ⟨fun _ => hstill.working, fun _ => hstill.missed⟩
    · exact ⟨fun _ => .inl hstill.working, fun _ => hstill.missed⟩
  · exact hs

theorem awake_close (ha : Awake s) : Awake s.close := by
  unfold close
  split
  · exact awake_of_not_waiting (notify_pc _).1
  · exact ha

theorem due_drop (h : s.drop c = some s') (hdue : s.Due) : s'.Due := by
  obtain ⟨_, hreading, hcases⟩ := drop_cases h
  obtain hpos | ⟨x, hrep, hcb⟩ := hdue
  · rcases hcases with ⟨-, rfl⟩ | rfl <;> exact .inl hpos
  · have hne : x ≠ c := by
      rintro rfl
      cases hreading.symm.trans hrep
    rcases hcases with ⟨-, rfl⟩ | rfl <;>
      exact .inr ⟨x, by rw [setLink_links, if_neg hne]; exact hrep,
        by rw [setLink_links, if_neg hne]; exact hcb⟩

theorem wake_drop (h : s.drop c = some s') (hs : Heard s) (ha : Awake s) : Heard s' ∧ Awake s' := by
  obtain ⟨hlt, hreading, hcases⟩ := drop_cases h
  have hrest : s'.pc = s.pc ∧ s'.working = s.working ∧ s'.missed = s.missed ∧
      s'.connected = s.connected ∧ (∀ x, (s'.links x).reported = (s.links x).reported) ∧
      ∀ x, x ≠ c → s'.links x = s.links x := by
    obtain ⟨-, rfl⟩ | rfl := hcases
    all_goals
      refine ⟨rfl, rfl, rfl, rfl, fun x => ?_, fun x hx => ?_⟩
      · rw [setLink_links]
        split
        · rename_i hx
          rw [hx]
        · rfl
      · rw [setLink_links, if_neg hx]
  obtain ⟨hpc, hworking, hmissed, hconnected, hreported, hother⟩ := hrest
  refine ⟨⟨fun x hx => ?_, fun hconn => ?_, fun x hinit => ?_⟩, fun x hwait => ?_⟩
  · rw [hconnected] at hx
    have hne : x ≠ c := by omega
    rw [hother x hne]
    exact hs.fresh x hx
  · rw [hmissed, hworking]
    exact hs.connecting (hpc ▸ hconn)
  · rw [hmissed, hworking, hreported]
    exact hs.initializing x (hpc ▸ hinit)
  · obtain hdue | ⟨hw, hrep⟩ := ha x (hpc ▸ hwait)
    · exact .inl (due_drop h hdue)
    · exact .inr ⟨hworking.trans hw, (hreported x).trans hrep⟩

theorem wake_report (h : s.report c = some s') (hs : Heard s) (ha : Awake s) :
    Heard s' ∧ Awake s' := by
  obtain ⟨hreporting, ⟨hcb, rfl⟩ | ⟨hcb, rfl⟩⟩ := report_cases h
  · have hbound : c < s.connected := by
      by_contra hge
      cases (hs.fresh c (Nat.le_of_not_lt hge)).2.symm.trans hreporting
    obtain ⟨hwait, hinit, hconn⟩ :=
      notify_pc (s.setLink c { s.links c with receiver := .ended, reported := true })
    have hstill := still_notify (s.setLink c { s.links c with receiver := .ended, reported := true })
    have hlinks (x : Nat) : (Agent.links (Agent.notify (s.setLink c
        { s.links c with receiver := .ended, reported := true })) x).reported =
          if x = c then true else (s.links x).reported := by
      rw [(hstill.links x).2.2, setLink_links]
      split <;> rfl
    refine ⟨⟨fun x hx => ?_, fun hc => ?_, fun x hx => ?_⟩, awake_of_not_waiting hwait⟩
    · have hx : s.connected ≤ x := hstill.connected ▸ hx
      have hne : x ≠ c := by omega
      refine ⟨(hlinks x).trans ?_, (hstill.links x).2.1.trans ?_⟩
      · rw [if_neg hne]
        exact (hs.fresh x hx).1
      · rw [setLink_links, if_neg hne]
        exact (hs.fresh x hx).2
    · have hpc : s.pc = .connecting := hconn.mp hc
      change (s.missed || s.pc.initializing == some c) = true ↔ Agent.working (Agent.notify _) = false
      rw [hstill.working, hpc]
      simp only [RunPc.initializing, Option.none_beq_some, Bool.or_false]
      exact hs.connecting hpc
    · have hpc : s.pc.initializing = some x := hinit ▸ hx
      change (s.missed || s.pc.initializing == some c) = true ↔
        Agent.working (Agent.notify _) = false ∨ Link.reported (Agent.links (Agent.notify _) x) = true
      rw [hstill.working, hlinks, hpc]
      by_cases heq : x = c
      · simp [heq]
      · simp only [heq, if_false, Option.some_beq_some, beq_iff_eq, Bool.or_eq_true, or_false]
        exact hs.initializing x hpc
  · have hkept (x : Nat) : ((s.setLink c { s.links c with receiver := .ended }).links x).reported =
        (s.links x).reported := setLink_congr Link.reported (by rfl) x
    refine ⟨⟨fun x hx => ?_, hs.connecting, fun x hx => ?_⟩, fun x hwait => ?_⟩
    · have hne : x ≠ c := by
        rintro rfl
        cases (hs.fresh x hx).2.symm.trans hreporting
      rw [setLink_links, if_neg hne]
      exact hs.fresh x hx
    · rw [hkept]
      exact hs.initializing x hx
    · obtain hdue | ⟨hw, hrep⟩ := ha x hwait
      · left
        obtain hpos | ⟨y, hy, hycb⟩ := hdue
        · exact .inl hpos
        · have hne : y ≠ c := by
            rintro rfl
            rw [hcb] at hycb
            cases hycb
          exact .inr ⟨y, by rw [setLink_links, if_neg hne]; exact hy,
            by rw [setLink_links, if_neg hne]; exact hycb⟩
      · refine .inr ⟨hw, ?_⟩
        rw [hkept]
        exact hrep

theorem wake_publish (hs : Heard s) (hc : s.pc = .publishing c) :
    Awake { s with floraCli := some c, pc := .waiting c } ↔ s.missed = false ∨ s.Due := by
  have hheard := hs.initializing c (by rw [hc]; rfl)
  have hdue : ({ s with floraCli := some c, pc := .waiting c } : Agent).Due ↔ s.Due := .rfl
  constructor
  · intro ha
    obtain hd | ⟨hworking, hrep⟩ := ha c rfl
    · exact .inr (hdue.mp hd)
    · have hworking : s.working = true := hworking
      have hrep : (s.links c).reported = false := hrep
      left
      rw [← Bool.not_eq_true, hheard, hworking, hrep]
      simp
  · rintro hok x hx
    cases hx
    obtain hmissed | hd := hok
    · right
      rw [← Bool.not_eq_true, hheard, not_or, Bool.not_eq_false, Bool.not_eq_true] at hmissed
      exact hmissed
    · exact .inl (hdue.mpr hd)

theorem wake_connect {ok : Bool} (hst : step o s (.connect ok) = some s') (hs : Heard s) :
    Heard s' ∧ Awake s' := by
  obtain ⟨hpc, ⟨_, rfl⟩ | ⟨_, rfl⟩⟩ := step_connect hst
  · refine ⟨⟨fun c hc => hs.fresh c (Nat.le_of_succ_le hc), nofun, fun c hc => ?_⟩,
      awake_of_not_waiting nofun⟩
    cases hc
    change s.missed = true ↔ s.working = false ∨ (s.links s.connected).reported = true
    rw [hs.connecting hpc, (hs.fresh s.connected (Nat.le_refl _)).1]
    simp
  · exact ⟨⟨hs.fresh, nofun, nofun⟩, awake_of_not_waiting nofun⟩

theorem wake_setCallback (hst : step o s .setCallback = some s') (hs : Heard s) :
    Heard s' ∧ Awake s' := by
  obtain ⟨c, hpc, rfl⟩ := step_setCallback hst
  have hreported (x : Nat) : ((s.setLink c { s.links c with callback := true }).links x).reported =
      (s.links x).reported := setLink_congr Link.reported (by rfl) x
  have hreceiver (x : Nat) : ((s.setLink c { s.links c with callback := true }).links x).receiver =
      (s.links x).receiver := setLink_congr Link.receiver (by rfl) x
  refine ⟨⟨fun x hx => ?_, nofun, fun x hx => ?_⟩, awake_of_not_waiting nofun⟩
  · exact ⟨(hreported x).trans (hs.fresh x hx).1, (hreceiver x).trans (hs.fresh x hx).2⟩
  · cases hx
    change s.missed = true ↔ s.working = false ∨ (Agent.links (s.setLink c _) c).reported = true
    rw [hreported]
    exact hs.initializing c (by rw [hpc]; rfl)

/-- The bookkeeping survives every step, and the run thread stays awake exactly when it goes to
sleep in time. -/
theorem wake_step {act : Action} (hs : Heard s) (ha : Awake s) (hst : step o s act = some s') :
    Heard s' ∧ (Awake s' ↔ SleepsInTime s act) := by
  -- all steps but the wait itself keep the thread awake
  have other (hact : SleepsInTime s act) (h : Heard s' ∧ Awake s') :
      Heard s' ∧ (Awake s' ↔ SleepsInTime s act) := ⟨h.1, fun _ => hact, fun _ => h.2⟩
  cases act with
  | addHandler kind name =>
    cases hst
    exact other trivial ((still_addHandler kind name).1.wake (still_addHandler kind name).2 hs ha)
  | removeHandler kind name =>
    cases hst
    exact other trivial
      ((still_removeHandler kind name).1.wake (still_removeHandler kind name).2 hs ha)
  | request n =>
    obtain ⟨p, _, rfl⟩ := Option.map_eq_some_iff.mp hst
    have hsend := Still.send o { s with calls := s.calls.eraseIdx n } p.2 p.1
    have hstill : Still s _ :=
      ⟨hsend.working, hsend.missed, hsend.connected, hsend.destroyers, hsend.links⟩
    exact other trivial (hstill.wake (send_pc ..) hs ha)
  | beginPost =>
    obtain ⟨c, _, rfl⟩ := Option.map_eq_some_iff.mp hst
    have hstill : Still s { s with posts := s.posts ++ [c] } :=
      ⟨rfl, rfl, rfl, rfl, fun _ => ⟨rfl, rfl, rfl⟩⟩
    exact other trivial (hstill.wake rfl hs ha)
  | endPost n ok =>
    obtain ⟨c, _, rfl⟩ := Option.map_eq_some_iff.mp hst
    refine other trivial ⟨⟨hs.fresh, hs.connecting, hs.initializing⟩, fun x hx => ?_⟩
    obtain (hpos | hrep) | hawake := ha x hx
    · exact .inl (.inl (Nat.lt_of_lt_of_le hpos (Nat.le_add_right _ _)))
    · exact .inl (.inr hrep)
    · exact .inr hawake
  | destroyClient =>
    obtain ⟨_, rfl⟩ := step_destroyClient hst
    obtain ⟨hwait, hinit, hconn⟩ := notify_pc s
    have hheard := (still_notify s).heard hs hconn.mp fun c hc => hinit ▸ hc
    exact other trivial ⟨⟨hheard.fresh, hheard.connecting, hheard.initializing⟩,
      awake_of_not_waiting hwait⟩
  | close =>
    cases hst
    exact other trivial ⟨heard_close hs, awake_close ha⟩
  | closeClient n =>
    obtain ⟨c, _, rfl⟩ := Option.map_eq_some_iff.mp hst
    have hshut := Still.setLink ({ s with closing := s.closing.eraseIdx n } : Agent) c
      (l := { s.links c with up := false, closed := true }) rfl rfl rfl
    have hstill : Still s _ :=
      ⟨hshut.working, hshut.missed, hshut.connected, hshut.destroyers, hshut.links⟩
    exact other trivial (hstill.wake rfl hs ha)
  | test =>
    obtain ⟨_, ⟨hworking, rfl⟩ | ⟨_, rfl⟩⟩ := step_test hst
    · refine other trivial ⟨⟨hs.fresh, fun _ => ?_, nofun⟩, awake_of_not_waiting nofun⟩
      change false = true ↔ s.working = false
      simp [hworking]
    · exact other trivial ⟨⟨hs.fresh, nofun, nofun⟩, awake_of_not_waiting nofun⟩
  | connect ok => exact other trivial (wake_connect hst hs)
  | setCallback => exact other trivial (wake_setCallback hst hs)
  | walk name =>
    obtain ⟨c, last, hpc, _, rfl⟩ | ⟨c, last, hpc, _, rfl⟩ := walk_cases hst
    · have hstill := (Still.send o s c ⟨.post, true, name⟩).setPc (.initPosts c (some name))
      exact other trivial (hstill.wake_init hs (by rw [hpc]; rfl) nofun)
    · have hstill := (Still.send o s c ⟨.call, true, name⟩).setPc (.initCalls c (some name))
      exact other trivial (hstill.wake_init hs (by rw [hpc]; rfl) nofun)
  | walkEnd =>
    obtain ⟨c, last, hpc, _, rfl⟩ | ⟨c, last, hpc, _, rfl⟩ := walkEnd_cases hst
    · exact other trivial (((Still.refl s).setPc _).wake_init hs (by rw [hpc]; rfl) nofun)
    · exact other trivial (((Still.refl s).setPc _).wake_init hs (by rw [hpc]; rfl) nofun)
  | publish =>
    obtain ⟨c, hpc, rfl⟩ := step_publish hst
    exact ⟨⟨hs.fresh, nofun, nofun⟩, wake_publish hs hpc⟩
  | wake =>
    obtain rfl := step_wake hst
    obtain ⟨hwait, hinit, hconn⟩ := notify_pc s
    exact other trivial ⟨(still_notify s).heard hs hconn.mp fun c hc => hinit ▸ hc,
      awake_of_not_waiting hwait⟩
  | resume =>
    obtain ⟨_, _, rfl⟩ | ⟨_, rfl⟩ := step_resume hst
    · exact other trivial ⟨⟨hs.fresh, nofun, nofun⟩, awake_of_not_waiting nofun⟩
    · exact other trivial ⟨⟨hs.fresh, nofun, nofun⟩, awake_of_not_waiting nofun⟩
  | pause =>
    obtain ⟨_, rfl⟩ := step_pause hst
    exact other trivial ⟨⟨hs.fresh, nofun, nofun⟩, awake_of_not_waiting nofun⟩
  | clean =>
    obtain ⟨_, _, rfl⟩ := step_clean hst
    refine other trivial ⟨⟨fun x hx => ?_, nofun, nofun⟩, awake_of_not_waiting nofun⟩
    have hx : s.connected ≤ x := hx
    simp only [Agent.clean, if_neg (Nat.not_lt.mpr hx)]
    exact hs.fresh x hx
  | drop c => exact other trivial (wake_drop hst hs ha)
  | report c => exact other trivial (wake_report hst hs ha)
  | lose c =>
    obtain ⟨_, rfl⟩ := step_lose hst
    have hstill : Still s (s.setLink c { s.links c with up := false }) :=
      .setLink s c rfl rfl rfl
    exact other trivial (hstill.wake rfl hs ha)
  | handle c =>
    obtain ⟨r, rest, _, _, ⟨v, _, rfl⟩ | rfl⟩ := handle_cases hst
    · have hstill : Still s (s.setLink c { s.links c with requests := rest, view := v }) :=
        .setLink s c rfl rfl rfl
      exact other trivial (hstill.wake rfl hs ha)
    · have hstill : Still s (s.setLink c { s.links c with requests := rest, up := false }) :=
        .setLink s c rfl rfl rfl
      exact other trivial (hstill.wake rfl hs ha)

/-- Along a run the run thread never sleeps through its wake-up exactly when it always goes to
sleep in time. -/
theorem awake_run_iff {as : List Action} (h : execute (step o) {} as = some s) :
    (∀ bs s', bs <+: as → execute (step o) {} bs = some s' → Awake s') ↔
      ((system o).guard SleepsInTime).Run {} as s := by
  apply execute_guard_iff (I := fun s => Heard s ∧ Awake s)
  · exact fun s hs => hs.2
  · rintro s t act - ⟨hs, ha⟩ hst hin
    exact ⟨(wake_step hs ha hst).1, (wake_step hs ha hst).2.mpr hin⟩
  · rintro s t act - ⟨hs, ha⟩ hst ha'
    exact (wake_step hs ha hst).2.mp ha'
  · exact ⟨⟨fun _ _ => ⟨rfl, rfl⟩, nofun, nofun⟩, nofun⟩
  · exact h

def sampleReconnect : List Action :=
  [.test, .connect true, .setCallback, .walkEnd, .walkEnd, .publish, .drop 0, .report 0, .resume,
    .clean, .test, .connect true, .setCallback, .walkEnd, .walkEnd, .publish, .close, .resume]

theorem awake_run_reconnect : (execute (step sampleOptions) {} sampleReconnect).isSome = true ∧
    ∀ bs s', bs <+: sampleReconnect → execute (step sampleOptions) {} bs = some s' →
      Awake s' := by
  refine ⟨rfl, (awake_run_iff rfl).mpr ?_⟩
  refine .cons ⟨trivial, rfl⟩ (.cons ⟨trivial, rfl⟩ (.cons ⟨trivial, rfl⟩
    (.cons ⟨trivial, rfl⟩ (.cons ⟨trivial, rfl⟩ (.cons ⟨.inl rfl, rfl⟩ (.cons ⟨trivial, rfl⟩
    (.cons ⟨trivial, rfl⟩ (.cons ⟨trivial, rfl⟩ (.cons ⟨trivial, rfl⟩ ?_)))))))))
  exact .cons ⟨trivial, rfl⟩ (.cons ⟨trivial, rfl⟩ (.cons ⟨trivial, rfl⟩ (.cons ⟨trivial, rfl⟩
    (.cons ⟨trivial, rfl⟩ (.cons ⟨.inl rfl, rfl⟩ (.cons ⟨trivial, rfl⟩ (.cons ⟨trivial, rfl⟩
    (.nil _))))))))

/-- A `close` between the test and the wait is not heard, and the run thread waits for good. -/
theorem awake_fails_closing : ¬ ∀ s, (system sampleOptions).Reachable s → Awake s := by
  intro h
  have hrun : execute (step sampleOptions) {}
    [.test, .connect true, .setCallback, .walkEnd, .walkEnd, .close, .publish] = some _ := rfl
  obtain (hpos | ⟨c, hrep, _⟩) | ⟨hworking, _⟩ := h _ (execute_reachable rfl hrun) 0 rfl
  · cases hpos
  · have hreading : (Function.update (fun _ => ({} : Link)) 0 { callback := true } c).receiver =
        .reading := by
      rw [Function.update_apply]
      split <;> rfl
    cases hreading.symm.trans hrep
  · cases hworking

end Agent

end Flora
