import Flora.Dispatcher.Addresses

/-! # Names and their owners over whole runs

`named_adapters`, `adapter_infos` and `monitors` agree in every state of a run exactly when no
step of it registers a client a second time, or at an address whose entry outlived its adapter, or
erases a monitor that carries a client's name. A name stays with the client that registered it,
at an address without such an entry, until its own erase command exactly when no other adapter that
is erased carries the same name. -/

namespace Flora

open TransitionSystem

namespace Registry

variable {r : Registry} {a : AdapterId} {item : MonitorListItem}

theorem Agrees.not_reregisters (h : r.Agrees) {service : Word} {req : AuthReq}
    (hafter : (r.authenticate service req a).Agrees) : ¬ r.Reregisters service req a := by
  rintro ⟨hkey, hver, hrest⟩
  obtain ⟨i, hi⟩ := Option.ne_none_iff_exists'.mp hkey
  rw [Registry.authenticate, if_neg hver] at hafter
  by_cases hflag : hasMonitorFlag req.flags = true
  · rw [if_pos hflag] at hrest hafter
    rw [if_pos hrest] at hafter
    have hmon := hafter.disjoint a hkey
    cases hm : r.monitors a with
    | some j =>
      rw [h.disjoint a hkey] at hm
      cases hm
    | none => simp [Registry.enrolMonitor, hm] at hmon
  · rw [if_neg hflag] at hrest hafter
    obtain ⟨hne, hfree⟩ := hrest
    rw [if_neg (fun hboth => hboth.2 hfree)] at hafter
    have hnamed : (r.enrolClient req.extra req.flags req.pid a).named req.extra = some a := by
      simp [Registry.enrolClient, hne]
    obtain ⟨-, -, j, hj, hname⟩ := hafter.named _ _ hnamed
    simp only [Registry.enrolClient, hi] at hj
    cases hj
    have howner := h.clients a i hi (by rw [hname]; exact hne)
    rw [hname, hfree] at howner
    cases howner

theorem Agrees.not_meetsMonitor (h : r.Agrees) {service : Word} {req : AuthReq}
    (hafter : (r.authenticate service req a).Agrees) : ¬ r.MeetsMonitor req a := by
  rintro ⟨hkey, hver, hflag, hfree⟩
  have hclients : r.clients a = none := by
    apply not_not.mp
    intro hne
    exact hkey (h.disjoint a hne)
  have htaken : ¬ (req.extra ≠ "" ∧ r.named req.extra ≠ none) := by
    rintro ⟨hne, hnamed⟩
    exact hfree.elim hne hnamed
  rw [Registry.authenticate, if_neg hver, hflag, if_neg Bool.false_ne_true, if_neg htaken] at hafter
  have hnone := hafter.disjoint a (by
    rw [enrolClient_clients hclients, Function.update_self]
    exact Option.some_ne_none _)
  exact hkey hnone

theorem Agrees.not_stealsName (h : r.Agrees)
    (hafter : (r.erase a item).Agrees) : ¬ r.StealsName item := by
  rintro ⟨hflag, hne, hnamed⟩
  obtain ⟨b, hb⟩ := Option.ne_none_iff_exists'.mp hnamed
  obtain ⟨-, -, i, hi, hname⟩ := h.named _ _ hb
  have hi' : (r.erase a item).clients b = some i := by
    simp only [Registry.erase, hflag, if_true]
    exact hi
  have howner := hafter.clients b i hi' (by rw [hname]; exact hne)
  rw [hname] at howner
  simp [Registry.erase, hne] at howner

/-- Everything that holds of the registry as long as it is consistent. -/
structure Sound (r : Registry) : Prop where
  sorted : r.Sorted
  consistent : r.Consistent
  numbered : r.idseq < 2 ^ 32 → r.Numbered

theorem Sound.authenticate (h : r.Sound) {service : Word} {req : AuthReq} (hgate : r.Admitted a)
    (hre : ¬ r.Reregisters service req a) : (r.authenticate service req a).Sound where
  sorted := h.sorted.authenticate hgate
  consistent := h.consistent.authenticate h.sorted hgate hre
  numbered hbound :=
    (h.numbered (Nat.lt_of_le_of_lt idseq_le_authenticate hbound)).authenticate hbound

theorem Sound.erase (h : r.Sound) (hitem : r.deref a = some item)
    (hsteal : ¬ r.StealsName item) : (r.erase a item).Sound where
  sorted := h.sorted.erase
  consistent := h.consistent.erase h.sorted hitem hsteal
  numbered hbound := (h.numbered hbound).erase

/-- `a` owns the name `n` and has a record that can be read. -/
structure Holds (r : Registry) (a : AdapterId) (n : String) : Prop where
  named : r.named n = some a
  record : r.deref a ≠ none

theorem Holds.renew {n : String} (h : r.Holds a n) {b : AdapterId} (hab : a ≠ b) :
    (r.renew b).Holds a n := by
  refine ⟨h.named, ?_⟩
  simp only [deref, Registry.renew, Function.update_of_ne hab]
  exact h.record

theorem deref_enrolClient {name : String} {flags pid : Word} {b : AdapterId} (h : r.deref a ≠ none) :
    (r.enrolClient name flags pid b).deref a ≠ none := by
  cases hkey : r.clients b with
  | some i => simpa only [deref, Registry.enrolClient, hkey] using h
  | none =>
    by_cases hab : a = b
    · subst hab
      simp [deref, Registry.enrolClient, hkey]
    · simpa only [deref, Registry.enrolClient, hkey, Function.update_of_ne hab] using h

theorem deref_enrolMonitor {name : String} {flags : Word} {b : AdapterId} (h : r.deref a ≠ none) :
    (r.enrolMonitor name flags b).deref a ≠ none := by
  cases hkey : r.monitors b with
  | some i => simpa only [deref, Registry.enrolMonitor, hkey] using h
  | none =>
    by_cases hab : a = b
    · subst hab
      simp [deref, Registry.enrolMonitor, hkey]
    · simpa only [deref, Registry.enrolMonitor, hkey, Function.update_of_ne hab] using h

theorem Holds.authenticate {n : String} (h : r.Holds a n) {service : Word} {req : AuthReq}
    {b : AdapterId} : (r.authenticate service req b).Holds a n := by
  unfold Registry.authenticate
  split
  · exact h
  · split
    · split
      · exact ⟨h.named, deref_enrolMonitor h.record⟩
      · exact h
    · split
      · exact h
      · rename_i hfree
        refine ⟨?_, deref_enrolClient h.record⟩
        simp only [Registry.enrolClient]
        split
        · exact h.named
        · rename_i hne
          have hn : n ≠ req.extra := by
            rintro rfl
            exact hfree ⟨hne, by rw [h.named]; exact Option.some_ne_none _⟩
          rw [Function.update_of_ne hn]
          exact h.named

theorem deref_erase {b : AdapterId} (hab : a ≠ b) : (r.erase b item).deref a = r.deref a := by
  simp only [deref, Registry.erase]
  cases hasMonitorFlag item.flags <;> simp [Function.update_of_ne hab]

theorem Holds.erase {n : String} (h : r.Holds a n) {b : AdapterId} (hab : a ≠ b)
    (hname : item.name ≠ n) : (r.erase b item).Holds a n := by
  refine ⟨?_, by rw [deref_erase hab]; exact h.record⟩
  simp only [Registry.erase]
  split
  · exact h.named
  · rw [Function.update_of_ne hname.symm]
    exact h.named

theorem name_of_erase {n : String} (hn : n ≠ "") {b : AdapterId}
    (h : (r.erase b item).named n = some a) : item.name ≠ n := by
  rintro rfl
  simp [Registry.erase, hn] at h

end Registry

namespace Dispatcher

variable {e : Env} {d d' : Dispatcher} {a : AdapterId} {n : String}

/-- The record of an adapter in one of the two maps. -/
def node (d : Dispatcher) : InfoRef → AdapterId → Option AdapterInfo
  | .client, a => d.adapterInfos.lookup a
  | .monitor, a => d.monitors.lookup a

structure RegistryConsistent (d : Dispatcher) : Prop where
  named : ∀ n a, d.namedAdapters.lookup n = some a → n ≠ "" ∧ (d.adapters a).info = some .client ∧
    ∃ info, d.adapterInfos.lookup a = some info ∧ info.name = n
  clients : ∀ a info, d.adapterInfos.lookup a = some info → info.name ≠ "" →
    d.namedAdapters.lookup info.name = some a
  disjoint : ∀ a, d.adapterInfos.lookup a ≠ none → d.monitors.lookup a = none
  /-- As long as `idseq` has not wrapped. -/
  ids : d.idseq < 2 ^ 32 → ∀ ref a info ref' a' info', d.node ref a = some info →
    d.node ref' a' = some info' → info.id = info'.id → ref = ref' ∧ a = a'

theorem registry_record (d : Dispatcher) (ref : InfoRef) (a : AdapterId) :
    d.registry.record (ref, a) = (d.node ref a).map AdapterInfo.item := by
  cases ref <;> rfl

/-- What a run keeps of the registry: only for an entry with a name is the adapter at its address
known to be the one that registered. -/
structure Settled (d : Dispatcher) : Prop where
  filed : d.registry.Filed
  agrees : d.registry.Agrees
  numbered : d.registry.idseq < 2 ^ 32 → d.registry.Numbered
  names : NamesAlive d

theorem registryConsistent_of_settled (h : Settled d) : RegistryConsistent d where
  named n a hn := by
    obtain ⟨hne, hinfo, i, hi, hname⟩ := h.agrees.named n a hn
    obtain ⟨info, hlook, rfl⟩ := Option.map_eq_some_iff.mp hi
    exact ⟨hne, hinfo, info, hlook, hname⟩
  clients a info hlook hne :=
    h.agrees.clients a info.item (Option.map_eq_some_iff.mpr ⟨info, hlook, rfl⟩) hne
  disjoint a ha := by
    have hnone := h.agrees.disjoint a (by
      intro hnone
      exact ha (Option.map_eq_none_iff.mp hnone))
    exact Option.map_eq_none_iff.mp hnone
  ids hbound ref a info ref' a' info' hx hy hid := by
    have hrec : (ref, a) = (ref', a') := by
      apply (h.numbered hbound).inj _ _ info.item info'.item _ _ hid
      · rw [registry_record, hx]
        rfl
      · rw [registry_record, hy]
        rfl
    exact Prod.mk.inj hrec

theorem RegistryConsistent.agrees (h : RegistryConsistent d) : d.registry.Agrees where
  named n a hn := by
    obtain ⟨hne, hinfo, info, hlook, hname⟩ := h.named n a hn
    exact ⟨hne, hinfo, info.item, Option.map_eq_some_iff.mpr ⟨info, hlook, rfl⟩, hname⟩
  clients a i hi hne := by
    obtain ⟨info, hlook, rfl⟩ := Option.map_eq_some_iff.mp hi
    exact h.clients a info hlook hne
  disjoint a ha := by
    apply Option.map_eq_none_iff.mpr
    apply h.disjoint a
    intro hnone
    exact ha (Option.map_eq_none_iff.mpr hnone)

/-- The steps that keep the registry consistent: no auth request of an adapter that already has a
client record makes a second registration, and no monitor is erased whose name is a client's. -/
def KeepsRegistry (e : Env) (d : Dispatcher) : Action → Prop
  | .msg caps sender _ _ => ∀ req, d.handledAuth caps sender = some req →
    ¬ d.registry.Reregisters e.flags req sender
  | .erase sender _ => ∀ item, d.registry.deref sender = some item → ¬ d.registry.StealsName item
  | _ => True

theorem isMonitor_of_handledAuth {caps : Caps} {sender : AdapterId} {req : AuthReq}
    (h : d.handledAuth caps sender = some req) : isMonitor sender d = some false := by
  obtain ⟨rest, hrest, -⟩ := Option.bind_eq_some_iff.mp h
  unfold request at hrest
  split at hrest
  · assumption
  · cases hrest

theorem sorted_step {act : Action} (hs : d.registry.Sorted) (h : step e d act = some d') :
    d'.registry.Sorted := by
  rw [step_registry h]
  cases act with
  | msg caps sender now done =>
    simp only [registryAfter]
    cases hreq : d.handledAuth caps sender with
    | none => exact hs
    | some req =>
      have hgate := isMonitor_of_handledAuth hreq
      exact hs.authenticate fun i hi => flags_of_isMonitor hgate hi
  | erase sender now =>
    simp only [registryAfter, Registry.leave]
    split
    · exact hs
    · exact hs.erase
  | expire tp => exact hs
  | close a => exact hs
  | destroy a => exact hs

theorem sound_step {act : Action} (hs : d.registry.Sound) (h : step e d act = some d')
    (hkeep : KeepsRegistry e d act) : d'.registry.Sound := by
  rw [step_registry h]
  cases act with
  | msg caps sender now done =>
    simp only [registryAfter]
    cases hreq : d.handledAuth caps sender with
    | none => exact hs
    | some req =>
      have hgate := isMonitor_of_handledAuth hreq
      exact hs.authenticate (fun i hi => flags_of_isMonitor hgate hi) (hkeep req hreq)
  | erase sender now =>
    simp only [registryAfter]
    cases hitem : d.registry.deref sender with
    | none =>
      rw [Registry.leave_of_none hitem]
      exact hs
    | some item =>
      rw [Registry.leave_of_some hitem]
      exact hs.erase hitem (hkeep item hitem)
  | expire tp => exact hs
  | close a => exact hs
  | destroy a => exact hs

theorem sound_initial (h : Initial d) : d.registry.Sound := by
  obtain ⟨adapters, rfl, -⟩ := h
  refine ⟨⟨⟨nofun, nofun⟩, fun a ha => absurd rfl ha⟩, ⟨⟨nofun, ?_, ?_⟩, nofun⟩, fun _ => ⟨?_, ?_⟩⟩
  · exact fun a ha => absurd rfl ha
  · exact fun a ha => absurd rfl ha
  · rintro ⟨ref, a⟩ i hi
    cases ref <;> cases hi
  · rintro ⟨ref, a⟩ y i j hi
    cases ref <;> cases hi

theorem settled_initial (h : Initial d) : Settled d := by
  have hsound := sound_initial h
  obtain ⟨adapters, rfl, -⟩ := h
  exact ⟨hsound.sorted.toFiled, hsound.consistent.agrees, hsound.numbered, nofun⟩

/-- The events that keep the registry consistent: no auth request registers a client under a second
name, beside the entry that a freed adapter left at its address, or as a monitor, and no monitor is
erased whose name is a client's. -/
def KeepsMaps (e : Env) (d : Dispatcher) : MemoryEvent → Prop
  | .act (.msg caps sender now done) => KeepsRegistry e d (.msg caps sender now done) ∧
    ∀ req, d.handledAuth caps sender = some req → ¬ d.registry.MeetsMonitor req sender
  | .act x => KeepsRegistry e d x
  | .newAdapter _ _ _ => True

theorem settled_happen {x : MemoryEvent} (hs : Settled d) (h : happen e d x = some d')
    (hkeep : KeepsMaps e d x) : Settled d' := by
  have hnames := namesAlive_happen hs.names h
  suffices hreg : d'.registry.Filed ∧ d'.registry.Agrees ∧
      (d'.registry.idseq < 2 ^ 32 → d'.registry.Numbered) from
    ⟨hreg.1, hreg.2.1, hreg.2.2, hnames⟩
  cases x with
  | newAdapter a order tag =>
    obtain ⟨hdead, rfl⟩ := happen_newAdapter h
    rw [registry_newAdapter]
    have hnamed (n : String) : d.registry.named n ≠ some a := by
      intro hn
      rw [hs.names n a hn] at hdead
      cases hdead
    refine ⟨⟨hs.filed.clients, hs.filed.monitors⟩, hs.agrees.renew hnamed, fun hbound => ?_⟩
    have hle : d.registry.idseq ≤ (d.registry.renew a).idseq := Nat.le_refl _
    apply (hs.numbered hbound).mono hle
    rintro ⟨ref, b⟩ i hx
    cases ref <;> exact hx
  | act x =>
    have hreg := step_registry h
    rw [hreg]
    cases x with
    | msg caps sender now done =>
      simp only [registryAfter]
      cases hreq : d.handledAuth caps sender with
      | none => exact ⟨hs.filed, hs.agrees, hs.numbered⟩
      | some req =>
        refine ⟨hs.filed.authenticate,
          hs.agrees.authenticate (hkeep.2 req hreq) (hkeep.1 req hreq), fun hbound => ?_⟩
        exact (hs.numbered
          (Nat.lt_of_le_of_lt Registry.idseq_le_authenticate hbound)).authenticate hbound
    | erase sender now =>
      simp only [registryAfter]
      cases hitem : d.registry.deref sender with
      | none =>
        rw [Registry.leave_of_none hitem]
        exact ⟨hs.filed, hs.agrees, hs.numbered⟩
      | some item =>
        rw [Registry.leave_of_some hitem]
        exact ⟨hs.filed.erase, hs.agrees.erase hs.filed hitem (hkeep item hitem),
          fun hbound => (hs.numbered hbound).erase⟩
    | expire tp => exact ⟨hs.filed, hs.agrees, hs.numbered⟩
    | close a => exact ⟨hs.filed, hs.agrees, hs.numbered⟩
    | destroy a => exact ⟨hs.filed, hs.agrees, hs.numbered⟩

theorem keepsMaps_of_agrees {x : MemoryEvent} (hs : Settled d) (h : happen e d x = some d')
    (hafter : d'.registry.Agrees) : KeepsMaps e d x := by
  cases x with
  | newAdapter a order tag => trivial
  | act x =>
    rw [step_registry h] at hafter
    cases x with
    | msg caps sender now done =>
      simp only [registryAfter] at hafter
      constructor
      · intro req hreq
        rw [hreq] at hafter
        exact hs.agrees.not_reregisters hafter
      · intro req hreq
        rw [hreq] at hafter
        exact hs.agrees.not_meetsMonitor hafter
    | erase sender now =>
      intro item hitem
      simp only [registryAfter, Registry.leave_of_some hitem] at hafter
      exact hs.agrees.not_stealsName hafter
    | expire tp => trivial
    | close a => trivial
    | destroy a => trivial

/-- Along a run, in which addresses may be taken again, the registry stays consistent exactly when
every event keeps it so. -/
theorem registryConsistent_run_iff {d₀ : Dispatcher} {as : List MemoryEvent} (h₀ : Initial d₀)
    (hrun : execute (happen e) d₀ as = some d) :
    (∀ bs d', bs <+: as → execute (happen e) d₀ bs = some d' → RegistryConsistent d') ↔
      ((lifetimes e).guard (KeepsMaps e)).Run d₀ as d := by
  apply execute_guard_iff (I := Settled)
  · exact fun s hs => registryConsistent_of_settled hs
  · exact fun s t x _ hs hst hkeep => settled_happen hs hst hkeep
  · exact fun s t x _ hs hst hafter => keepsMaps_of_agrees hs hst hafter.agrees
  · exact settled_initial h₀
  · exact hrun

/-- A client joins and leaves, and another one gets its address. -/
def sampleTakesOver : List MemoryEvent :=
  [.act (sampleAuth 0 "a" 0), .act (.erase 0 0), .act (.destroy 0), .newAdapter 0 .host 0,
    .act (sampleAuth 0 "b" 0)]

theorem registryConsistent_run_takes_over :
    (execute (happen sampleEnv) {} sampleTakesOver).isSome = true ∧
    ∀ bs d', bs <+: sampleTakesOver →
      execute (happen sampleEnv) {} bs = some d' → RegistryConsistent d' := by
  refine ⟨rfl, (registryConsistent_run_iff initial_default rfl).mpr ?_⟩
  refine .cons ⟨⟨?_, ?_⟩, rfl⟩ (.cons ⟨?_, rfl⟩ (.cons ⟨trivial, rfl⟩ (.cons ⟨trivial, rfl⟩
    (.cons ⟨⟨?_, ?_⟩, rfl⟩ (.nil _)))))
  · rintro req - ⟨hkey, -⟩
    exact hkey rfl
  · rintro req - ⟨hkey, -⟩
    exact hkey rfl
  · rintro item hitem ⟨hflag, -⟩
    cases hitem
    cases hflag
  · rintro req - ⟨hkey, -⟩
    exact hkey rfl
  · rintro req - ⟨hkey, -⟩
    exact hkey rfl

/-- A client that authenticates as `a` and then as `b` owns both names and has one record. -/
theorem registryConsistent_fails_renamed :
    ¬ ∀ (e : Env) (d : Dispatcher), (lifetimes e).Reachable d → RegistryConsistent d := by
  intro h
  have hrun : execute (happen sampleEnv) {} [.act (sampleAuth 0 "a" 0), .act (sampleAuth 0 "b" 0)] =
    some _ := rfl
  have hcons := h sampleEnv _ (execute_reachable initial_default hrun)
  obtain ⟨-, -, info, hinfo, hname⟩ := hcons.named "b" 0 rfl
  cases hinfo
  exact absurd hname (by decide)

/-- The entry of a monitor that is freed before it is erased, and a client at its address. -/
example : ∃ d, execute (happen sampleEnv) {} [.act (sampleAuth 0 "m" 1), .act (.destroy 0),
    .newAdapter 0 .host 0, .act (sampleAuth 0 "x" 0)] = some d ∧
    d.adapterInfos.lookup 0 ≠ none ∧ d.monitors.lookup 0 ≠ none :=
  ⟨_, rfl, by decide, by decide⟩

/-- Calls to `n` reach `a`, and nobody can authenticate as `n`. -/
structure Owns (e : Env) (d : Dispatcher) (a : AdapterId) (n : String) : Prop where
  named : d.namedAdapters.lookup n = some a
  reached : ∃ info, d.deref a = some info ∧ ∀ method, findMethod n method d =
    some (if info.hasMethod method then some a else none)
  refused : ∀ b req, req.extra = n → hasMonitorFlag req.flags = false →
    (authenticate e req b d).2 ≠ cliSuccess

/-- The step registers `a` as the client `n`. -/
def Registers (e : Env) (d : Dispatcher) (a : AdapterId) (n : String) (act : Action) : Prop :=
  ∃ caps now done req, act = .msg caps a now done ∧ d.handledAuth caps a = some req ∧
    req.extra = n ∧ hasMonitorFlag req.flags = false ∧ (authenticate e req a d).2 = cliSuccess

/-- The event does not erase an adapter whose record carries the name `n`. -/
def SparesName (n : String) (d : Dispatcher) (x : MemoryEvent) : Prop :=
  ∀ b now info, x = .act (.erase b now) → d.deref b = some info → info.name ≠ n

/-- The address of `a`, which has no record, is a key of `adapter_infos`: the entry has outlived
its adapter. -/
def StaleKey (d : Dispatcher) (a : AdapterId) : Prop :=
  d.adapterInfos.lookup a ≠ none ∧ (d.adapters a).info = none

theorem owns_of_holds (hn : n ≠ "") (h : d.registry.Holds a n) : Owns e d a n := by
  have hnamed : d.namedAdapters.lookup n = some a := h.named
  refine ⟨hnamed, ?_, ?_⟩
  · cases hderef : d.deref a with
    | none => exact absurd (by rw [registry_deref, hderef]; rfl) h.record
    | some info =>
      refine ⟨info, rfl, fun method => ?_⟩
      rw [findMethod, hnamed]
      simp only [hderef, Option.map_some]
  · rintro b req rfl hflag
    exact authenticate_refused hn hflag (by rw [hnamed]; nofun)

theorem registry_registers {act : Action} (hreg : Registers e d a n act)
    (h : step e d act = some d') : isMonitor a d = some false ∧
      ∃ flags pid, d'.registry = d.registry.enrolClient n flags pid a := by
  obtain ⟨caps, now, done, req, rfl, hreq, rfl, hflag, hres⟩ := hreg
  refine ⟨isMonitor_of_handledAuth hreq, req.flags, req.pid, ?_⟩
  have hafter := step_registry h
  simp only [registryAfter, hreq, Registry.handle] at hafter
  have hver : ¬ req.version < 3 := by
    intro hver
    rw [authenticate, if_pos hver] at hres
    exact (by decide : cliEauth ≠ cliSuccess) hres
  have htaken : ¬ (req.extra ≠ "" ∧ d.registry.named req.extra ≠ none) := by
    rintro ⟨hne, hnamed⟩
    exact authenticate_refused hne hflag hnamed hres
  rw [Registry.authenticate, if_neg hver, hflag, if_neg Bool.false_ne_true, if_neg htaken] at hafter
  exact hafter

theorem holds_of_registers {act : Action} (hfresh : ¬ StaleKey d a) (hn : n ≠ "")
    (hreg : Registers e d a n act) (h : step e d act = some d') : d'.registry.Holds a n := by
  obtain ⟨hgate, flags, pid, hafter⟩ := registry_registers hreg h
  rw [hafter]
  refine ⟨by simp [Registry.enrolClient, hn], ?_⟩
  cases hkey : d.registry.clients a with
  | none => simp [Registry.deref, Registry.enrolClient, hkey]
  | some i =>
    apply Registry.deref_enrolClient
    -- the sender has passed the gate with a record, which was therefore readable
    have hinfo : (d.adapters a).info ≠ none := by
      intro hinfo
      refine hfresh ⟨?_, hinfo⟩
      intro hnone
      simp only [registry, hnone, Option.map_none] at hkey
      cases hkey
    rw [isMonitor, if_neg hinfo] at hgate
    obtain ⟨info, hderef, -⟩ := Option.map_eq_some_iff.mp hgate
    rw [registry_deref, hderef]
    exact Option.some_ne_none _

/-- `add_adapter` does not set `info` when the address is a key already. -/
theorem deref_of_stale {act : Action} (hstale : StaleKey d a) (hreg : Registers e d a n act)
    (h : step e d act = some d') : d'.deref a = none := by
  obtain ⟨-, flags, pid, hafter⟩ := registry_registers hreg h
  obtain ⟨info, hinfo⟩ := Option.ne_none_iff_exists'.mp hstale.1
  have hkey : d.registry.clients a = some info.item := by
    simp only [registry, hinfo, Option.map_some]
  have hnone : d'.registry.info a = none := by
    rw [hafter]
    simp only [Registry.enrolClient, hkey]
    exact hstale.2
  have hnone : (d'.adapters a).info = none := hnone
  simp only [deref, hnone]

theorem holds_happen {x : MemoryEvent} (hnames : NamesAlive d) (hh : d.registry.Holds a n)
    (h : happen e d x = some d') (hstay : ∀ now, x ≠ .act (.erase a now))
    (hspare : SparesName n d x) : d'.registry.Holds a n := by
  cases x with
  | newAdapter b order tag =>
    obtain ⟨hdead, rfl⟩ := happen_newAdapter h
    rw [registry_newAdapter]
    apply hh.renew
    rintro rfl
    rw [hnames n a hh.named] at hdead
    cases hdead
  | act x =>
    rw [step_registry h]
    cases x with
    | msg caps sender now done =>
      simp only [registryAfter, Registry.handle]
      split
      · exact hh
      · exact hh.authenticate
    | erase sender now =>
      simp only [registryAfter]
      cases hitem : d.registry.deref sender with
      | none =>
        rw [Registry.leave_of_none hitem]
        exact hh
      | some item =>
        rw [Registry.leave_of_some hitem]
        rw [registry_deref] at hitem
        obtain ⟨info, hderef, rfl⟩ := Option.map_eq_some_iff.mp hitem
        have hne : a ≠ sender := by
          rintro rfl
          exact hstay now rfl
        exact hh.erase hne (hspare sender now info rfl hderef)
    | expire tp => exact hh
    | close b => exact hh
    | destroy b => exact hh

theorem sparesName_of_named {x : MemoryEvent} (hn : n ≠ "") (h : happen e d x = some d')
    (hafter : d'.namedAdapters.lookup n = some a) : SparesName n d x := by
  rintro b now info rfl hderef
  have hitem : d.registry.deref b = some info.item := by
    rw [registry_deref, hderef]
    rfl
  have h : step e d (.erase b now) = some d' := h
  have hnamed : d'.registry.named n = some a := hafter
  rw [step_registry h, registryAfter, Registry.leave_of_some hitem] at hnamed
  exact Registry.name_of_erase hn hnamed

theorem namesAlive_reachable (h : (lifetimes e).Reachable d) : NamesAlive d := by
  apply h.invariant (P := NamesAlive)
  · rintro s ⟨adapters, rfl, -⟩ n b hb
    cases hb
  · exact fun s x t hs hst => namesAlive_happen hs hst

/-- From its registration to its own erase command, in a run in which addresses may be taken again,
a client owns its name exactly as long as no other adapter whose record carries that name is
erased, provided that it did not get the address of an entry that has outlived its adapter. -/
theorem owns_until_erased_iff {d₁ d₂ : Dispatcher} {act : Action} {as : List MemoryEvent}
    (h₁ : (lifetimes e).Reachable d₁) (hn : n ≠ "") (hreg : Registers e d₁ a n act)
    (h₂ : step e d₁ act = some d₂) (hrun : execute (happen e) d₂ as = some d)
    (hstay : ∀ now, .act (.erase a now) ∉ as) :
    (∀ bs d', bs <+: as → execute (happen e) d₂ bs = some d' → Owns e d' a n) ↔
      ¬ StaleKey d₁ a ∧ ((lifetimes e).guard (SparesName n)).Run d₂ as d := by
  by_cases hstale : StaleKey d₁ a
  · refine iff_of_false (fun hall => ?_) fun hboth => hboth.1 hstale
    obtain ⟨info, hderef, -⟩ := (hall [] d₂ List.nil_prefix rfl).reached
    rw [deref_of_stale hstale hreg h₂] at hderef
    cases hderef
  · rw [and_iff_right hstale]
    apply execute_guard_iff (I := fun d => d.registry.Holds a n ∧ NamesAlive d)
    · exact fun s hs => owns_of_holds hn hs.1
    · intro s t x hx hs hst hspare
      refine ⟨holds_happen hs.2 hs.1 hst (fun now hxa => ?_) hspare, namesAlive_happen hs.2 hst⟩
      exact hstay now (hxa ▸ hx)
    · exact fun s t x _ _ hst howns => sparesName_of_named hn hst howns.named
    · exact ⟨holds_of_registers hstale hn hreg h₂, namesAlive_step (namesAlive_reachable h₁) h₂⟩
    · exact hrun

/-- A monitor joins, leaves and is freed, and another one gets its address. -/
def samplePasses : List MemoryEvent :=
  [.act (sampleAuth 1 "y" 1), .act (.erase 1 0), .act (.destroy 1), .newAdapter 1 .host 0,
    .act (sampleAuth 1 "z" 1)]

theorem owns_until_erased_beside_monitor :
    Registers sampleEnv {} 0 "x" (sampleAuth 0 "x" 0) ∧ ∀ bs d', bs <+: samplePasses →
      execute (happen sampleEnv) ((step sampleEnv {} (sampleAuth 0 "x" 0)).getD {}) bs = some d' →
        Owns sampleEnv d' 0 "x" := by
  have hreg : Registers sampleEnv {} 0 "x" (sampleAuth 0 "x" 0) :=
    ⟨_, _, _, _, rfl, rfl, rfl, rfl, rfl⟩
  refine ⟨hreg, (owns_until_erased_iff (.start initial_default) (by decide) hreg rfl rfl ?_).mpr ?_⟩
  · intro now hmem
    simp [samplePasses, sampleAuth] at hmem
  refine ⟨fun hstale => hstale.1 rfl, .cons ⟨?_, rfl⟩ (.cons ⟨?_, rfl⟩ (.cons ⟨?_, rfl⟩
    (.cons ⟨?_, rfl⟩ (.cons ⟨?_, rfl⟩ (.nil _)))))⟩
  · rintro b now info hact
    cases hact
  · rintro b now info hact hinfo
    cases hact
    cases hinfo
    decide
  all_goals
    rintro b now info hact
    cases hact

/-- The auth messages of `a` among the actions of a run. -/
def authsOf (a : AdapterId) (as : List Action) : List Action :=
  as.filter fun
    | .msg caps sender _ _ => sender == a && caps.readWord.any fun (cmd, _) => cmd == cmdAuthReq
    | _ => false

/-- Each adapter authenticates at most once. -/
def AuthOnce (as : List Action) : Prop := ∀ a, (authsOf a as).length ≤ 1

/-- A monitor that carries a client's name takes the name with it when it leaves. -/
theorem owns_until_erased_fails_monitor :
    ¬ ∀ (e : Env) (a : AdapterId) (n : String) (act : Action) (as bs : List Action)
      (d₀ d₁ d₂ d : Dispatcher), Initial d₀ → AuthOnce (bs ++ act :: as) →
      execute (step e) d₀ bs = some d₁ → n ≠ "" → Registers e d₁ a n act →
      step e d₁ act = some d₂ → execute (step e) d₂ as = some d → (∀ now, .erase a now ∉ as) →
      Owns e d a n := by
  intro h
  have hrun : execute (step sampleEnv) ((step sampleEnv {} (sampleAuth 0 "x" 0)).getD {})
      [sampleAuth 1 "x" 1, .erase 1 0] = some _ := rfl
  have honce : AuthOnce [sampleAuth 0 "x" 0, sampleAuth 1 "x" 1, .erase 1 0] := by
    intro a
    by_cases h₀ : a = 0
    · subst h₀
      decide
    · by_cases h₁ : a = 1
      · subst h₁
        decide
      · simp [authsOf, sampleAuth, Ne.symm h₀, Ne.symm h₁]
  have hstay : ∀ now, .erase 0 now ∉ [sampleAuth 1 "x" 1, .erase 1 0] := by
    intro now hmem
    simp [sampleAuth] at hmem
  have howns := h sampleEnv 0 "x" (sampleAuth 0 "x" 0) [sampleAuth 1 "x" 1, .erase 1 0] [] {} {} _ _
    initial_default honce rfl (by decide) ⟨_, _, _, _, rfl, rfl, rfl, rfl, rfl⟩ rfl hrun hstay
  exact absurd howns.named (by decide)

end Dispatcher

end Flora
