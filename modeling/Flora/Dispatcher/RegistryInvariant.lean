import Flora.Dispatcher.Registry

/-! # Consistency of the registry

`named_adapters`, `adapter_infos`, `monitors` and the back pointers agree as long as no client that
already has a record registers a second time and no monitor that leaves carries the name of a
client: erasing is keyed by name, and a monitor's name is not entered in `named_adapters`. -/

namespace Flora

open TransitionSystem

namespace Registry

/-- The two record maps as one, so that a pair of entries is a pair of arguments. -/
def record (r : Registry) : InfoRef × AdapterId → Option MonitorListItem
  | (.client, a) => r.clients a
  | (.monitor, a) => r.monitors a

/-- Records lie in the map that their flags select. -/
structure Filed (r : Registry) : Prop where
  clients : ∀ a i, r.clients a = some i → hasMonitorFlag i.flags = false
  monitors : ∀ a i, r.monitors a = some i → hasMonitorFlag i.flags = true

/-- In addition every monitor record is the one its adapter points to. -/
structure Sorted (r : Registry) : Prop extends Filed r where
  info : ∀ a, r.monitors a ≠ none → r.info a = some .monitor

/-- What the three maps and the back pointers owe each other. -/
structure Agrees (r : Registry) : Prop where
  named : ∀ n a, r.named n = some a →
    n ≠ "" ∧ r.info a = some .client ∧ ∃ i, r.clients a = some i ∧ i.name = n
  clients : ∀ a i, r.clients a = some i → i.name ≠ "" → r.named i.name = some a
  disjoint : ∀ a, r.clients a ≠ none → r.monitors a = none

/-- Every name is backed by a client record, and a client has no other record. -/
structure Backed (r : Registry) : Prop where
  named : ∀ n a, r.named n = some a → n ≠ "" ∧ ∃ i, r.clients a = some i ∧ i.name = n
  info : ∀ a, r.clients a ≠ none → r.info a = some .client
  disjoint : ∀ a, r.clients a ≠ none → r.monitors a = none

/-- In addition every client record with a name owns it. -/
structure Consistent (r : Registry) : Prop extends Backed r where
  clients : ∀ a i, r.clients a = some i → i.name ≠ "" → r.named i.name = some a

/-- Ids are handed out in order, so none exceeds the counter and no two are equal. -/
structure Numbered (r : Registry) : Prop where
  le : ∀ x i, r.record x = some i → i.id.toNat ≤ r.idseq
  inj : ∀ x y i j, r.record x = some i → r.record y = some j → i.id = j.id → x = y

/-- The gate of `handle_cmd`: the sender has no record that is a monitor's. -/
def Admitted (r : Registry) (a : AdapterId) : Prop :=
  ∀ i, r.deref a = some i → hasMonitorFlag i.flags = false

/-- A client that has a record registers again, under another name or as a monitor. -/
def Reregisters (r : Registry) (service : Word) (req : AuthReq) (a : AdapterId) : Prop :=
  r.clients a ≠ none ∧ ¬ req.version < 3 ∧
    if hasMonitorFlag req.flags then hasMonitorFlag service = true
    else req.extra ≠ "" ∧ r.named req.extra = none

/-- A client registers at an address that is still a key of `monitors`. -/
def MeetsMonitor (r : Registry) (req : AuthReq) (a : AdapterId) : Prop :=
  r.monitors a ≠ none ∧ ¬ req.version < 3 ∧ hasMonitorFlag req.flags = false ∧
    (req.extra = "" ∨ r.named req.extra = none)

/-- The record of a leaving monitor carries a name that some client is registered under. -/
def StealsName (r : Registry) (item : MonitorListItem) : Prop :=
  hasMonitorFlag item.flags = true ∧ item.name ≠ "" ∧ r.named item.name ≠ none

variable {r : Registry} {a : AdapterId} {item : MonitorListItem}

theorem Sorted.monitors_none (h : r.Sorted) (hgate : r.Admitted a) : r.monitors a = none := by
  cases hm : r.monitors a with
  | none => rfl
  | some i =>
    have hinfo := h.info a (by rw [hm]; nofun)
    have hderef : r.deref a = some i := by rw [deref, hinfo]; exact hm
    have hflag := hgate i hderef
    rw [h.monitors a i hm] at hflag
    cases hflag

theorem Filed.deref_client (h : r.Filed) (hitem : r.deref a = some item)
    (hflag : hasMonitorFlag item.flags = false) : r.info a = some .client ∧
      r.clients a = some item := by
  unfold deref at hitem
  split at hitem
  · cases hitem
  · exact ⟨‹_›, hitem⟩
  · rw [h.monitors a item hitem] at hflag
    cases hflag

theorem Filed.deref_monitor (h : r.Filed) (hitem : r.deref a = some item)
    (hflag : hasMonitorFlag item.flags = true) : r.info a = some .monitor ∧
      r.monitors a = some item := by
  unfold deref at hitem
  split at hitem
  · cases hitem
  · rw [h.clients a item hitem] at hflag
    cases hflag
  · exact ⟨‹_›, hitem⟩

theorem Filed.enrolClient (h : r.Filed) {name : String} {flags pid : Word}
    (hflags : hasMonitorFlag flags = false) : (r.enrolClient name flags pid a).Filed := by
  refine ⟨?_, h.monitors⟩
  cases hkey : r.clients a with
  | some i =>
    simp only [Registry.enrolClient, hkey]
    exact h.clients
  | none =>
    simp only [Registry.enrolClient, hkey]
    intro b i hb
    by_cases hba : b = a
    · subst hba
      rw [Function.update_self] at hb
      cases hb
      exact hflags
    · rw [Function.update_of_ne hba] at hb
      exact h.clients b i hb

theorem Filed.enrolMonitor (h : r.Filed) {name : String} {flags : Word}
    (hflags : hasMonitorFlag flags = true) : (r.enrolMonitor name flags a).Filed := by
  refine ⟨h.clients, ?_⟩
  cases hkey : r.monitors a with
  | some i =>
    simp only [Registry.enrolMonitor, hkey]
    exact h.monitors
  | none =>
    simp only [Registry.enrolMonitor, hkey]
    intro b i hb
    by_cases hba : b = a
    · subst hba
      rw [Function.update_self] at hb
      cases hb
      exact hflags
    · rw [Function.update_of_ne hba] at hb
      exact h.monitors b i hb

theorem Filed.authenticate (h : r.Filed) {service : Word} {req : AuthReq} :
    (r.authenticate service req a).Filed := by
  unfold Registry.authenticate
  split
  · exact h
  · split
    · rename_i hflag
      split
      · exact h.enrolMonitor hflag
      · exact h
    · rename_i hflag
      split
      · exact h
      · exact h.enrolClient (Bool.eq_false_iff.mpr hflag)

theorem Filed.erase (h : r.Filed) : (r.erase a item).Filed := by
  have drop {p : MonitorListItem → Prop} (f : AdapterId → Option MonitorListItem)
      (hf : ∀ b i, f b = some i → p i) (b : AdapterId) (i : MonitorListItem)
      (hb : Function.update f a none b = some i) : p i := by
    by_cases hba : b = a
    · subst hba
      rw [Function.update_self] at hb
      cases hb
    · rw [Function.update_of_ne hba] at hb
      exact hf b i hb
  constructor <;> simp only [Registry.erase] <;> split
  · exact h.clients
  · exact drop (p := fun i => hasMonitorFlag i.flags = false) _ h.clients
  · exact drop (p := fun i => hasMonitorFlag i.flags = true) _ h.monitors
  · exact h.monitors

theorem Sorted.enrolClient (h : r.Sorted) {name : String} {flags pid : Word}
    (hflags : hasMonitorFlag flags = false) (hm : r.monitors a = none) :
    (r.enrolClient name flags pid a).Sorted := by
  refine ⟨h.toFiled.enrolClient hflags, ?_⟩
  cases hkey : r.clients a with
  | some i =>
    simp only [Registry.enrolClient, hkey]
    exact h.info
  | none =>
    simp only [Registry.enrolClient, hkey]
    intro b hb
    have hba : b ≠ a := fun hba => hb (hba ▸ hm)
    rw [Function.update_of_ne hba]
    exact h.info b hb

theorem Sorted.enrolMonitor (h : r.Sorted) {name : String} {flags : Word}
    (hflags : hasMonitorFlag flags = true) : (r.enrolMonitor name flags a).Sorted := by
  refine ⟨h.toFiled.enrolMonitor hflags, ?_⟩
  cases hkey : r.monitors a with
  | some i =>
    simp only [Registry.enrolMonitor, hkey]
    exact h.info
  | none =>
    simp only [Registry.enrolMonitor, hkey]
    intro b hb
    by_cases hba : b = a
    · subst hba
      rw [Function.update_self]
    · rw [Function.update_of_ne hba] at hb ⊢
      exact h.info b hb

theorem Sorted.authenticate (h : r.Sorted) {service : Word} {req : AuthReq}
    (hgate : r.Admitted a) : (r.authenticate service req a).Sorted := by
  unfold Registry.authenticate
  split
  · exact h
  · split
    · rename_i hflag
      split
      · exact h.enrolMonitor hflag
      · exact h
    · rename_i hflag
      split
      · exact h
      · exact h.enrolClient (Bool.eq_false_iff.mpr hflag) (h.monitors_none hgate)

theorem Sorted.erase (h : r.Sorted) : (r.erase a item).Sorted := by
  refine ⟨h.toFiled.erase, ?_⟩
  intro b hb
  simp only [Registry.erase] at hb
  split at hb
  · by_cases hba : b = a
    · subst hba
      rw [Function.update_self] at hb
      exact absurd rfl hb
    · rw [Function.update_of_ne hba] at hb
      exact h.info b hb
  · exact h.info b hb

theorem enrolClient_clients {name : String} {flags pid : Word} (hkey : r.clients a = none) :
    (r.enrolClient name flags pid a).clients = Function.update r.clients a
      (some ⟨BitVec.ofNat 32 (r.idseq + 1), pid, name, flags⟩) := by
  simp only [Registry.enrolClient, hkey]

theorem enrolClient_info {name : String} {flags pid : Word} (hkey : r.clients a = none) :
    (r.enrolClient name flags pid a).info = Function.update r.info a (some .client) := by
  simp only [Registry.enrolClient, hkey]

theorem enrolClient_named {name : String} {flags pid : Word} :
    (r.enrolClient name flags pid a).named =
      if name = "" then r.named else Function.update r.named name (some a) := rfl

theorem Backed.enrolClient (h : r.Backed) {name : String} {flags pid : Word}
    (hkey : r.clients a = none) (hm : r.monitors a = none) :
    (r.enrolClient name flags pid a).Backed := by
  have other (n : String) (b : AdapterId) (hb : r.named n = some b) : n ≠ "" ∧
      ∃ i, (r.enrolClient name flags pid a).clients b = some i ∧ i.name = n := by
    obtain ⟨hne, i, hi, hname⟩ := h.named n b hb
    have hba : b ≠ a := by
      rintro rfl
      rw [hkey] at hi
      cases hi
    exact ⟨hne, i, by rw [enrolClient_clients hkey, Function.update_of_ne hba]; exact hi, hname⟩
  refine ⟨?_, ?_, ?_⟩
  · intro n b hb
    rw [enrolClient_named] at hb
    split at hb
    · exact other n b hb
    · rename_i hne
      by_cases hn : n = name
      · subst hn
        rw [Function.update_self] at hb
        cases hb
        exact ⟨hne, _, by rw [enrolClient_clients hkey, Function.update_self], rfl⟩
      · rw [Function.update_of_ne hn] at hb
        exact other n b hb
  · intro b hb
    rw [enrolClient_info hkey]
    by_cases hba : b = a
    · subst hba
      rw [Function.update_self]
    · rw [enrolClient_clients hkey, Function.update_of_ne hba] at hb
      rw [Function.update_of_ne hba]
      exact h.info b hb
  · intro b hb
    change r.monitors b = none
    by_cases hba : b = a
    · rw [hba]
      exact hm
    · rw [enrolClient_clients hkey, Function.update_of_ne hba] at hb
      exact h.disjoint b hb

theorem Agrees.enrolClient (h : r.Agrees) {name : String} {flags pid : Word}
    (hkey : r.clients a = none) (hm : r.monitors a = none)
    (hfree : name = "" ∨ r.named name = none) : (r.enrolClient name flags pid a).Agrees where
  named n b hb := by
    rw [enrolClient_named] at hb
    rw [enrolClient_info hkey, enrolClient_clients hkey]
    have other (hold : r.named n = some b) : n ≠ "" ∧
        Function.update r.info a (some .client) b = some .client ∧
        ∃ i, Function.update r.clients a (some ⟨BitVec.ofNat 32 (r.idseq + 1), pid, name, flags⟩) b =
          some i ∧ i.name = n := by
      obtain ⟨hne, hinfo, i, hi, hname⟩ := h.named n b hold
      have hba : b ≠ a := by
        rintro rfl
        rw [hkey] at hi
        cases hi
      rw [Function.update_of_ne hba, Function.update_of_ne hba]
      exact ⟨hne, hinfo, i, hi, hname⟩
    split at hb
    · exact other hb
    · rename_i hne
      by_cases hn : n = name
      · subst hn
        rw [Function.update_self] at hb
        cases hb
        rw [Function.update_self, Function.update_self]
        exact ⟨hne, rfl, _, rfl, rfl⟩
      · rw [Function.update_of_ne hn] at hb
        exact other hb
  clients b i hb hne := by
    rw [enrolClient_clients hkey] at hb
    rw [enrolClient_named]
    by_cases hba : b = a
    · subst hba
      rw [Function.update_self] at hb
      cases hb
      rw [if_neg hne, Function.update_self]
    · rw [Function.update_of_ne hba] at hb
      have hold := h.clients b i hb hne
      split
      · exact hold
      · rename_i hname
        have hin : i.name ≠ name := by
          intro heq
          rw [heq, hfree.resolve_left hname] at hold
          cases hold
        rw [Function.update_of_ne hin]
        exact hold
  disjoint b hb := by
    change r.monitors b = none
    by_cases hba : b = a
    · rw [hba]
      exact hm
    · rw [enrolClient_clients hkey, Function.update_of_ne hba] at hb
      exact h.disjoint b hb

theorem enrolClient_again {flags pid : Word} {i : MonitorListItem} (hkey : r.clients a = some i) :
    r.enrolClient "" flags pid a = { r with idseq := r.idseq + 1 } := by
  simp [Registry.enrolClient, hkey]

theorem Backed.enrolMonitor (h : r.Backed) {name : String} {flags : Word}
    (hkey : r.clients a = none) : (r.enrolMonitor name flags a).Backed := by
  cases hm : r.monitors a with
  | some i =>
    refine ⟨h.named, ?_, ?_⟩ <;> simp only [Registry.enrolMonitor, hm]
    · exact h.info
    · exact h.disjoint
  | none =>
    have hne (b : AdapterId) (hb : r.clients b ≠ none) : b ≠ a := by
      rintro rfl
      exact hb hkey
    refine ⟨h.named, ?_, ?_⟩ <;> simp only [Registry.enrolMonitor, hm]
    · intro b hb
      rw [Function.update_of_ne (hne b hb)]
      exact h.info b hb
    · intro b hb
      rw [Function.update_of_ne (hne b hb)]
      exact h.disjoint b hb

theorem Agrees.enrolMonitor (h : r.Agrees) {name : String} {flags : Word}
    (hkey : r.clients a = none) : (r.enrolMonitor name flags a).Agrees := by
  cases hm : r.monitors a with
  | some i =>
    refine ⟨?_, h.clients, ?_⟩ <;> simp only [Registry.enrolMonitor, hm]
    · exact h.named
    · exact h.disjoint
  | none =>
    refine ⟨?_, h.clients, ?_⟩ <;> simp only [Registry.enrolMonitor, hm]
    · intro n b hb
      obtain ⟨hne, hinfo, i, hi, hname⟩ := h.named n b hb
      have hba : b ≠ a := by
        rintro rfl
        rw [hkey] at hi
        cases hi
      rw [Function.update_of_ne hba]
      exact ⟨hne, hinfo, i, hi, hname⟩
    · intro b hb
      have hba : b ≠ a := by
        rintro rfl
        exact hb hkey
      rw [Function.update_of_ne hba]
      exact h.disjoint b hb

theorem authenticate_cases {service : Word} {req : AuthReq} (hmeet : ¬ r.MeetsMonitor req a)
    (hre : ¬ r.Reregisters service req a) :
    r.authenticate service req a = r ∨
    r.authenticate service req a = { r with idseq := r.idseq + 1 } ∨
    (r.clients a = none ∧
      r.authenticate service req a = r.enrolMonitor req.extra req.flags a) ∨
    (r.clients a = none ∧ r.monitors a = none ∧ (req.extra = "" ∨ r.named req.extra = none) ∧
      r.authenticate service req a = r.enrolClient req.extra req.flags req.pid a) := by
  unfold Registry.authenticate
  split
  · exact .inl rfl
  · rename_i hver
    split
    · rename_i hflag
      split
      · rename_i hsvc
        refine .inr (.inr (.inl ⟨?_, rfl⟩))
        apply not_not.mp
        intro hkey
        exact hre ⟨hkey, hver, by rw [if_pos hflag]; exact hsvc⟩
      · exact .inl rfl
    · rename_i hflag
      split
      · exact .inl rfl
      · rename_i hfree
        have hfree : req.extra = "" ∨ r.named req.extra = none := by
          by_cases hne : req.extra = ""
          · exact .inl hne
          · exact .inr (not_not.mp fun hnamed => hfree ⟨hne, hnamed⟩)
        cases hkey : r.clients a with
        | none =>
          refine .inr (.inr (.inr ⟨rfl, ?_, hfree, rfl⟩))
          apply not_not.mp
          intro hm
          exact hmeet ⟨hm, hver, Bool.eq_false_iff.mpr hflag, hfree⟩
        | some i =>
          have hempty : req.extra = "" := by
            apply not_not.mp
            intro hne
            exact hre ⟨by rw [hkey]; nofun, hver,
              by rw [if_neg hflag]; exact ⟨hne, hfree.resolve_left hne⟩⟩
          rw [hempty]
          exact .inr (.inl (enrolClient_again hkey))

theorem Sorted.not_meetsMonitor (h : r.Sorted) {req : AuthReq} (hgate : r.Admitted a) :
    ¬ r.MeetsMonitor req a :=
  fun hmeet => hmeet.1 (h.monitors_none hgate)

theorem Backed.authenticate (h : r.Backed) (hs : r.Sorted) {service : Word} {req : AuthReq}
    (hgate : r.Admitted a) (hre : ¬ r.Reregisters service req a) :
    (r.authenticate service req a).Backed := by
  rcases authenticate_cases (hs.not_meetsMonitor hgate) hre with
    heq | heq | ⟨hkey, heq⟩ | ⟨hkey, hm, -, heq⟩ <;>
    rw [heq]
  · exact h
  · exact ⟨h.named, h.info, h.disjoint⟩
  · exact h.enrolMonitor hkey
  · exact h.enrolClient hkey hm

theorem Agrees.authenticate (h : r.Agrees) {service : Word} {req : AuthReq}
    (hmeet : ¬ r.MeetsMonitor req a) (hre : ¬ r.Reregisters service req a) :
    (r.authenticate service req a).Agrees := by
  rcases authenticate_cases hmeet hre with heq | heq | ⟨hkey, heq⟩ | ⟨hkey, hm, hfree, heq⟩ <;>
    rw [heq]
  · exact h
  · exact ⟨h.named, h.clients, h.disjoint⟩
  · exact h.enrolMonitor hkey
  · exact h.enrolClient hkey hm hfree

theorem Consistent.agrees (h : r.Consistent) : r.Agrees where
  named n a hn := by
    obtain ⟨hne, i, hi, hname⟩ := h.named n a hn
    exact ⟨hne, h.info a (by rw [hi]; nofun), i, hi, hname⟩
  clients := h.clients
  disjoint := h.disjoint

theorem Consistent.authenticate (h : r.Consistent) (hs : r.Sorted) {service : Word} {req : AuthReq}
    (hgate : r.Admitted a) (hre : ¬ r.Reregisters service req a) :
    (r.authenticate service req a).Consistent :=
  ⟨h.toBacked.authenticate hs hgate hre,
    (h.agrees.authenticate (hs.not_meetsMonitor hgate) hre).clients⟩

theorem named_of_erase {n : String} {b : AdapterId} (h : (r.erase a item).named n = some b) :
    r.named n = some b ∧ (n = item.name → item.name = "") := by
  simp only [Registry.erase] at h
  split at h
  · rename_i hempty
    exact ⟨h, fun _ => hempty⟩
  · by_cases hn : n = item.name
    · rw [hn, Function.update_self] at h
      cases h
    · rw [Function.update_of_ne hn] at h
      exact ⟨h, fun heq => absurd heq hn⟩

theorem Backed.erase (h : r.Backed) (hs : r.Sorted) (hitem : r.deref a = some item) :
    (r.erase a item).Backed := by
  cases hflag : hasMonitorFlag item.flags with
  | true =>
    refine ⟨?_, ?_, ?_⟩
    · intro n b hb
      simp only [Registry.erase, hflag, if_true]
      exact h.named n b (named_of_erase hb).1
    · simpa only [Registry.erase, hflag, if_true] using h.info
    · simp only [Registry.erase, hflag, if_true]
      intro b hb
      by_cases hba : b = a
      · rw [hba, Function.update_self]
      · rw [Function.update_of_ne hba]
        exact h.disjoint b hb
  | false =>
    obtain ⟨-, hclient⟩ := hs.deref_client hitem hflag
    have hclients : (r.erase a item).clients = Function.update r.clients a none := by
      simp only [Registry.erase, hflag, Bool.false_eq_true, if_false]
    have hmonitors : (r.erase a item).monitors = r.monitors := by
      simp only [Registry.erase, hflag, Bool.false_eq_true, if_false]
    have hne (b : AdapterId) (hb : (r.erase a item).clients b ≠ none) : r.clients b ≠ none := by
      rw [hclients] at hb
      by_cases hba : b = a
      · rw [hba, Function.update_self] at hb
        exact absurd rfl hb
      · rwa [Function.update_of_ne hba] at hb
    refine ⟨?_, ?_, ?_⟩
    · intro n b hb
      obtain ⟨hold, hempty⟩ := named_of_erase hb
      obtain ⟨hnempty, i, hi, hname⟩ := h.named n b hold
      have hba : b ≠ a := by
        rintro rfl
        rw [hclient] at hi
        cases hi
        exact hnempty (hname ▸ hempty hname.symm)
      exact ⟨hnempty, i, by rw [hclients, Function.update_of_ne hba]; exact hi, hname⟩
    · exact fun b hb => h.info b (hne b hb)
    · intro b hb
      rw [hmonitors]
      exact h.disjoint b (hne b hb)

theorem clients_of_erase {b : AdapterId} {i : MonitorListItem}
    (h : (r.erase a item).clients b = some i) :
    r.clients b = some i ∧ (hasMonitorFlag item.flags = false → b ≠ a) := by
  simp only [Registry.erase] at h
  split at h
  · rename_i hflag
    refine ⟨h, fun hnot => ?_⟩
    rw [hflag] at hnot
    cases hnot
  · by_cases hba : b = a
    · rw [hba, Function.update_self] at h
      cases h
    · rw [Function.update_of_ne hba] at h
      exact ⟨h, fun _ => hba⟩

theorem Agrees.erase (h : r.Agrees) (hf : r.Filed) (hitem : r.deref a = some item)
    (hsteal : ¬ r.StealsName item) : (r.erase a item).Agrees where
  named n b hb := by
    obtain ⟨hold, hempty⟩ := named_of_erase hb
    obtain ⟨hne, hinfo, i, hi, hname⟩ := h.named n b hold
    refine ⟨hne, hinfo, i, ?_, hname⟩
    simp only [Registry.erase]
    split
    · exact hi
    · rename_i hflag
      have hba : b ≠ a := by
        rintro rfl
        obtain ⟨-, hclient⟩ := hf.deref_client hitem (Bool.eq_false_iff.mpr hflag)
        rw [hclient] at hi
        cases hi
        exact hne (hname ▸ hempty hname.symm)
      rw [Function.update_of_ne hba]
      exact hi
  clients b i hb hne := by
    obtain ⟨hi, hother⟩ := clients_of_erase hb
    have hold := h.clients b i hi hne
    simp only [Registry.erase]
    split
    · exact hold
    · rename_i hitemName
      have hin : i.name ≠ item.name := by
        intro heq
        rw [heq] at hold
        cases hflag : hasMonitorFlag item.flags with
        | true => exact hsteal ⟨hflag, hitemName, by rw [hold]; exact Option.some_ne_none _⟩
        | false =>
          obtain ⟨-, hclient⟩ := hf.deref_client hitem hflag
          rw [h.clients a item hclient hitemName] at hold
          cases hold
          exact hother hflag rfl
      rw [Function.update_of_ne hin]
      exact hold
  disjoint b hb := by
    obtain ⟨i, hi⟩ := Option.ne_none_iff_exists'.mp hb
    have hnone := h.disjoint b (by rw [(clients_of_erase hi).1]; exact Option.some_ne_none i)
    simp only [Registry.erase]
    split
    · by_cases hba : b = a
      · rw [hba, Function.update_self]
      · rw [Function.update_of_ne hba]
        exact hnone
    · exact hnone

theorem Consistent.erase (h : r.Consistent) (hs : r.Sorted) (hitem : r.deref a = some item)
    (hsteal : ¬ r.StealsName item) : (r.erase a item).Consistent :=
  ⟨h.toBacked.erase hs hitem, (h.agrees.erase hs.toFiled hitem hsteal).clients⟩

theorem Numbered.mono {r' : Registry} (h : r.Numbered) (hle : r.idseq ≤ r'.idseq)
    (hrec : ∀ x i, r'.record x = some i → r.record x = some i) : r'.Numbered where
  le x i hx := (h.le x i (hrec x i hx)).trans hle
  inj x y i j hx hy hid := h.inj x y i j (hrec x i hx) (hrec y j hy) hid

theorem Numbered.insert {r' : Registry} (h : r.Numbered) (hseq : r'.idseq = r.idseq + 1)
    (hbound : r'.idseq < 2 ^ 32) {z : InfoRef × AdapterId} {k : MonitorListItem}
    (hk : k.id = BitVec.ofNat 32 (r.idseq + 1))
    (hrec : ∀ x i, r'.record x = some i → (x = z ∧ i = k) ∨ r.record x = some i) :
    r'.Numbered := by
  have hkid : k.id.toNat = r.idseq + 1 := by
    rw [hk]
    exact Word.toNat_ofNat (hseq ▸ hbound)
  have fresh (x : InfoRef × AdapterId) (i : MonitorListItem) (hx : r.record x = some i) :
      i.id ≠ k.id := by
    intro heq
    have hle := h.le x i hx
    rw [heq, hkid] at hle
    omega
  constructor
  · intro x i hx
    obtain ⟨-, rfl⟩ | hx := hrec x i hx
    · omega
    · have hle := h.le x i hx
      omega
  · intro x y i j hx hy hid
    rcases hrec x i hx with ⟨rfl, rfl⟩ | hx <;> rcases hrec y j hy with ⟨rfl, rfl⟩ | hy
    · rfl
    · exact absurd hid.symm (fresh y j hy)
    · exact absurd hid (fresh x i hx)
    · exact h.inj x y i j hx hy hid

theorem Numbered.enrolClient (h : r.Numbered) {name : String} {flags pid : Word}
    (hbound : r.idseq + 1 < 2 ^ 32) : (r.enrolClient name flags pid a).Numbered := by
  cases hkey : r.clients a with
  | some i =>
    apply h.mono (Nat.le_succ _)
    rintro ⟨ref, b⟩ i hx
    cases ref <;> simpa only [record, Registry.enrolClient, hkey] using hx
  | none =>
    apply h.insert rfl hbound (z := (.client, a))
      (k := ⟨BitVec.ofNat 32 (r.idseq + 1), pid, name, flags⟩) rfl
    rintro ⟨ref, b⟩ i hx
    cases ref with
    | client =>
      simp only [record, Registry.enrolClient, hkey] at hx
      by_cases hba : b = a
      · subst hba
        rw [Function.update_self] at hx
        cases hx
        exact .inl ⟨rfl, rfl⟩
      · rw [Function.update_of_ne hba] at hx
        exact .inr hx
    | monitor => exact .inr hx

theorem Numbered.enrolMonitor (h : r.Numbered) {name : String} {flags : Word}
    (hbound : r.idseq + 1 < 2 ^ 32) : (r.enrolMonitor name flags a).Numbered := by
  cases hkey : r.monitors a with
  | some i =>
    apply h.mono (Nat.le_succ _)
    rintro ⟨ref, b⟩ i hx
    cases ref <;> simpa only [record, Registry.enrolMonitor, hkey] using hx
  | none =>
    apply h.insert rfl hbound (z := (.monitor, a))
      (k := ⟨BitVec.ofNat 32 (r.idseq + 1), 0, name, flags⟩) rfl
    rintro ⟨ref, b⟩ i hx
    cases ref with
    | client => exact .inr hx
    | monitor =>
      simp only [record, Registry.enrolMonitor, hkey] at hx
      by_cases hba : b = a
      · subst hba
        rw [Function.update_self] at hx
        cases hx
        exact .inl ⟨rfl, rfl⟩
      · rw [Function.update_of_ne hba] at hx
        exact .inr hx

theorem Numbered.erase (h : r.Numbered) : (r.erase a item).Numbered := by
  have hle : r.idseq ≤ (r.erase a item).idseq := Nat.le_refl _
  apply h.mono hle
  have drop (f : AdapterId → Option MonitorListItem) (b : AdapterId) (i : MonitorListItem)
      (hb : Function.update f a none b = some i) : f b = some i := by
    by_cases hba : b = a
    · rw [hba, Function.update_self] at hb
      cases hb
    · rwa [Function.update_of_ne hba] at hb
  rintro ⟨ref, b⟩ i hx
  cases ref with
  | client =>
    simp only [record, Registry.erase] at hx ⊢
    split at hx
    · exact hx
    · exact drop _ b i hx
  | monitor =>
    simp only [record, Registry.erase] at hx ⊢
    split at hx
    · exact drop _ b i hx
    · exact hx

theorem idseq_le_authenticate {service : Word} {req : AuthReq} :
    r.idseq ≤ (r.authenticate service req a).idseq := by
  unfold Registry.authenticate
  split
  · exact Nat.le_refl _
  · split
    · split
      · exact Nat.le_succ _
      · exact Nat.le_refl _
    · split
      · exact Nat.le_refl _
      · exact Nat.le_succ _

theorem Numbered.authenticate (h : r.Numbered) {service : Word} {req : AuthReq}
    (hbound : (r.authenticate service req a).idseq < 2 ^ 32) :
    (r.authenticate service req a).Numbered := by
  revert hbound
  unfold Registry.authenticate
  split
  · exact fun _ => h
  · split
    · split
      · exact fun hbound => h.enrolMonitor hbound
      · exact fun _ => h
    · split
      · exact fun _ => h
      · exact fun hbound => h.enrolClient hbound

end Registry

end Flora
