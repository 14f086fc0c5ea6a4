import Flora.SerHelper

/-! # The grammar of monitor lists

A list of all adapters is a count and then that many containers, one for each adapter. The parser does
not count: it reads containers as long as there are any and compares at the end, and it does not look
at what follows a count of zero. -/

namespace Flora

open ResponseSerializer ResponseParser

/-- The container starts with the fields of the item. -/
def ListsItem (member : CapsValue) (item : MonitorListItem) : Prop :=
  ∃ more, member = .obj (some (serializeMonitorListItem item ++ more))

/-- A number of items, and no further container. -/
def ListsItems (caps : Caps) (infos : List MonitorListItem) : Prop :=
  ∃ members rest, List.Forall₂ ListsItem members infos ∧ caps = members ++ rest ∧
    rest.readCaps = none

/-- A count, that many items, and no further container. -/
def ListsAll (caps : Caps) (infos : List MonitorListItem) : Prop :=
  ∃ size rest, caps = .i32 size :: rest ∧ ListsItems rest infos ∧ infos.length = size.toNat

/-- A null container comes right after a number of items. -/
def ReachesNull (caps : Caps) : Prop :=
  ∃ members infos rest, List.Forall₂ ListsItem members infos ∧ caps = members ++ .obj none :: rest

namespace ResponseParser

variable {caps sub rest : Caps} {infos : List MonitorListItem} {reserve : Nat → Bool}

/-- `parse_monitor_list_all` with the call of `infos.reserve(size)` in front of the loop: `none` if
that throws. `reserve` tells for which sizes it does not. -/
def parseMonitorListAllReserving (reserve : Nat → Bool) (caps : Caps) :
    Option (Except ParseError (List MonitorListItem)) :=
  match caps.readWord with
  | none => some (parseMonitorListAll caps)
  | some (size, _) =>
    if size = 0 ∨ reserve size.toNat = true then some (parseMonitorListAll caps) else none

/-- Where there is memory this is the parser of `Client::handle_monitor_list_all`. -/
theorem parseMonitorListAllReserving_eq (h : ∀ n, reserve n = true) (caps : Caps) :
    parseMonitorListAllReserving reserve caps = some (parseMonitorListAll caps) := by
  unfold parseMonitorListAllReserving
  split
  · rfl
  · exact if_pos (.inr (h _))

theorem parseMonitorListFields_eq_some_iff {item : MonitorListItem} :
    parseMonitorListFields sub = some item ↔ ∃ more, sub = serializeMonitorListItem item ++ more := by
  constructor
  · intro h
    obtain ⟨⟨id, sub₁⟩, hid, h⟩ := Option.bind_eq_some_iff.mp h
    obtain ⟨⟨pid, sub₂⟩, hpid, h⟩ := Option.bind_eq_some_iff.mp h
    obtain ⟨⟨name, sub₃⟩, hname, h⟩ := Option.bind_eq_some_iff.mp h
    obtain ⟨⟨flags, more⟩, hflags, h⟩ := Option.bind_eq_some_iff.mp h
    cases h
    refine ⟨more, ?_⟩
    rw [Caps.readWord_eq_some_iff.mp hid, Caps.readWord_eq_some_iff.mp hpid,
      Caps.readString_eq_some_iff.mp hname, Caps.readWord_eq_some_iff.mp hflags]
    rfl
  · rintro ⟨more, rfl⟩
    rfl

theorem parseMonitorListItem_eq_ok_iff {ptr : CapsPtr} {item : MonitorListItem} :
    parseMonitorListItem ptr = .ok item ↔ ListsItem (.obj ptr) item := by
  cases ptr with
  | none =>
    constructor
    · intro h
      cases h
    · rintro ⟨more, hmember⟩
      cases hmember
  | some sub =>
    have hfields : parseMonitorListItem (some sub) = .ok item ↔
        parseMonitorListFields sub = some item := by
      rw [parseMonitorListItem]
      cases parseMonitorListFields sub <;> simp
    rw [hfields, parseMonitorListFields_eq_some_iff]
    simp [ListsItem]

theorem listsItem_isObj {member : CapsValue} {item : MonitorListItem} (h : ListsItem member item) :
    ∃ sub, member = .obj (some sub) := by
  obtain ⟨more, rfl⟩ := h
  exact ⟨_, rfl⟩

theorem listsItems_cons_iff {ptr : CapsPtr} :
    ListsItems (.obj ptr :: rest) infos ↔
      ∃ item tail, infos = item :: tail ∧ ListsItem (.obj ptr) item ∧ ListsItems rest tail := by
  constructor
  · rintro ⟨members, after, hall, heq, hafter⟩
    cases hall with
    | nil =>
      rw [List.nil_append] at heq
      rw [← heq] at hafter
      cases hafter
    | cons hitem hall =>
      cases heq
      exact ⟨_, _, rfl, hitem, _, after, hall, rfl, hafter⟩
  · rintro ⟨item, tail, rfl, hitem, members, after, hall, rfl, hafter⟩
    exact ⟨_, after, .cons hitem hall, rfl, hafter⟩

theorem listsItems_iff_of_readCaps (h : caps.readCaps = none) : ListsItems caps infos ↔ infos = [] := by
  constructor
  · rintro ⟨members, after, hall, rfl, -⟩
    cases hall with
    | nil => rfl
    | cons hitem _ =>
      obtain ⟨sub, rfl⟩ := listsItem_isObj hitem
      cases h
  · rintro rfl
    exact ⟨[], caps, .nil, rfl, h⟩

theorem reachesNull_cons_iff {ptr : CapsPtr} :
    ReachesNull (.obj ptr :: rest) ↔
      ptr = none ∨ (∃ item, ListsItem (.obj ptr) item) ∧ ReachesNull rest := by
  constructor
  · rintro ⟨members, infos, after, hall, heq⟩
    cases hall with
    | nil =>
      cases heq
      exact .inl rfl
    | cons hitem hall =>
      cases heq
      exact .inr ⟨⟨_, hitem⟩, _, _, after, hall, rfl⟩
  · rintro (rfl | ⟨⟨item, hitem⟩, members, infos, after, hall, rfl⟩)
    · exact ⟨[], [], rest, .nil, rfl⟩
    · exact ⟨_, _, after, .cons hitem hall, rfl⟩

theorem not_reachesNull_of_readCaps (h : caps.readCaps = none) : ¬ ReachesNull caps := by
  rintro ⟨members, infos, after, hall, rfl⟩
  cases hall with
  | nil => cases h
  | cons hitem _ =>
    obtain ⟨sub, rfl⟩ := listsItem_isObj hitem
    cases h

theorem readCaps_eq_none (h : ∀ ptr rest, caps = .obj ptr :: rest → False) :
    caps.readCaps = none := by
  unfold Caps.readCaps
  split
  · exact (h _ _ rfl).elim
  · rfl

theorem parseMonitorListItems_of_readCaps (h : caps.readCaps = none) :
    parseMonitorListItems caps = .ok [] := by
  unfold parseMonitorListItems
  split
  · cases h
  · rfl

theorem parseMonitorListItems_cons (ptr : CapsPtr) (rest : Caps) :
    parseMonitorListItems (.obj ptr :: rest) = (parseMonitorListItem ptr).bind fun item =>
      (parseMonitorListItems rest).map (item :: ·) := by
  rw [parseMonitorListItems]
  cases parseMonitorListItem ptr
  · rfl
  · cases parseMonitorListItems rest <;> rfl

theorem parseMonitorListItems_eq_ok_iff :
    parseMonitorListItems caps = .ok infos ↔ ListsItems caps infos := by
  induction caps using parseMonitorListItems.induct generalizing infos with
  | case1 ptr rest ih =>
    rw [listsItems_cons_iff, parseMonitorListItems_cons]
    constructor
    · intro h
      cases hitem : parseMonitorListItem ptr with
      | error err =>
        rw [hitem] at h
        cases h
      | ok item =>
        cases htail : parseMonitorListItems rest with
        | error err =>
          rw [hitem, htail] at h
          cases h
        | ok tail =>
          rw [hitem, htail] at h
          cases h
          exact ⟨item, tail, rfl, parseMonitorListItem_eq_ok_iff.mp hitem, ih.mp htail⟩
    · rintro ⟨item, tail, rfl, hitem, htail⟩
      rw [parseMonitorListItem_eq_ok_iff.mpr hitem, ih.mpr htail]
      rfl
  | case2 caps hobj =>
    have hread := readCaps_eq_none hobj
    rw [listsItems_iff_of_readCaps hread, parseMonitorListItems_of_readCaps hread, Except.ok.injEq,
      eq_comm]

theorem parseMonitorListItem_eq_null_iff {ptr : CapsPtr} :
    parseMonitorListItem ptr = .error .nullCaps ↔ ptr = none := by
  cases ptr with
  | none => exact ⟨fun _ => rfl, fun _ => rfl⟩
  | some sub =>
    rw [parseMonitorListItem]
    cases parseMonitorListFields sub <;> simp

theorem parseMonitorListItems_eq_null_iff :
    parseMonitorListItems caps = .error .nullCaps ↔ ReachesNull caps := by
  induction caps using parseMonitorListItems.induct with
  | case1 ptr rest ih =>
    rw [reachesNull_cons_iff, parseMonitorListItems_cons]
    constructor
    · intro h
      cases hitem : parseMonitorListItem ptr with
      | error err =>
        rw [hitem] at h
        cases h
        exact .inl (parseMonitorListItem_eq_null_iff.mp hitem)
      | ok item =>
        cases htail : parseMonitorListItems rest with
        | error err =>
          rw [hitem, htail] at h
          cases h
          exact .inr ⟨⟨item, parseMonitorListItem_eq_ok_iff.mp hitem⟩, ih.mp htail⟩
        | ok tail =>
          rw [hitem, htail] at h
          cases h
    · rintro (hptr | ⟨⟨item, hitem⟩, htail⟩)
      · rw [parseMonitorListItem_eq_null_iff.mpr hptr]
        rfl
      · rw [parseMonitorListItem_eq_ok_iff.mpr hitem, ih.mpr htail]
        rfl
  | case2 caps hobj =>
    have hread := readCaps_eq_none hobj
    rw [parseMonitorListItems_of_readCaps hread]
    refine ⟨?_, fun h => absurd h (not_reachesNull_of_readCaps hread)⟩
    intro h
    cases h

/-- What the parser is for: it returns 0 exactly on the messages of the grammar, with the items in
order, and -1 on all others, and it never reads through a null pointer. -/
structure AcceptsGrammar (reserve : Nat → Bool) (caps : Caps) : Prop where
  accepts : ∀ infos, parseMonitorListAllReserving reserve caps = some (.ok infos) ↔
    ListsAll caps infos
  rejects : (∀ infos, ¬ ListsAll caps infos) →
    parseMonitorListAllReserving reserve caps = some (.error .invalid)
  noNull : parseMonitorListAllReserving reserve caps ≠ some (.error .nullCaps)

/-- After a count of zero there is no container; after another one, for which there is room, the items
do not lead to a null container. -/
def Guarded (reserve : Nat → Bool) (caps : Caps) : Prop :=
  ∀ size rest, caps.readWord = some (size, rest) →
    (size = 0 → rest.readCaps = none) ∧
    (size ≠ 0 → reserve size.toNat = true ∧ ¬ ReachesNull rest)

theorem listsAll_iff {size : Word} (h : caps.readWord = some (size, rest)) :
    ListsAll caps infos ↔ ListsItems rest infos ∧ infos.length = size.toNat := by
  cases Caps.readWord_eq_some_iff.mp h
  constructor
  · rintro ⟨size', rest', heq, hitems⟩
    cases heq
    exact hitems
  · intro hitems
    exact ⟨size, rest, rfl, hitems⟩

theorem not_listsAll_of_readWord (h : caps.readWord = none) : ¬ ListsAll caps infos := by
  rintro ⟨size, rest, rfl, -⟩
  cases h

theorem parseMonitorListAll_of_ne {size : Word} (h : caps.readWord = some (size, rest))
    (hsize : size ≠ 0) : parseMonitorListAll caps = (parseMonitorListItems rest).bind fun infos =>
      if infos.length = size.toNat then .ok infos else .error .invalid := by
  rw [parseMonitorListAll, h]
  dsimp only
  rw [if_neg hsize]
  cases parseMonitorListItems rest with
  | error err => rfl
  | ok infos => rfl

theorem acceptsGrammar_of_ok (h : parseMonitorListAllReserving reserve caps = some (.ok infos)) :
    AcceptsGrammar reserve caps ↔
      ListsAll caps infos ∧ ∀ infos', ListsAll caps infos' → infos' = infos := by
  constructor
  · intro hg
    refine ⟨(hg.accepts infos).mp h, fun infos' hall => ?_⟩
    have hok := (hg.accepts infos').mpr hall
    rw [h] at hok
    cases hok
    rfl
  · rintro ⟨hall, honly⟩
    refine ⟨fun infos' => ⟨?_, ?_⟩, fun hnone => absurd hall (hnone infos), ?_⟩
    · intro hok
      rw [h] at hok
      cases hok
      exact hall
    · intro hall'
      rw [honly infos' hall', h]
    · rw [h]
      intro heq
      cases heq

theorem acceptsGrammar_of_invalid
    (h : parseMonitorListAllReserving reserve caps = some (.error .invalid))
    (hnone : ∀ infos, ¬ ListsAll caps infos) : AcceptsGrammar reserve caps := by
  refine ⟨fun infos => ⟨?_, fun hall => absurd hall (hnone infos)⟩, fun _ => h, ?_⟩
  · intro hok
    rw [h] at hok
    cases hok
  · rw [h]
    intro heq
    cases heq

theorem acceptsGrammar_of_word {size : Word} (h : caps.readWord = some (size, rest))
    (hsize : size ≠ 0) (hreserve : reserve size.toNat = true) :
    AcceptsGrammar reserve caps ↔ ¬ ReachesNull rest := by
  have hparse : parseMonitorListAllReserving reserve caps = some ((parseMonitorListItems rest).bind
      fun infos => if infos.length = size.toNat then .ok infos else .error .invalid) := by
    rw [parseMonitorListAllReserving, h, ← parseMonitorListAll_of_ne h hsize]
    exact if_pos (.inr hreserve)
  have hlists : ∀ infos, ListsAll caps infos ↔
      parseMonitorListItems rest = .ok infos ∧ infos.length = size.toNat := by
    intro infos
    rw [listsAll_iff h, parseMonitorListItems_eq_ok_iff]
  rw [← parseMonitorListItems_eq_null_iff]
  cases hitems : parseMonitorListItems rest with
  | error err =>
    rw [hitems] at hparse
    have hnone : ∀ infos, ¬ ListsAll caps infos := by
      intro infos hall
      have hok := ((hlists infos).mp hall).1
      rw [hitems] at hok
      cases hok
    cases err with
    | invalid =>
      refine ⟨fun _ heq => ?_, fun _ => acceptsGrammar_of_invalid hparse hnone⟩
      cases heq
    | nullCaps => exact ⟨fun hg => absurd hparse hg.noNull, fun hne => absurd rfl hne⟩
  | ok infos =>
    refine ⟨fun _ heq => absurd heq (by intro hbad; cases hbad), fun _ => ?_⟩
    have honly : ∀ infos', ListsAll caps infos' → infos' = infos := by
      intro infos' hall
      have hok := ((hlists infos').mp hall).1
      rw [hitems] at hok
      cases hok
      rfl
    rw [hitems] at hparse
    by_cases hlen : infos.length = size.toNat
    · have hok := hparse.trans (congrArg some (if_pos hlen))
      exact (acceptsGrammar_of_ok hok).mpr ⟨(hlists infos).mpr ⟨hitems, hlen⟩, honly⟩
    · have hinvalid := hparse.trans (congrArg some (if_neg hlen))
      refine acceptsGrammar_of_invalid hinvalid fun infos' hall => hlen ?_
      rw [← honly infos' hall]
      exact ((hlists infos').mp hall).2

theorem acceptsGrammar_of_zero (h : caps.readWord = some (0, rest)) :
    AcceptsGrammar reserve caps ↔ rest.readCaps = none := by
  have hparse : parseMonitorListAllReserving reserve caps = some (.ok []) := by
    rw [parseMonitorListAllReserving, parseMonitorListAll, h]
    rfl
  rw [acceptsGrammar_of_ok hparse]
  constructor
  · rintro ⟨hall, -⟩
    obtain ⟨⟨members, after, hitems, rfl, hafter⟩, -⟩ := (listsAll_iff h).mp hall
    cases hitems
    exact hafter
  · intro hread
    have hlists : ∀ infos, ListsAll caps infos ↔ infos = [] := by
      intro infos
      rw [listsAll_iff h, listsItems_iff_of_readCaps hread]
      refine ⟨fun hitems => hitems.1, ?_⟩
      rintro rfl
      exact ⟨rfl, rfl⟩
    exact ⟨(hlists []).mpr rfl, fun infos => (hlists infos).mp⟩

/-- The parser accepts exactly its grammar unless a container follows a count of zero, which it
accepts, or a null container follows the items after another count, which it reads through, or the
count is too large to reserve. -/
theorem parse_exact_iff (reserve : Nat → Bool) (caps : Caps) :
    AcceptsGrammar reserve caps ↔ Guarded reserve caps := by
  cases h : caps.readWord with
  | none =>
    have hparse : parseMonitorListAllReserving reserve caps = some (.error .invalid) := by
      rw [parseMonitorListAllReserving, parseMonitorListAll, h]
    refine ⟨fun _ size rest heq => ?_, fun _ => ?_⟩
    · rw [h] at heq
      cases heq
    · exact acceptsGrammar_of_invalid hparse fun infos => not_listsAll_of_readWord h
  | some read =>
    obtain ⟨size, rest⟩ := read
    have hguard : Guarded reserve caps ↔ (size = 0 → rest.readCaps = none) ∧
        (size ≠ 0 → reserve size.toNat = true ∧ ¬ ReachesNull rest) := by
      refine ⟨fun hg => hg size rest h, fun hg size' rest' heq => ?_⟩
      rw [h] at heq
      cases heq
      exact hg
    rw [hguard]
    by_cases hsize : size = 0
    · subst hsize
      rw [acceptsGrammar_of_zero h]
      exact ⟨fun hread => ⟨fun _ => hread, fun hne => absurd rfl hne⟩, fun hg => hg.1 rfl⟩
    · by_cases hreserve : reserve size.toNat = true
      · rw [acceptsGrammar_of_word h hsize hreserve]
        exact ⟨fun hnull => ⟨fun heq => absurd heq hsize, fun _ => ⟨hreserve, hnull⟩⟩,
          fun hg => (hg.2 hsize).2⟩
      · refine ⟨fun hg => ?_, fun hg => absurd (hg.2 hsize).1 hreserve⟩
        -- The exception is no result at all, whether or not the message is well-formed.
        have hthrow : parseMonitorListAllReserving reserve caps = none := by
          rw [parseMonitorListAllReserving, h]
          exact if_neg (not_or.mpr ⟨hsize, hreserve⟩)
        have hnone : ∀ infos, ¬ ListsAll caps infos := by
          intro infos hall
          have hok := (hg.accepts infos).mpr hall
          rw [hthrow] at hok
          cases hok
        have hinvalid := hg.rejects hnone
        rw [hthrow] at hinvalid
        cases hinvalid

/-- One item is announced, and a null container follows: with memory for one item and more, the
parser reads through the null pointer. -/
theorem parse_reads_null : ¬ ∀ caps, AcceptsGrammar (fun _ => true) caps := by
  intro h
  exact (h [.i32 1, .obj none]).noNull rfl

theorem listsAll_serialized (h : infos.length < 2 ^ 32) :
    ListsAll ((serializeMonitorListAll infos).drop 2) infos := by
  refine ⟨BitVec.ofNat 32 infos.length, _, rfl, ?_, (Word.toNat_ofNat h).symm⟩
  exact parseMonitorListItems_eq_ok_iff.mp (parseMonitorListItems_serialized infos)

theorem guarded_of_listsAll (h : ListsAll caps infos) (hreserve : reserve infos.length = true) :
    Guarded reserve caps := by
  obtain ⟨size, rest, rfl, hitems, hlen⟩ := h
  rintro size' rest' ⟨⟩
  refine ⟨fun hzero => ?_, fun _ => ⟨by rw [← hlen]; exact hreserve, fun hnull => ?_⟩⟩
  · subst hzero
    obtain ⟨members, after, hall, rfl, hafter⟩ := hitems
    cases List.length_eq_zero_iff.mp hlen
    cases hall
    exact hafter
  · have hok := parseMonitorListItems_eq_ok_iff.mpr hitems
    rw [parseMonitorListItems_eq_null_iff.mpr hnull] at hok
    cases hok

end ResponseParser

end Flora
