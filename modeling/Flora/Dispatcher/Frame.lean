import Flora.Dispatcher.Handlers

/-! # What the writes of a handler change

Every handler is an update of a few maps followed by writes. `Writes d ws d'` says that `d'` is `d`
after the writes `ws`: nothing but the log and the closed flags of their destinations differs. -/

namespace Flora

abbrev WriteRequest := AdapterId × ByteOrder × Caps × Option Answer

/-- The arguments of a write, without what came of it. -/
def Write.request (w : Write) : WriteRequest :=
  (w.dest, w.order, w.caps, w.answers)

namespace Dispatcher

structure Writes (d : Dispatcher) (ws : List Write) (d' : Dispatcher) : Prop where
  rest : d' = { d with adapters := d'.adapters, out := d.out ++ ws }
  adapter : ∀ a, d'.adapters a = { d.adapters a with closed := (d'.adapters a).closed }
  closed_iff : ∀ a, (d'.adapters a).closed = true ↔
    (d.adapters a).closed = true ∨ ∃ w ∈ ws, w.dest = a ∧ w.result ≠ .success

namespace Writes

variable {d d' d'' : Dispatcher} {ws ws' : List Write}

theorem subscriptions (h : Writes d ws d') : d'.subscriptions = d.subscriptions := by rw [h.rest]
theorem persistMsgs (h : Writes d ws d') : d'.persistMsgs = d.persistMsgs := by rw [h.rest]
theorem namedAdapters (h : Writes d ws d') : d'.namedAdapters = d.namedAdapters := by rw [h.rest]
theorem pendingCalls (h : Writes d ws d') : d'.pendingCalls = d.pendingCalls := by rw [h.rest]
theorem reqseq (h : Writes d ws d') : d'.reqseq = d.reqseq := by rw [h.rest]
theorem adapterInfos (h : Writes d ws d') : d'.adapterInfos = d.adapterInfos := by rw [h.rest]
theorem monitors (h : Writes d ws d') : d'.monitors = d.monitors := by rw [h.rest]
theorem idseq (h : Writes d ws d') : d'.idseq = d.idseq := by rw [h.rest]
theorem calls (h : Writes d ws d') : d'.calls = d.calls := by rw [h.rest]
theorem out (h : Writes d ws d') : d'.out = d.out ++ ws := by rw [h.rest]

theorem info (h : Writes d ws d') (a : AdapterId) : (d'.adapters a).info = (d.adapters a).info := by
  rw [h.adapter a]

theorem tag (h : Writes d ws d') (a : AdapterId) : (d'.adapters a).tag = (d.adapters a).tag := by
  rw [h.adapter a]

theorem serializeFlags (h : Writes d ws d') (a : AdapterId) :
    (d'.adapters a).serializeFlags = (d.adapters a).serializeFlags := by
  rw [h.adapter a]

theorem destroyed (h : Writes d ws d') (a : AdapterId) :
    (d'.adapters a).destroyed = (d.adapters a).destroyed := by
  rw [h.adapter a]

theorem deref (h : Writes d ws d') (a : AdapterId) : d'.deref a = d.deref a := by
  simp only [Dispatcher.deref, h.info, h.adapterInfos, h.monitors]

theorem closed_mono (h : Writes d ws d') {a : AdapterId} (ha : (d.adapters a).closed = true) :
    (d'.adapters a).closed = true := (h.closed_iff a).mpr (.inl ha)

theorem refl (d : Dispatcher) : Writes d [] d where
  rest := by rw [List.append_nil]
  adapter _ := rfl
  closed_iff a := by simp

theorem trans (h : Writes d ws d') (h' : Writes d' ws' d'') : Writes d (ws ++ ws') d'' where
  rest := by
    rw [h'.rest, h.rest]
    simp only [List.append_assoc]
  adapter a := by
    rw [h'.adapter a, h.adapter a]
  closed_iff a := by
    rw [h'.closed_iff a, h.closed_iff a, or_assoc]
    simp only [List.mem_append, or_and_right, exists_or]

end Writes

theorem setAdapter_adapters (d : Dispatcher) (a b : AdapterId) (x : Adapter) :
    (d.setAdapter a x).adapters b = if b = a then x else d.adapters b := by
  by_cases h : b = a
  · subst h
    simp [setAdapter]
  · simp [setAdapter, h]

theorem close_adapters (d : Dispatcher) (a b : AdapterId) :
    (d.close a).adapters b = { d.adapters b with closed := (d.adapters b).closed || b == a } := by
  rw [close, setAdapter_adapters]
  by_cases h : b = a
  · subst h
    simp
  · have hne : (b == a) = false := beq_false_of_ne h
    rw [if_neg h, hne, Bool.or_false]

theorem write_writes (e : Env) (d : Dispatcher) (a : AdapterId) (order : ByteOrder) (caps : Caps)
    (answers : Option Answer) :
    Writes d [⟨a, order, caps, (d.write e a order caps answers).2, answers⟩]
      (d.write e a order caps answers).1 := by
  unfold write
  split
  · rename_i hclosed
    refine ⟨rfl, fun b => rfl, fun b => ?_⟩
    simp only [logWrite, List.mem_singleton, exists_eq_left, ne_eq, reduceCtorEq, not_false_eq_true,
      and_true]
    constructor
    · exact .inl
    · rintro (h | rfl)
      · exact h
      · exact hclosed
  · cases hos : e.os d.out.length with
    | success =>
      refine ⟨rfl, fun b => rfl, fun b => ?_⟩
      simp [logWrite]
    | error =>
      refine ⟨rfl, fun b => ?_, fun b => ?_⟩
      · simp [logWrite, close_adapters]
      · simp [logWrite, close_adapters, @eq_comm _ b a]
    | timeout =>
      refine ⟨rfl, fun b => ?_, fun b => ?_⟩
      · simp [logWrite, close_adapters]
      · simp [logWrite, close_adapters, @eq_comm _ b a]

theorem writeLogged_writes {e : Env} {d d' : Dispatcher} {a : AdapterId} {order : ByteOrder}
    {caps : Caps} {answers : Option Answer} {readers : List AdapterId}
    (h : d.writeLogged e a order caps answers readers = some d') :
    ∃ r, Writes d [⟨a, order, caps, r, answers⟩] d' := by
  unfold writeLogged at h
  split at h
  · cases h
  · cases h
    exact ⟨_, write_writes e d a order caps answers⟩

theorem foldlM_writes {f : Dispatcher → AdapterId → Option Dispatcher}
    {reqs : AdapterId → List WriteRequest} {as : List AdapterId}
    {d d' : Dispatcher}
    (hf : ∀ a ∈ as, ∀ x x', (∃ ws, Writes d ws x) → f x a = some x' →
      ∃ ws, Writes x ws x' ∧ ws.map Write.request = reqs a)
    (h : as.foldlM f d = some d') :
    ∃ ws, Writes d ws d' ∧ ws.map Write.request = as.flatMap reqs := by
  induction as generalizing d with
  | nil =>
    cases h
    exact ⟨[], .refl _, rfl⟩
  | cons a as ih =>
    rw [List.foldlM_cons] at h
    obtain ⟨x, hx, h⟩ := Option.bind_eq_some_iff.mp h
    obtain ⟨ws, hws, hreq⟩ := hf a List.mem_cons_self d x ⟨[], .refl d⟩ hx
    obtain ⟨ws', hws', hreq'⟩ := ih (fun b hb y y' hy => by
      obtain ⟨us, hus⟩ := hy
      exact hf b (List.mem_cons_of_mem a hb) y y' ⟨ws ++ us, hws.trans hus⟩) h
    exact ⟨ws ++ ws', hws.trans hws', by rw [List.map_append, hreq, hreq', List.flatMap_cons]⟩

/-- `d'` differs from `d` in names, records and back pointers only. -/
structure RegistryOnly (d d' : Dispatcher) : Prop where
  rest : d' = { d with
    namedAdapters := d'.namedAdapters
    adapterInfos := d'.adapterInfos
    monitors := d'.monitors
    idseq := d'.idseq
    adapters := d'.adapters }
  adapter : ∀ a, d'.adapters a =
    { d.adapters a with info := (d'.adapters a).info, tag := (d'.adapters a).tag }

namespace RegistryOnly

variable {d d' d'' : Dispatcher}

theorem subscriptions (h : RegistryOnly d d') : d'.subscriptions = d.subscriptions := by rw [h.rest]
theorem pendingCalls (h : RegistryOnly d d') : d'.pendingCalls = d.pendingCalls := by rw [h.rest]
theorem reqseq (h : RegistryOnly d d') : d'.reqseq = d.reqseq := by rw [h.rest]
theorem calls (h : RegistryOnly d d') : d'.calls = d.calls := by rw [h.rest]
theorem out (h : RegistryOnly d d') : d'.out = d.out := by rw [h.rest]

theorem closed (h : RegistryOnly d d') (a : AdapterId) :
    (d'.adapters a).closed = (d.adapters a).closed := by
  rw [h.adapter a]

theorem destroyed (h : RegistryOnly d d') (a : AdapterId) :
    (d'.adapters a).destroyed = (d.adapters a).destroyed := by
  rw [h.adapter a]

theorem serializeFlags (h : RegistryOnly d d') (a : AdapterId) :
    (d'.adapters a).serializeFlags = (d.adapters a).serializeFlags := by
  rw [h.adapter a]

theorem refl (d : Dispatcher) : RegistryOnly d d := ⟨rfl, fun _ => rfl⟩

theorem trans (h : RegistryOnly d d') (h' : RegistryOnly d' d'') : RegistryOnly d d'' where
  rest := by rw [h'.rest, h.rest]
  adapter a := by rw [h'.adapter a, h.adapter a]

end RegistryOnly

theorem registryOnly_setAdapter (d : Dispatcher) (a : AdapterId) (info : Option InfoRef)
    (tag : BitVec 64) :
    RegistryOnly d (d.setAdapter a { d.adapters a with info := info, tag := tag }) := by
  refine ⟨rfl, fun b => ?_⟩
  rw [setAdapter_adapters]
  split
  · rename_i hb
    rw [hb]
  · rfl

theorem registryOnly_addAdapterInfo (name : String) (flags pid : Word) (a : AdapterId)
    (d : Dispatcher) : RegistryOnly d (addAdapterInfo name flags pid a d) := by
  unfold addAdapterInfo
  dsimp only
  split
  · exact ⟨rfl, fun _ => rfl⟩
  · exact ⟨rfl, (registryOnly_setAdapter d a (some .client) (d.adapters a).tag).adapter⟩

theorem registryOnly_addAdapter (name : String) (flags pid : Word) (a : AdapterId)
    (d : Dispatcher) : RegistryOnly d (addAdapter name flags pid a d).1 := by
  unfold addAdapter
  split
  · split
    · exact .refl d
    · rename_i named _
      have hnamed : RegistryOnly d { d with namedAdapters := named } := ⟨rfl, fun _ => rfl⟩
      exact hnamed.trans (registryOnly_addAdapterInfo name flags pid a _)
  · exact registryOnly_addAdapterInfo name flags pid a d

theorem registryOnly_addMonitor (name : String) (flags : Word) (a : AdapterId) (d : Dispatcher) :
    RegistryOnly d (addMonitor name flags a d) := by
  unfold addMonitor
  dsimp only
  split
  · exact ⟨rfl, fun _ => rfl⟩
  · exact ⟨rfl, (registryOnly_setAdapter d a (some .monitor) (d.adapters a).tag).adapter⟩

theorem registryOnly_authenticate (e : Env) (req : AuthReq) (a : AdapterId) (d : Dispatcher) :
    RegistryOnly d (authenticate e req a d).1 := by
  unfold authenticate
  split
  · exact .refl d
  · dsimp only
    generalize (if (d.adapters a).tag = 0 then req.pid.setWidth 64 else (d.adapters a).tag) = t
    have htag := registryOnly_setAdapter d a (d.adapters a).info t
    split
    · split
      · exact htag.trans (registryOnly_addMonitor _ _ _ _)
      · exact htag
    · have hadd := htag.trans (registryOnly_addAdapter req.extra req.flags req.pid a _)
      generalize addAdapter req.extra req.flags req.pid a _ = res at hadd ⊢
      obtain ⟨d₂, ok⟩ := res
      cases ok <;> exact hadd

theorem registryOnly_setInfo (d : Dispatcher) (a : AdapterId) (info : AdapterInfo) :
    RegistryOnly d (d.setInfo a info) := by
  unfold setInfo
  split
  · exact .refl d
  · exact ⟨rfl, fun _ => rfl⟩
  · exact ⟨rfl, fun _ => rfl⟩

theorem registryOnly_eraseName (name : String) (d : Dispatcher) :
    RegistryOnly d (eraseName name d) := by
  unfold eraseName
  split
  · exact ⟨rfl, fun _ => rfl⟩
  · exact .refl d

end Dispatcher

end Flora
