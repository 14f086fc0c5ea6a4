import Flora.Dispatcher.Ownership
import Flora.Monitor.View

/-! # Watching the dispatcher

A watch is the dispatcher with one monitor's view and the adapter of its current session; the view
stays when the agent connects again. -/

namespace Flora

open TransitionSystem

namespace Registry

variable {r : Registry} {a : AdapterId} {item : MonitorListItem}

/-- A client's record is pointed to by its adapter, through one of the two pointers. -/
def Pointed (r : Registry) : Prop := ∀ a, r.clients a ≠ none → r.info a ≠ none

theorem Pointed.authenticate (h : r.Pointed) {service : Word} {req : AuthReq} :
    (r.authenticate service req a).Pointed := by
  unfold Registry.authenticate
  split
  · exact h
  · split
    · split
      · intro b hb
        cases hkey : r.monitors a with
        | some i => simpa only [Registry.enrolMonitor, hkey] using h b hb
        | none =>
          simp only [Registry.enrolMonitor, hkey]
          by_cases hba : b = a
          · rw [hba, Function.update_self]
            exact Option.some_ne_none _
          · rw [Function.update_of_ne hba]
            exact h b hb
      · exact h
    · split
      · exact h
      · intro b hb
        cases hkey : r.clients a with
        | some i =>
          simp only [Registry.enrolClient, hkey] at hb ⊢
          exact h b hb
        | none =>
          simp only [Registry.enrolClient, hkey] at hb ⊢
          by_cases hba : b = a
          · rw [hba, Function.update_self]
            exact Option.some_ne_none _
          · rw [Function.update_of_ne hba] at hb ⊢
            exact h b hb

theorem Pointed.erase (h : r.Pointed) : (r.erase a item).Pointed := by
  intro b hb
  apply h b
  intro hnone
  apply hb
  simp only [Registry.erase]
  split
  · exact hnone
  · by_cases hba : b = a
    · rw [hba, Function.update_self]
    · rw [Function.update_of_ne hba]
      exact hnone

end Registry

theorem Dispatcher.pointed_step {e : Env} {d d' : Dispatcher} {act : Action}
    (hs : d.registry.Pointed) (h : d.step e act = some d') : d'.registry.Pointed := by
  rw [step_registry h]
  cases act with
  | msg caps sender now done =>
    simp only [registryAfter, Registry.handle]
    split
    · exact hs
    · exact hs.authenticate
  | erase sender now =>
    simp only [registryAfter, Registry.leave]
    split
    · exact hs
    · exact hs.erase
  | expire tp => exact hs
  | close b => exact hs
  | destroy b => exact hs

/-- A view, the dispatcher it watches and the adapter of the current session. -/
structure Watch where
  dispatcher : Dispatcher
  session : AdapterId
  view : MonitorView := {}

namespace Watch

inductive Action where
  | dispatch (act : Dispatcher.Action)
  /-- The agent has connected again; nothing has been sent on the new connection yet. -/
  | reconnect (a : AdapterId)

/-- All writes on the session's connection succeed and its list messages fit the buffer. -/
def delivered (e : Env) (w : Watch) (act : Dispatcher.Action) (ws : List Write) : Bool :=
  (ws.all fun write => write.dest != w.session || write.result == .success) &&
    (w.dispatcher.notices e w.session act).all
      (e.fits (w.dispatcher.adapters w.session).serializeFlags)

def step (e : Env) (w : Watch) : Action → Option Watch
  | .dispatch act => (w.dispatcher.step e act).bind fun d =>
    let ws := d.out.drop w.dispatcher.out.length
    if w.delivered e act ws then
      some { w with dispatcher := d, view := w.view.receiveAll w.session ws }
    else none
  | .reconnect a =>
    if (w.dispatcher.monitors.lookup a).isNone then
      some { w with session := a, view := { w.view with listed := false } }
    else none

def Initial (w : Watch) : Prop :=
  Dispatcher.Initial w.dispatcher ∧ w.view = {}

def system (e : Env) : System Watch Action := System.ofStep Initial (step e)

/-- The session is registered and the view has its list. -/
def watching (w : Watch) : Prop := w.view.listed = true ∧ w.session ∈ w.dispatcher.monitors.keys

/-- The view holds the clients of the dispatcher. -/
def Agrees (w : Watch) : Prop :=
  w.watching → w.view.floraClients.Perm w.dispatcher.items

/-- The list of a new session finds an empty view; while the session is watching, a client that
registers has no record yet, and the first entry with the id of a client that leaves is its own. -/
def Tracked (e : Env) (w : Watch) : Action → Prop
  | .dispatch (.msg caps sender _ _) => ∀ req, w.dispatcher.handledAuth caps sender = some req →
      w.dispatcher.admits e req = true →
      if hasMonitorFlag req.flags then sender = w.session → w.view.floraClients = []
      else w.watching → w.dispatcher.adapterInfos.lookup sender = none
  | .dispatch (.erase sender _) => ∀ info, w.dispatcher.deref sender = some info →
      hasMonitorFlag info.flags = false → w.watching →
      w.view.floraClients.find? (·.id == info.id) = some info.item
  | _ => True

variable {e : Env} {w w' : Watch}

theorem step_dispatch {act : Dispatcher.Action} (hsize : e.Sized)
    (h : step e w (.dispatch act) = some w') :
    ∃ d, w.dispatcher.step e act = some d ∧
      (∀ c ∈ w.dispatcher.notices e w.session act,
        e.fits (w.dispatcher.adapters w.session).serializeFlags c = true) ∧
      w' = ⟨d, w.session, (w.dispatcher.notices e w.session act).foldl MonitorView.receive w.view⟩ := by
  obtain ⟨d, hd, h⟩ := Option.bind_eq_some_iff.mp h
  dsimp only at h
  split at h
  · rename_i hcond
    have hfits := List.all_eq_true.mp (Bool.and_eq_true_iff.mp hcond).2
    cases h
    refine ⟨d, hd, hfits, ?_⟩
    obtain ⟨ws, hout, hnotices⟩ := Dispatcher.step_notices hsize hd hfits
    rw [hout, List.drop_left, MonitorView.receiveAll_eq, hnotices]
  · cases h

theorem length_of_fits (hsize : e.Sized) {order : ByteOrder} {infos : List MonitorListItem}
    (h : e.fits order (ResponseSerializer.serializeMonitorListAll infos) = true) :
    infos.length < 2 ^ 32 := by
  have hmembers := hsize.members order (ResponseSerializer.serializeMonitorListAll infos)
  have hbound := (of_decide_eq_true h).1
  have hlength : (ResponseSerializer.serializeMonitorListAll infos).length = infos.length + 3 := by
    simp [ResponseSerializer.serializeMonitorListAll]
  omega

theorem Agrees.quiet (h : w.Agrees) {d : Dispatcher}
    (hclients : d.registry.clients = w.dispatcher.registry.clients)
    (hmonitors : d.registry.monitors w.session ≠ none →
      w.dispatcher.registry.monitors w.session ≠ none) :
    Agrees ⟨d, w.session, w.view⟩ := by
  rintro ⟨hlisted, hkey⟩
  have hbefore : w.session ∈ w.dispatcher.monitors.keys :=
    Dispatcher.mem_monitors_iff.mpr (hmonitors (Dispatcher.mem_monitors_iff.mp hkey))
  exact (h ⟨hlisted, hbefore⟩).trans (Dispatcher.items_perm hclients).symm

theorem eq_nil_of_append_perm {α : Type} {xs ys zs : List α} (h : ys.Perm zs) :
    (xs ++ ys).Perm zs ↔ xs = [] := by
  constructor
  · intro happend
    have hlength := happend.length_eq
    rw [List.length_append, h.length_eq] at hlength
    exact List.length_eq_zero_iff.mp (by omega)
  · rintro rfl
    exact h

/-- Taking the first entry with an id leaves the others exactly when it is the right one. -/
theorem eraseP_perm_iff {view rest : List MonitorListItem} {item : MonitorListItem}
    (h : view.Perm (item :: rest)) : (view.eraseP (·.id == item.id)).Perm rest ↔
      view.find? (·.id == item.id) = some item := by
  have hmem : item ∈ view := h.mem_iff.mpr List.mem_cons_self
  obtain ⟨x, l, r, hl, hx, hsplit, herase⟩ :=
    List.exists_of_eraseP (p := fun i => i.id == item.id) hmem (beq_self_eq_true _)
  have hfind : view.find? (·.id == item.id) = some x := by
    rw [hsplit, List.find?_append, List.find?_eq_none.mpr fun b hb => hl b hb]
    simp [hx]
  have hview : view.Perm (x :: view.eraseP (·.id == item.id)) := by
    rw [herase, hsplit]
    exact List.perm_middle
  rw [hfind, Option.some.injEq]
  constructor
  · intro hrest
    have hboth : (x :: rest).Perm (item :: rest) := (hrest.symm.cons x).trans (hview.symm.trans h)
    by_contra hne
    have hcount := hboth.count_eq x
    rw [List.count_cons_self, List.count_cons_of_ne (Ne.symm hne)] at hcount
    omega
  · rintro rfl
    exact (hview.symm.trans h).cons_inv

/-- The invariant of the watch beside agreement. -/
structure Regular (d : Dispatcher) : Prop where
  sorted : d.registry.Sorted
  pointed : d.registry.Pointed

theorem Regular.step {d d' : Dispatcher} {act : Dispatcher.Action} (hd : Regular d)
    (h : d.step e act = some d') : Regular d' :=
  ⟨Dispatcher.sorted_step hd.sorted h, Dispatcher.pointed_step hd.pointed h⟩

theorem Regular.deref {d : Dispatcher} (hd : Regular d) {caps : Caps} {sender : AdapterId}
    {req : AuthReq} (hreq : d.handledAuth caps sender = some req)
    (hclient : d.registry.clients sender ≠ none) : ∃ item, d.registry.deref sender = some item := by
  have hgate := Dispatcher.isMonitor_of_handledAuth hreq
  have hinfo : (d.adapters sender).info ≠ none := hd.pointed sender hclient
  rw [Dispatcher.isMonitor, if_neg hinfo] at hgate
  obtain ⟨info, hderef, -⟩ := Option.map_eq_some_iff.mp hgate
  exact ⟨info.item, by rw [Dispatcher.registry_deref, hderef]; rfl⟩

/-- A monitor registers: its own session gets the list behind what the view had. -/
theorem agrees_enrolMonitor_iff (hsize : e.Sized) (h : w.Agrees) {req : AuthReq} {d : Dispatcher}
    {sender : AdapterId} (hadmitted : w.dispatcher.admits e req = true)
    (hmon : hasMonitorFlag req.flags = true)
    (hreg : d.registry = w.dispatcher.registry.enrolMonitor req.extra req.flags sender)
    (hfits : ∀ c ∈ w.dispatcher.authNotices e w.session req sender,
      e.fits (w.dispatcher.adapters w.session).serializeFlags c = true) :
    Agrees ⟨d, w.session, (w.dispatcher.authNotices e w.session req sender).foldl
      MonitorView.receive w.view⟩ ↔ (sender = w.session → w.view.floraClients = []) := by
  have hclients : d.registry.clients = w.dispatcher.registry.clients := by rw [hreg]; rfl
  simp only [Dispatcher.authNotices, (Dispatcher.authenticate_result req sender w.dispatcher).mpr
    hadmitted, if_true, hmon] at hfits ⊢
  by_cases hsender : sender = w.session
  · rw [if_pos hsender] at hfits ⊢
    have hroom := length_of_fits hsize (hfits _ (List.mem_singleton_self _))
    have hsame : (Dispatcher.authenticate e req sender w.dispatcher).1.registry = d.registry := by
      rw [Dispatcher.registry_authenticate_cases, if_pos hadmitted, if_pos hmon, hreg]
    have hperm : (Dispatcher.authenticate e req sender w.dispatcher).1.items.Perm d.items :=
      Dispatcher.items_perm (by rw [hsame])
    have hkey : w.session ∈ d.monitors.keys := by
      rw [Dispatcher.mem_monitors_iff, hreg, ← hsender]
      unfold Registry.enrolMonitor
      cases hm : w.dispatcher.registry.monitors sender with
      | none => simp
      | some i =>
        dsimp only
        rw [hm]
        exact Option.some_ne_none i
    rw [List.foldl_cons, List.foldl_nil, MonitorView.receive_listAll _ hroom]
    constructor
    · intro hagree _
      exact (eq_nil_of_append_perm hperm).mp (hagree ⟨rfl, hkey⟩)
    · intro hempty _
      exact (eq_nil_of_append_perm hperm).mpr (hempty hsender)
  · rw [if_neg hsender]
    refine iff_of_true (h.quiet hclients ?_) fun heq => absurd heq hsender
    rw [hreg]
    unfold Registry.enrolMonitor
    cases w.dispatcher.registry.monitors sender with
    | none =>
      dsimp only
      rw [Function.update_of_ne (Ne.symm hsender)]
      exact id
    | some i => exact id

theorem deref_authenticated {d₁ d : Dispatcher} {sender : AdapterId} {item : MonitorListItem}
    (hsame : d₁.registry = d.registry) (hitem : d.registry.deref sender = some item) :
    ∃ info, d₁.deref sender = some info ∧ info.item = item := by
  rw [← hsame, Dispatcher.registry_deref] at hitem
  exact Option.map_eq_some_iff.mp hitem

/-- A client registers: the session is told of its record, which has to be a new one. -/
theorem agrees_enrolClient_iff (h : w.Agrees) (hd : Regular w.dispatcher) {caps : Caps}
    {req : AuthReq} {d : Dispatcher} {sender : AdapterId}
    (hreq : w.dispatcher.handledAuth caps sender = some req)
    (hadmitted : w.dispatcher.admits e req = true) (hmon : ¬ hasMonitorFlag req.flags = true)
    (hreg : d.registry = w.dispatcher.registry.enrolClient req.extra req.flags req.pid sender) :
    Agrees ⟨d, w.session, (w.dispatcher.authNotices e w.session req sender).foldl
      MonitorView.receive w.view⟩ ↔
        (w.watching → w.dispatcher.adapterInfos.lookup sender = none) := by
  have hsame : (Dispatcher.authenticate e req sender w.dispatcher).1.registry = d.registry := by
    rw [Dispatcher.registry_authenticate_cases, if_pos hadmitted, if_neg hmon, hreg]
  have hmonitors : d.registry.monitors = w.dispatcher.registry.monitors := by rw [hreg]; rfl
  have hkeys : w.session ∈ (Dispatcher.authenticate e req sender w.dispatcher).1.monitors.keys ↔
      w.session ∈ w.dispatcher.monitors.keys := by
    rw [Dispatcher.mem_monitors_iff, Dispatcher.mem_monitors_iff, hsame, hmonitors]
  have hkeys' : w.session ∈ d.monitors.keys ↔ w.session ∈ w.dispatcher.monitors.keys := by
    rw [Dispatcher.mem_monitors_iff, Dispatcher.mem_monitors_iff, hmonitors]
  simp only [Dispatcher.authNotices, (Dispatcher.authenticate_result req sender w.dispatcher).mpr
    hadmitted, if_true, if_neg hmon, hkeys]
  by_cases hkey : w.session ∈ w.dispatcher.monitors.keys
  · rw [if_pos hkey]
    cases hclient : w.dispatcher.registry.clients sender with
    | none =>
      -- the record is new, and it is the one the session is told of
      have hlookup : w.dispatcher.adapterInfos.lookup sender = none :=
        Option.map_eq_none_iff.mp hclient
      obtain ⟨item, hitem, hclients⟩ : ∃ item, d.registry.deref sender = some item ∧
          d.registry.clients =
            Function.update w.dispatcher.registry.clients sender (some item) := by
        refine ⟨_, ?_, by rw [hreg, Registry.enrolClient_clients hclient]⟩
        rw [hreg, Registry.deref, Registry.enrolClient_info hclient,
          Registry.enrolClient_clients hclient, Function.update_self, Function.update_self]
      obtain ⟨info, hinfo, rfl⟩ := deref_authenticated hsame hitem
      rw [hinfo]
      refine iff_of_true ?_ fun _ => hlookup
      rintro ⟨hlisted, _⟩
      have hbefore := h ⟨hlisted, hkey⟩
      have hafter := Dispatcher.items_perm_cons hclient hclients
      exact (List.perm_append_singleton _ _).trans ((hbefore.cons _).trans hafter.symm)
    | some i =>
      -- there was a record: the session is told of it again
      have hclients : d.registry.clients = w.dispatcher.registry.clients := by
        rw [hreg, Registry.enrolClient]
        simp only [hclient]
      obtain ⟨item, hbefore⟩ := hd.deref hreq (by rw [hclient]; exact Option.some_ne_none i)
      have hitem : d.registry.deref sender = some item := by
        rw [← hbefore, hreg, Registry.deref, Registry.deref, Registry.enrolClient]
        simp only [hclient]
      obtain ⟨info, hinfo, rfl⟩ := deref_authenticated hsame hitem
      rw [hinfo]
      have hlookup : w.dispatcher.adapterInfos.lookup sender ≠ none := by
        intro hnone
        have hgone : w.dispatcher.registry.clients sender = none := Option.map_eq_none_iff.mpr hnone
        rw [hclient] at hgone
        cases hgone
      constructor
      · intro hagree hwatch
        have hlength := (hagree ⟨hwatch.1, hkeys'.mpr hkey⟩).length_eq
        have hbefore := (h hwatch).length_eq
        have hitems := (Dispatcher.items_perm hclients).length_eq
        have hlonger : (w.view.floraClients ++ [info.item]).length = d.items.length := hlength
        rw [List.length_append, List.length_singleton] at hlonger
        omega
      · intro hnone hwatch
        exact absurd (hnone ⟨hwatch.1, hkey⟩) hlookup
  · rw [if_neg hkey]
    refine iff_of_true ?_ fun hwatch => absurd hwatch.2 hkey
    exact fun hwatch => absurd (hkeys'.mp hwatch.2) hkey

/-- An erase command: the session is told the id of a client that leaves. -/
theorem agrees_erase_iff (h : w.Agrees) (hd : Regular w.dispatcher) {d : Dispatcher}
    {sender : AdapterId} (hreg : d.registry = w.dispatcher.registry.leave sender) :
    Agrees ⟨d, w.session, (w.dispatcher.eraseNotices w.session sender).foldl
      MonitorView.receive w.view⟩ ↔
        ∀ info, w.dispatcher.deref sender = some info → hasMonitorFlag info.flags = false →
          w.watching → w.view.floraClients.find? (·.id == info.id) = some info.item := by
  unfold Dispatcher.eraseNotices
  cases hderef : w.dispatcher.deref sender with
  | none =>
    have hnone : w.dispatcher.registry.deref sender = none := by
      rw [Dispatcher.registry_deref, hderef]
      rfl
    rw [Registry.leave_of_none hnone] at hreg
    refine iff_of_true (h.quiet (by rw [hreg]) (by rw [hreg]; exact id)) fun info hinfo => ?_
    cases hinfo
  | some info =>
    have hitem : w.dispatcher.registry.deref sender = some info.item := by
      rw [Dispatcher.registry_deref, hderef]
      rfl
    rw [Registry.leave_of_some hitem] at hreg
    dsimp only
    by_cases hflag : hasMonitorFlag info.flags = true
    · -- a monitor leaves, perhaps this one
      rw [if_pos hflag]
      have hclients : d.registry.clients = w.dispatcher.registry.clients := by
        rw [hreg, Registry.erase]
        exact if_pos hflag
      refine iff_of_true (h.quiet hclients ?_) fun info' hinfo hordinary => ?_
      · rw [hreg, Registry.erase]
        dsimp only
        rw [if_pos (show hasMonitorFlag info.item.flags = true from hflag), Function.update_apply]
        split
        · exact fun hne => absurd rfl hne
        · exact id
      · cases hinfo
        rw [hflag] at hordinary
        cases hordinary
    · rw [if_neg hflag]
      have hordinary : hasMonitorFlag info.item.flags = false := Bool.eq_false_iff.mpr hflag
      have hmonitors : d.registry.monitors = w.dispatcher.registry.monitors := by
        rw [hreg, Registry.erase]
        exact if_neg hflag
      have hkeys : w.session ∈ d.monitors.keys ↔ w.session ∈ w.dispatcher.monitors.keys := by
        rw [Dispatcher.mem_monitors_iff, Dispatcher.mem_monitors_iff, hmonitors]
      by_cases hkey : w.session ∈ w.dispatcher.monitors.keys
      · rw [if_pos hkey]
        obtain ⟨_, hclient⟩ := hd.sorted.deref_client hitem hordinary
        have hclients : d.registry.clients =
            Function.update w.dispatcher.registry.clients sender none := by
          rw [hreg, Registry.erase]
          exact if_neg hflag
        have hitems : w.dispatcher.items.Perm (info.item :: d.items) := by
          have hgone : d.registry.clients sender = none := by rw [hclients, Function.update_self]
          apply Dispatcher.items_perm_cons hgone
          rw [hclients, Function.update_idem, ← hclient, Function.update_eq_self]
        constructor
        · intro hagree info' hinfo _ hwatch
          cases hinfo
          exact (eraseP_perm_iff ((h hwatch).trans hitems)).mp (hagree ⟨hwatch.1, hkeys.mpr hkey⟩)
        · rintro hfind ⟨hlisted, _⟩
          exact (eraseP_perm_iff ((h ⟨hlisted, hkey⟩).trans hitems)).mpr
            (hfind info rfl hordinary ⟨hlisted, hkey⟩)
      · rw [if_neg hkey]
        refine iff_of_true ?_ fun _ _ _ hwatch => absurd hwatch.2 hkey
        exact fun hwatch => absurd (hkeys.mp hwatch.2) hkey

theorem step_agrees_iff (hsize : e.Sized) {act : Action} (h : w.Agrees) (hd : Regular w.dispatcher)
    (hstep : step e w act = some w') : w'.Agrees ↔ Tracked e w act := by
  cases act with
  | reconnect a =>
    simp only [step] at hstep
    split at hstep
    · cases hstep
      exact iff_of_true (fun hwatch => absurd hwatch.1 Bool.false_ne_true) trivial
    · cases hstep
  | dispatch act =>
    obtain ⟨d, hd', hfits, rfl⟩ := step_dispatch hsize hstep
    have hreg := Dispatcher.step_registry hd'
    cases act with
    | msg caps sender now done =>
      simp only [Dispatcher.notices, Dispatcher.registryAfter, Tracked] at hreg hfits ⊢
      cases hreq : w.dispatcher.handledAuth caps sender with
      | none =>
        rw [hreq] at hreg
        refine iff_of_true (h.quiet (by rw [hreg]; rfl) (by rw [hreg]; exact id)) ?_
        intro req hsome
        cases hsome
      | some req =>
        rw [hreq] at hreg hfits
        have hcases := Dispatcher.registry_authenticate_cases (e := e) req sender w.dispatcher
        rw [Dispatcher.registry_authenticate, ← Registry.handle, ← hreg] at hcases
        simp only [Option.elim_some, Option.some.injEq, forall_eq'] at hfits ⊢
        by_cases hadmitted : w.dispatcher.admits e req = true
        · rw [if_pos hadmitted] at hcases
          simp only [hadmitted, true_implies]
          by_cases hmon : hasMonitorFlag req.flags = true
          · rw [if_pos hmon] at hcases ⊢
            exact agrees_enrolMonitor_iff hsize h hadmitted hmon hcases hfits
          · rw [if_neg hmon] at hcases ⊢
            exact agrees_enrolClient_iff h hd hreq hadmitted hmon hcases
        · rw [if_neg hadmitted] at hcases
          have hfailed : w.dispatcher.authNotices e w.session req sender = [] :=
            if_neg fun hres => hadmitted ((Dispatcher.authenticate_result req sender _).mp hres)
          rw [hfailed]
          exact iff_of_true (h.quiet (by rw [hcases]) (by rw [hcases]; exact id))
            fun hyes => absurd hyes hadmitted
    | erase sender now => exact agrees_erase_iff h hd hreg
    | expire tp => exact iff_of_true (h.quiet (by rw [hreg]; rfl) (by rw [hreg]; exact id)) trivial
    | close a => exact iff_of_true (h.quiet (by rw [hreg]; rfl) (by rw [hreg]; exact id)) trivial
    | destroy a => exact iff_of_true (h.quiet (by rw [hreg]; rfl) (by rw [hreg]; exact id)) trivial

/-- Along a run, the view agrees with the dispatcher in every state exactly when every step is
tracked. -/
theorem agrees_run_iff (hsize : e.Sized) {w₀ : Watch} {acts : List Action} (h₀ : Initial w₀)
    (hrun : execute (step e) w₀ acts = some w) :
    (∀ bs w', bs <+: acts → execute (step e) w₀ bs = some w' → w'.Agrees) ↔
      ((system e).guard (Tracked e)).Run w₀ acts w := by
  have hregular : Regular w₀.dispatcher := by
    obtain ⟨adapters, hd, _⟩ := h₀.1
    rw [hd]
    exact ⟨⟨⟨nofun, nofun⟩, fun a ha => absurd rfl ha⟩, fun a ha => absurd rfl ha⟩
  have hagrees : w₀.Agrees := by
    rintro ⟨hlisted, _⟩
    rw [h₀.2] at hlisted
    cases hlisted
  have keep {s t : Watch} {act : Action} (hs : Regular s.dispatcher) (hst : step e s act = some t) :
      Regular t.dispatcher := by
    cases act with
    | reconnect a =>
      simp only [step] at hst
      split at hst
      · cases hst
        exact hs
      · cases hst
    | dispatch act =>
      obtain ⟨d, hd, _, rfl⟩ := step_dispatch hsize hst
      exact hs.step hd
  apply execute_guard_iff (I := fun w => w.Agrees ∧ Regular w.dispatcher) _ _ _
    ⟨hagrees, hregular⟩ hrun
  · exact fun s hs => hs.1
  · exact fun s t act _ hs hst hG =>
      ⟨(step_agrees_iff hsize hs.1 hs.2 hst).mpr hG, keep hs.2 hst⟩
  · exact fun s t act _ hs hst hP => (step_agrees_iff hsize hs.1 hs.2 hst).mp hP

theorem sampleEnv_sized : Dispatcher.sampleEnv.Sized where
  members _ caps := by
    change caps.length ≤ 64 * caps.length
    omega
  auth _ _ := rfl

/-- A client, the monitor, another client; the first client leaves. -/
def sampleRun : List Action :=
  [.dispatch (Dispatcher.sampleAuth 0 "a" 0), .dispatch (Dispatcher.sampleAuth 1 "mon" 1),
    .dispatch (Dispatcher.sampleAuth 2 "b" 0), .dispatch (.erase 0 0)]

theorem agrees_run_sample : ∃ w, execute (step Dispatcher.sampleEnv) ⟨{}, 1, {}⟩ sampleRun = some w ∧
    w.view.floraClients = [⟨3, 1, "b", 0⟩] ∧
    ((∀ bs w', bs <+: sampleRun →
        execute (step Dispatcher.sampleEnv) ⟨{}, 1, {}⟩ bs = some w' → w'.Agrees) ↔
      ((system Dispatcher.sampleEnv).guard (Tracked Dispatcher.sampleEnv)).Run ⟨{}, 1, {}⟩
        sampleRun w) := by
  obtain ⟨w, hw, hview⟩ : ∃ w, execute (step Dispatcher.sampleEnv) ⟨{}, 1, {}⟩ sampleRun = some w ∧
      w.view.floraClients = [⟨3, 1, "b", 0⟩] := ⟨_, rfl, rfl⟩
  exact ⟨w, hw, hview, agrees_run_iff sampleEnv_sized ⟨Dispatcher.initial_default, rfl⟩ hw⟩

/-- A second session appends the list to the one of the first, and a client that authenticates
again is added again. -/
theorem agrees_fails_second_session :
    (∃ w, execute (step Dispatcher.sampleEnv) ⟨{}, 1, {}⟩
      [.dispatch (Dispatcher.sampleAuth 0 "a" 0), .dispatch (Dispatcher.sampleAuth 1 "mon" 1),
        .reconnect 2, .dispatch (Dispatcher.sampleAuth 2 "mon" 1)] = some w ∧ ¬ w.Agrees) ∧
    ∃ w, execute (step Dispatcher.sampleEnv) ⟨{}, 1, {}⟩
      [.dispatch (Dispatcher.sampleAuth 0 "a" 0), .dispatch (Dispatcher.sampleAuth 1 "mon" 1),
        .dispatch (Dispatcher.sampleAuth 0 "" 0)] = some w ∧ ¬ w.Agrees := by
  have longer {w : Watch} (hwatch : w.watching) (hview : w.view.floraClients.length = 2)
      (hitems : w.dispatcher.items.length = 1) : ¬ w.Agrees := by
    intro hagree
    have hlength := (hagree hwatch).length_eq
    omega
  constructor
  · exact ⟨_, rfl, longer ⟨rfl, List.mem_cons_self⟩ rfl rfl⟩
  · exact ⟨_, rfl, longer ⟨rfl, List.mem_cons_self⟩ rfl rfl⟩

end Watch

end Flora
