import Flora.Agent.State

/-! # Handler maps and what the service holds

The four name functions change a map under the lock and send the request for it outside, and
`init_cli` walks the maps without the lock before `flora_cli` is published. Map and service agree
again in every quiet state if a name is not changed behind the walk, and if the requests of two
calls about one name are sent in the order of their sections. -/

namespace Flora

open TransitionSystem

def Request.about (kind : Kind) (name : String) (r : Request) : Bool :=
  decide (r.kind = kind) && decide (r.name = name)

theorem Request.about_iff {kind : Kind} {name : String} {r : Request} :
    r.about kind name = true ↔ r.kind = kind ∧ r.name = name := by
  simp [about]

namespace View

/-- Whether the name is held once the requests have been handled. -/
def settled (v : View) (rs : List Request) (kind : Kind) (name : String) : Bool :=
  match (rs.filter (Request.about kind name)).getLast? with
  | some r => r.add
  | none => decide (name ∈ v.names kind)

theorem settled_congr {v : View} {rs rs' : List Request} {kind : Kind} {name : String}
    (h : rs'.filter (Request.about kind name) = rs.filter (Request.about kind name)) :
    v.settled rs' kind name = v.settled rs kind name := by
  rw [settled, settled, h]

theorem settled_append (v : View) (rs : List Request) (r : Request) (kind : Kind) (name : String) :
    v.settled (rs ++ [r]) kind name =
      if r.about kind name then r.add else v.settled rs kind name := by
  by_cases hr : r.about kind name = true
  · simp [settled, List.filter_append, hr]
  · simp [settled, List.filter_append, hr]

theorem settled_handle {v v' : View} {r : Request} (h : v.handle r = some v') (rs : List Request)
    (kind : Kind) (name : String) : v'.settled rs kind name = v.settled (r :: rs) kind name := by
  have hnames := mem_names_handle h kind name
  by_cases hr : r.about kind name = true
  · rw [if_pos (Request.about_iff.mp hr)] at hnames
    simp only [settled, List.filter_cons, hr, if_true]
    cases hrest : rs.filter (Request.about kind name) with
    | nil => simp [hnames]
    | cons x xs => rw [List.getLast?_cons_cons, List.getLast?_cons]
  · rw [if_neg fun hall => hr (Request.about_iff.mpr hall)] at hnames
    simp only [settled, List.filter_cons, hr, hnames]
    rfl

end View

/-- The walk of `init_cli` has been past the name, or is over. -/
def RunPc.visited : RunPc → Kind → String → Bool
  | .authed _, _, _ => false
  | .initPosts _ last, .post, name => last.any (name ≤ ·)
  | .initPosts _ _, .call, _ => false
  | .initCalls _ _, .post, _ => true
  | .initCalls _ last, .call, name => last.any (name ≤ ·)
  | _, _, _ => true

namespace Agent

variable {o : Options} {s s' : Agent} {c : Nat}

/-- The requests that calls in progress will send to the client. -/
def callsFor (s : Agent) (c : Nat) : List Request :=
  (s.calls.filter fun p => p.2 = c).map Prod.fst

/-- The requests about the name can be sent. -/
def Sendable (o : Options) (kind : Kind) (name : String) : Prop :=
  o.monitor = false ∧ o.fits ⟨kind, true, name⟩ = true ∧ o.fits ⟨kind, false, name⟩ = true

structure Synced (o : Options) (s : Agent) : Prop where
  fresh : ∀ c, s.connected ≤ c → s.links c = {}
  captured : ∀ p ∈ s.calls, p.2 < s.connected ∧ s.pc.initializing ≠ some p.2 ∧
    o.monitor = false ∧ o.fits p.1 = true
  closing : ∀ c ∈ s.closing, c < s.connected
  initializing : ∀ c, s.pc.initializing = some c → c < s.connected
  published : ∀ c, s.floraCli = some c → c < s.connected ∧ (s.pc = .waiting c ∨ s.pc = .woken c)
  sendable : ∀ kind, ∀ name ∈ s.handlers kind, Sendable o kind name
  settled : ∀ c, s.pc.initializing = some c ∨ s.floraCli = some c → (s.links c).up = true →
    ∀ kind name, (s.links c).view.settled ((s.links c).requests ++ s.callsFor c) kind name =
      (decide (name ∈ s.handlers kind) && s.pc.visited kind name)

theorem Synced.visited_published (h : Synced o s) (hc : s.floraCli = some c) (kind : Kind)
    (name : String) : s.pc.visited kind name = true := by
  rcases (h.published c hc).2 with hpc | hpc <;> rw [hpc] <;> rfl

theorem Synced.not_initializing (h : Synced o s) (hc : s.floraCli = some c) :
    s.pc.initializing = none := by
  rcases (h.published c hc).2 with hpc | hpc <;> rw [hpc] <;> rfl

theorem Synced.unpublished (h : Synced o s) (hc : s.pc.initializing = some c) :
    s.floraCli = none := by
  rw [Option.eq_none_iff_forall_ne_some]
  intro x hx
  cases (h.not_initializing hx).symm.trans hc

theorem Synced.congr (h : Synced o s) (hhandlers : ∀ kind, s'.handlers kind = s.handlers kind)
    (hcalls : s'.calls = s.calls) (hconnected : s'.connected = s.connected)
    (hclosing : ∀ c ∈ s'.closing, c ∈ s.closing)
    (hflora : ∀ c, s'.floraCli = some c → s.floraCli = some c ∧ (s'.pc = .waiting c ∨ s'.pc = .woken c))
    (hinit : ∀ c, s'.pc.initializing = some c → s.pc.initializing = some c ∧
      ∀ kind, ∀ name ∈ s.handlers kind, s'.pc.visited kind name = s.pc.visited kind name)
    (hlinks : ∀ c, s'.links c = s.links c ∨ (c < s.connected ∧ ((s'.links c).up = false ∨
      ((s'.links c).up = (s.links c).up ∧ (s'.links c).view = (s.links c).view ∧
        (s'.links c).requests = (s.links c).requests)))) : Synced o s' where
  fresh c hc := by
    rw [hconnected] at hc
    obtain heq | ⟨hlt, -⟩ := hlinks c
    · rw [heq]
      exact h.fresh c hc
    · omega
  captured p hp := by
    rw [hcalls] at hp
    obtain ⟨hlt, hne, hsend⟩ := h.captured p hp
    exact ⟨by rw [hconnected]; exact hlt, fun heq => hne (hinit _ heq).1, hsend⟩
  closing c hc := by
    rw [hconnected]
    exact h.closing c (hclosing c hc)
  initializing c hc := by
    rw [hconnected]
    exact h.initializing c (hinit c hc).1
  published c hc := by
    rw [hconnected]
    exact ⟨(h.published c (hflora c hc).1).1, (hflora c hc).2⟩
  sendable kind name hname := by
    rw [hhandlers] at hname
    exact h.sendable kind name hname
  settled c hc hup kind name := by
    have hold : s.pc.initializing = some c ∨ s.floraCli = some c :=
      hc.imp (fun heq => (hinit c heq).1) fun heq => (hflora c heq).1
    have hvisited (hname : name ∈ s.handlers kind) :
        s'.pc.visited kind name = s.pc.visited kind name := by
      obtain heq | heq := hc
      · exact (hinit c heq).2 kind name hname
      · rw [h.visited_published (hflora c heq).1]
        rcases (hflora c heq).2 with hpc | hpc <;> rw [hpc] <;> rfl
    have hview : (s.links c).up = true ∧ (s'.links c).view = (s.links c).view ∧
        (s'.links c).requests = (s.links c).requests := by
      obtain heq | ⟨-, hdown | ⟨hsame, hrest⟩⟩ := hlinks c
      · rw [heq] at hup
        rw [heq]
        exact ⟨hup, rfl, rfl⟩
      · rw [hdown] at hup
        cases hup
      · exact ⟨hsame.symm.trans hup, hrest⟩
    rw [hview.2.1, hview.2.2, hhandlers, callsFor, hcalls]
    refine (h.settled c hold hview.1 kind name).trans ?_
    by_cases hname : name ∈ s.handlers kind
    · rw [hvisited hname]
    · rw [decide_eq_false hname, Bool.false_and, Bool.false_and]

/-- The steps at which nothing gets behind: a name is changed in front of the walk of `init_cli`
only, and no call overtakes an earlier one about the same name on its way to the client. -/
def InTurn (o : Options) (s : Agent) : Action → Prop
  | .addHandler kind name => name ∉ s.handlers kind → Sendable o kind name ∧
    (s.pc.initializing ≠ none → s.pc.visited kind name = false)
  | .removeHandler kind name => name ∈ s.handlers kind →
    s.pc.initializing ≠ none → s.pc.visited kind name = false
  | .request n => ∀ q, s.calls[n]? = some q → ∀ p ∈ s.calls.take n, p.2 = q.2 →
    q.1.about p.1.kind p.1.name = false
  | .close => s.working = true → s.pc.initializing ≠ none →
    ∀ kind, ∀ name ∈ s.handlers kind, s.pc.visited kind name = false
  | _ => True

theorem change_fields (r : Request) (keys : List String) (cli : Option Nat) {t : Agent}
    (ht : (s.setHandlers r.kind keys).enter r cli = t) :
    (t.links = s.links ∧ t.connected = s.connected ∧ t.closing = s.closing ∧
      t.floraCli = s.floraCli ∧ t.pc = s.pc) ∧
    t.calls = s.calls ++ cli.toList.map (Prod.mk r) ∧
    ∀ kind, t.handlers kind = if kind = r.kind then keys else s.handlers kind := by
  subst ht
  obtain ⟨kind, add, name⟩ := r
  cases cli with
  | none =>
    refine ⟨?_, ?_, fun kind' => ?_⟩
    · cases kind <;> exact ⟨rfl, rfl, rfl, rfl, rfl⟩
    · cases kind <;> exact (List.append_nil _).symm
    · cases kind <;> cases kind' <;> rfl
  | some c =>
    refine ⟨?_, ?_, fun kind' => ?_⟩
    · cases kind <;> exact ⟨rfl, rfl, rfl, rfl, rfl⟩
    · cases kind <;> rfl
    · cases kind <;> cases kind' <;> rfl

theorem mem_handlers_change {r : Request} {keys : List String} {t : Agent}
    (hkeys : ∀ name, name ∈ keys ↔ if name = r.name then r.add = true else name ∈ s.handlers r.kind)
    (hhandlers : ∀ kind, t.handlers kind = if kind = r.kind then keys else s.handlers kind)
    (kind : Kind) (name : String) : name ∈ t.handlers kind ↔
      if r.about kind name then r.add = true else name ∈ s.handlers kind := by
  rw [hhandlers]
  by_cases hkind : kind = r.kind
  · subst hkind
    rw [if_pos rfl, hkeys]
    by_cases hname : name = r.name
    · simp [hname, Request.about]
    · simp [hname, Request.about, Ne.symm hname]
  · simp [hkind, Request.about, Ne.symm hkind]

/-- A map is changed at one name: by a call that goes on to the published client, or in front of the
walk, where nothing has been sent about the name. -/
theorem Synced.change (h : Synced o s) {r : Request} {keys : List String}
    (hkeys : ∀ name, name ∈ keys ↔ if name = r.name then r.add = true else name ∈ s.handlers r.kind)
    (hsend : Sendable o r.kind r.name)
    (hahead : s.pc.initializing ≠ none → s.pc.visited r.kind r.name = false) :
    Synced o ((s.setHandlers r.kind keys).enter r s.floraCli) := by
  have hr : o.fits r = true := by
    obtain ⟨kind, add, name⟩ := r
    cases add
    · exact hsend.2.2
    · exact hsend.2.1
  generalize ht : (s.setHandlers r.kind keys).enter r s.floraCli = t
  obtain ⟨⟨hlinks, hconnected, hclosing, hflora, hpc⟩, hcalls, hhandlers⟩ := change_fields _ _ _ ht
  have hmem := mem_handlers_change hkeys hhandlers
  have hsendable (kind : Kind) (name : String) (hname : name ∈ t.handlers kind) :
      Sendable o kind name := by
    rw [hmem] at hname
    split at hname
    · rename_i habout
      obtain ⟨rfl, rfl⟩ := Request.about_iff.mp habout
      exact hsend
    · exact h.sendable kind name hname
  have hother {kind : Kind} {name : String} (habout : ¬ r.about kind name = true) :
      decide (name ∈ t.handlers kind) = decide (name ∈ s.handlers kind) := by
    rw [decide_eq_decide, hmem, if_neg habout]
  refine ⟨?_, ?_, ?_, ?_, ?_, hsendable, ?_⟩
  · rw [hconnected, hlinks]
    exact h.fresh
  · intro p hp
    rw [hcalls] at hp
    rw [hconnected, hpc]
    obtain hp | hp := List.mem_append.mp hp
    · exact h.captured p hp
    · obtain ⟨c, hc, rfl⟩ := List.mem_map.mp hp
      have hcli : s.floraCli = some c := Option.mem_toList.mp hc
      refine ⟨(h.published c hcli).1, ?_, hsend.1, hr⟩
      rw [h.not_initializing hcli]
      nofun
  · rw [hclosing, hconnected]
    exact h.closing
  · rw [hpc, hconnected]
    exact h.initializing
  · rw [hflora, hconnected, hpc]
    exact h.published
  · intro c hc hup kind name
    rw [hpc, hflora] at hc
    rw [hlinks] at hup
    have hold := h.settled c hc hup kind name
    rw [hlinks, hpc]
    obtain hinit | hcli := hc
    · -- in front of the walk nothing is settled about the name
      have hsame : t.callsFor c = s.callsFor c := by
        rw [callsFor, hcalls, h.unpublished hinit]
        simp [callsFor]
      rw [hsame, hold]
      by_cases habout : r.about kind name = true
      · obtain ⟨rfl, rfl⟩ := Request.about_iff.mp habout
        rw [hahead (by rw [hinit]; nofun), Bool.and_false, Bool.and_false]
      · rw [hother habout]
    · -- the request of the call is the last about the name
      have hsame : t.callsFor c = s.callsFor c ++ [r] := by
        simp [callsFor, hcalls, hcli]
      rw [hsame, ← List.append_assoc, View.settled_append]
      by_cases habout : r.about kind name = true
      · rw [if_pos habout, h.visited_published hcli, Bool.and_true]
        have hiff := hmem kind name
        rw [if_pos habout] at hiff
        rw [Bool.eq_iff_iff, decide_eq_true_iff]
        exact hiff.symm
      · rw [if_neg habout, hold, hother habout]

theorem Synced.addHandler (h : Synced o s) {kind : Kind} {name : String}
    (hturn : InTurn o s (.addHandler kind name)) : Synced o (s.addHandler kind name) := by
  unfold Agent.addHandler
  split
  · exact h
  · rename_i hnew
    obtain ⟨hsend, hahead⟩ := hturn hnew
    refine h.change (r := ⟨kind, true, name⟩) (fun name' => ?_) hsend hahead
    by_cases hname : name' = name
    · simp [hname]
    · simp [hname]

theorem Synced.removeHandler (h : Synced o s) {kind : Kind} {name : String}
    (hturn : InTurn o s (.removeHandler kind name)) : Synced o (s.removeHandler kind name) := by
  unfold Agent.removeHandler
  split
  · rename_i hin
    refine h.change (r := ⟨kind, false, name⟩) (fun name' => ?_) (h.sendable kind name hin)
      (hturn hin)
    by_cases hname : name' = name
    · simp [hname]
    · simp [hname]
  · exact h

theorem send_fields {r : Request} (hmonitor : o.monitor = false) (hfits : o.fits r = true)
    {t : Agent} (ht : s.send o c r = t) :
    ((∀ kind, t.handlers kind = s.handlers kind) ∧ t.connected = s.connected ∧
      t.closing = s.closing ∧ t.floraCli = s.floraCli ∧ t.pc = s.pc ∧ t.calls = s.calls) ∧
    (∀ x, x ≠ c → t.links x = s.links x) ∧
    ((t.links c).up = true → (s.links c).up = true ∧ (t.links c).view = (s.links c).view ∧
      (t.links c).requests = (s.links c).requests ++ [r]) := by
  subst ht
  by_cases hup : (s.links c).up = true
  · have hsent : s.send o c r =
        s.setLink c { s.links c with requests := (s.links c).requests ++ [r] } := by
      simp [send, hmonitor, hfits, hup]
    rw [hsent]
    refine ⟨⟨?_, rfl, rfl, rfl, rfl, rfl⟩, fun x hx => ?_, fun _ => ?_⟩
    · intro kind
      cases kind <;> rfl
    · rw [setLink_links, if_neg hx]
    · rw [setLink_links, if_pos rfl]
      exact ⟨hup, rfl, rfl⟩
  · have hlost : s.send o c r = s := by
      simp [send, hup]
    rw [hlost]
    exact ⟨⟨fun _ => rfl, rfl, rfl, rfl, rfl, rfl⟩, fun _ _ => rfl, fun hup' => absurd hup' hup⟩

theorem filter_about_move {A B : List Request} {r : Request} {kind : Kind} {name : String}
    (h : ∀ p ∈ A, r.about p.kind p.name = false) :
    (A ++ r :: B).filter (Request.about kind name) =
      (r :: (A ++ B)).filter (Request.about kind name) := by
  by_cases hr : r.about kind name = true
  · have hA : A.filter (Request.about kind name) = [] := by
      rw [List.filter_eq_nil_iff]
      intro p hp habout
      obtain ⟨rfl, rfl⟩ := Request.about_iff.mp habout
      rw [h p hp] at hr
      cases hr
    simp [hA, hr]
  · simp [hr]

theorem Synced.request (h : Synced o s) {n : Nat} {q : Request × Nat} (hq : s.calls[n]? = some q)
    (hturn : InTurn o s (.request n)) :
    Synced o (({ s with calls := s.calls.eraseIdx n } : Agent).send o q.2 q.1) := by
  obtain ⟨hlt, hne, hmonitor, hfits⟩ := h.captured q (List.mem_of_getElem? hq)
  generalize ht : ({ s with calls := s.calls.eraseIdx n } : Agent).send o q.2 q.1 = t
  obtain ⟨⟨hhandlers, hconnected, hclosing, hflora, hpc, hcalls⟩, hothers, hsent⟩ :=
    send_fields hmonitor hfits ht
  dsimp only at hconnected hclosing hflora hpc hcalls hothers hsent
  refine ⟨fun x hx => ?_, fun p hp => ?_, ?_, ?_, ?_, ?_, ?_⟩
  · rw [hconnected] at hx
    rw [hothers x (by omega)]
    exact h.fresh x hx
  · rw [hcalls] at hp
    rw [hconnected, hpc]
    exact h.captured p (List.mem_of_mem_eraseIdx hp)
  · rw [hclosing, hconnected]
    exact h.closing
  · rw [hpc, hconnected]
    exact h.initializing
  · rw [hflora, hconnected, hpc]
    exact h.published
  · intro kind name hname
    rw [hhandlers] at hname
    exact h.sendable kind name hname
  · intro x hx hup kind name
    rw [hpc, hflora] at hx
    rw [hpc, hhandlers]
    change _ = (decide (name ∈ s.handlers kind) && s.pc.visited kind name)
    have hsplit : s.calls = s.calls.take n ++ q :: s.calls.drop (n + 1) := by
      obtain ⟨hn, hget⟩ := List.getElem?_eq_some_iff.mp hq
      rw [← hget, ← List.drop_eq_getElem_cons, List.take_append_drop]
    have hrest : t.callsFor x = ((s.calls.take n).filter fun p => p.2 = x).map Prod.fst ++
        ((s.calls.drop (n + 1)).filter fun p => p.2 = x).map Prod.fst := by
      rw [callsFor, hcalls, List.eraseIdx_eq_take_drop_succ, List.filter_append, List.map_append]
    by_cases hxq : x = q.2
    · -- the request overtakes no request about its name
      subst hxq
      obtain ⟨hup, hview, hrequests⟩ := hsent hup
      rw [← h.settled q.2 hx hup kind name, hview]
      apply View.settled_congr
      have hall : s.callsFor q.2 =
          ((s.calls.take n).filter fun p => p.2 = q.2).map Prod.fst ++
            q.1 :: ((s.calls.drop (n + 1)).filter fun p => p.2 = q.2).map Prod.fst := by
        rw [callsFor]
        conv_lhs => rw [hsplit]
        simp
      rw [hrest, hall, hrequests, List.append_assoc, List.filter_append,
        List.filter_append (s.links q.2).requests, List.singleton_append]
      congr 1
      refine (filter_about_move fun p hp => ?_).symm
      obtain ⟨p', hp', rfl⟩ := List.mem_map.mp hp
      obtain ⟨hin, hsame⟩ := List.mem_filter.mp hp'
      exact hturn q hq p' hin (of_decide_eq_true hsame)
    · rw [hothers x hxq] at hup ⊢
      have hsame : t.callsFor x = s.callsFor x := by
        rw [hrest, callsFor]
        conv_rhs => rw [hsplit]
        simp [Ne.symm hxq]
      rw [hsame]
      exact h.settled x hx hup kind name

theorem Synced.setLink (h : Synced o s) (hc : c < s.connected) {l : Link}
    (hl : l.up = false ∨ (l.up = (s.links c).up ∧ l.view = (s.links c).view ∧
      l.requests = (s.links c).requests)) : Synced o (s.setLink c l) := by
  refine h.congr (fun kind => ?_) rfl rfl (fun _ hx => hx) (fun x hx => ⟨hx, (h.published x hx).2⟩)
    (fun x hx => ⟨hx, fun _ _ _ => rfl⟩) fun x => ?_
  · cases kind <;> rfl
  · rw [setLink_links]
    split
    · rename_i hx
      subst hx
      exact .inr ⟨hc, hl⟩
    · exact .inl rfl

theorem Synced.setPc (h : Synced o s) {pc : RunPc} {cli : Option Nat}
    (hflora : ∀ c, cli = some c → s.floraCli = some c ∧ (pc = .waiting c ∨ pc = .woken c))
    (hinit : ∀ c, pc.initializing = some c → s.pc.initializing = some c ∧
      ∀ kind, ∀ name ∈ s.handlers kind, pc.visited kind name = s.pc.visited kind name) :
    Synced o { s with pc := pc, floraCli := cli } := by
  refine h.congr (fun kind => ?_) rfl rfl (fun _ hx => hx) hflora hinit fun _ => .inl rfl
  cases kind <;> rfl

theorem Synced.floraCli_none (h : Synced o s) (hwait : ∀ c, s.pc ≠ .waiting c)
    (hwoken : ∀ c, s.pc ≠ .woken c) : s.floraCli = none := by
  rw [Option.eq_none_iff_forall_ne_some]
  intro x hx
  obtain heq | heq := (h.published x hx).2
  · exact hwait x heq
  · exact hwoken x heq

theorem Synced.idle (h : Synced o s) {pc : RunPc} (hwait : ∀ c, s.pc ≠ .waiting c)
    (hwoken : ∀ c, s.pc ≠ .woken c) (hinit : pc.initializing = none) :
    Synced o { s with pc := pc } := by
  refine h.setPc (fun x hx => ?_) fun x hx => ?_
  · rw [h.floraCli_none hwait hwoken] at hx
    cases hx
  · cases hinit.symm.trans hx

theorem Synced.notify (h : Synced o s) : Synced o s.notify := by
  unfold Agent.notify
  split
  · rename_i c hpc
    refine h.setPc (fun x hx => ?_) nofun
    obtain heq | heq := (h.published x hx).2
    · cases hpc.symm.trans heq
      exact ⟨hx, .inr rfl⟩
    · cases hpc.symm.trans heq
  · rename_i hpc
    refine h.setPc (fun x hx => ?_) nofun
    obtain heq | heq := (h.published x hx).2
    · cases hpc.symm.trans heq
    · cases hpc.symm.trans heq
  · exact h

theorem Synced.setCallback (h : Synced o s) (hpc : s.pc = .authed c) :
    Synced o { s.setLink c { s.links c with callback := true } with pc := .initPosts c none } := by
  have hlt : c < s.connected := h.initializing c (by rw [hpc]; rfl)
  have hset : Synced o (s.setLink c { s.links c with callback := true }) :=
    h.setLink hlt (.inr ⟨rfl, rfl, rfl⟩)
  refine hset.setPc (fun x hx => ?_) fun x hx => ⟨?_, fun kind name _ => ?_⟩
  · have hnone : s.floraCli = none := h.unpublished (by rw [hpc]; rfl)
    cases hnone.symm.trans hx
  · change s.pc.initializing = some x
    rw [hpc]
    exact hx
  · change _ = s.pc.visited kind name
    rw [hpc]
    cases kind <;> rfl

section Walk

variable {keys : List String} {last : Option String} {name : String}

theorem not_all_lt_iff {k : String} : ¬ last.all (· < k) = true ↔ last.any (k ≤ ·) = true := by
  cases last with
  | none => simp
  | some l =>
    rw [Option.all_some, Option.any_some, decide_eq_true_iff, decide_eq_true_iff, not_lt]

theorem any_le_next (h : isNext keys last name = true) {k : String} (hk : k ∈ keys) :
    (some name).any (k ≤ ·) = (decide (name = k) || last.any (k ≤ ·)) := by
  simp only [isNext, Bool.and_eq_true, List.all_eq_true, decide_eq_true_eq] at h
  obtain ⟨⟨_, hlast⟩, hbetween⟩ := h
  rw [Option.any_some, Bool.eq_iff_iff, Bool.or_eq_true, decide_eq_true_iff, decide_eq_true_iff]
  constructor
  · intro hle
    obtain heq | hlt := hle.eq_or_lt
    · exact .inl heq.symm
    · exact .inr (not_all_lt_iff.mp (hbetween k hk hlt))
  · rintro (rfl | hany)
    · exact le_rfl
    · cases last with
      | none => cases hany
      | some l =>
        have hkl : k ≤ l := of_decide_eq_true hany
        have hln : l < name := of_decide_eq_true hlast
        exact (hkl.trans_lt hln).le

theorem mem_of_isNext (h : isNext keys last name = true) : name ∈ keys := by
  simp only [isNext, Bool.and_eq_true, decide_eq_true_eq] at h
  exact h.1.1

theorem any_le_of_atEnd (h : atEnd keys last = true) {k : String} (hk : k ∈ keys) :
    last.any (k ≤ ·) = true := by
  simp only [atEnd, List.all_eq_true, decide_eq_true_eq] at h
  exact not_all_lt_iff.mp (h k hk)

end Walk

theorem callsFor_eq_nil (h : ∀ p ∈ s.calls, p.2 ≠ c) : s.callsFor c = [] := by
  rw [callsFor, List.map_eq_nil_iff, List.filter_eq_nil_iff]
  exact fun p hp heq => h p hp (of_decide_eq_true heq)

theorem Synced.callsFor_initializing (h : Synced o s) (hc : s.pc.initializing = some c) :
    s.callsFor c = [] := by
  apply callsFor_eq_nil
  rintro p hp rfl
  exact (h.captured p hp).2.1 hc

theorem Synced.walkTo (h : Synced o s) (hc : s.pc.initializing = some c) {kind : Kind}
    {name : String} (hname : name ∈ s.handlers kind) {pc : RunPc} (hpc : pc.initializing = some c)
    (hvisited : ∀ kind', ∀ name' ∈ s.handlers kind', pc.visited kind' name' =
      (Request.about kind' name' ⟨kind, true, name⟩ || s.pc.visited kind' name')) :
    Synced o { s.send o c ⟨kind, true, name⟩ with pc := pc } := by
  obtain ⟨hmonitor, hfits, _⟩ := h.sendable kind name hname
  generalize ht : s.send o c ⟨kind, true, name⟩ = t
  obtain ⟨⟨hhandlers, hconnected, hclosing, hflora, _, hcalls⟩, hothers, hsent⟩ :=
    send_fields hmonitor hfits ht
  have hlt := h.initializing c hc
  have hnone : s.floraCli = none := h.unpublished hc
  refine ⟨fun x hx => ?_, fun p hp => ?_, ?_, fun x hx => ?_, fun x hx => ?_, ?_, ?_⟩
  · have hx : t.connected ≤ x := hx
    rw [hconnected] at hx
    change t.links x = {}
    rw [hothers x (by omega)]
    exact h.fresh x hx
  · have hp : p ∈ t.calls := hp
    rw [hcalls] at hp
    change p.2 < t.connected ∧ pc.initializing ≠ some p.2 ∧ _
    rw [hconnected, hpc, ← hc]
    exact h.captured p hp
  · change ∀ x ∈ t.closing, x < t.connected
    rw [hclosing, hconnected]
    exact h.closing
  · cases hpc.symm.trans hx
    change c < t.connected
    rw [hconnected]
    exact hlt
  · cases (hflora.trans hnone).symm.trans hx
  · intro kind' name' hname'
    exact h.sendable kind' name' (hhandlers kind' ▸ hname')
  · intro x hx hup kind' name'
    have hxc : x = c := by
      obtain heq | heq := hx
      · exact Option.some.inj (heq.symm.trans hpc)
      · cases (hflora.trans hnone).symm.trans heq
    subst hxc
    obtain ⟨hup, hview, hrequests⟩ := hsent hup
    change (t.links x).view.settled ((t.links x).requests ++ t.callsFor x) kind' name' =
      (decide (name' ∈ t.handlers kind') && pc.visited kind' name')
    have hold := h.settled x (.inl hc) hup kind' name'
    rw [h.callsFor_initializing hc, List.append_nil] at hold
    rw [hview, hrequests, callsFor, hcalls, ← callsFor, h.callsFor_initializing hc,
      List.append_nil, View.settled_append, hold, hhandlers]
    by_cases hin : name' ∈ s.handlers kind'
    · rw [hvisited kind' name' hin, decide_eq_true hin, Bool.true_and, Bool.true_and]
      cases Request.about kind' name' ⟨kind, true, name⟩ <;> rfl
    · rw [decide_eq_false hin, Bool.false_and, Bool.false_and, if_neg]
      intro habout
      obtain ⟨rfl, rfl⟩ := Request.about_iff.mp habout
      exact hin hname

theorem Synced.walk (h : Synced o s) {name : String} (hst : s.walk o name = some s') :
    Synced o s' := by
  obtain ⟨c, last, hpc, hnext, rfl⟩ | ⟨c, last, hpc, hnext, rfl⟩ := walk_cases hst
  · have hname : name ∈ s.handlers .post := mem_of_isNext hnext
    refine h.walkTo (by rw [hpc]; rfl) hname rfl fun kind' name' hin => ?_
    rw [hpc]
    cases kind' with
    | post =>
      refine (any_le_next hnext hin).trans ?_
      simp [RunPc.visited, Request.about]
    | call => rfl
  · have hname : name ∈ s.handlers .call := mem_of_isNext hnext
    refine h.walkTo (by rw [hpc]; rfl) hname rfl fun kind' name' hin => ?_
    rw [hpc]
    cases kind' with
    | post => exact (Bool.or_true _).symm
    | call =>
      refine (any_le_next hnext hin).trans ?_
      simp [RunPc.visited, Request.about]

theorem Synced.walkEnd (h : Synced o s) (hst : s.walkEnd = some s') : Synced o s' := by
  obtain ⟨c, last, hpc, hend, rfl⟩ | ⟨c, last, hpc, hend, rfl⟩ := walkEnd_cases hst
  · refine h.setPc (fun x hx => ?_) fun x hx => ⟨by rw [hpc]; exact hx, fun kind name hin => ?_⟩
    · have hnone : s.floraCli = none := h.unpublished (by rw [hpc]; rfl)
      cases hnone.symm.trans hx
    · rw [hpc]
      cases kind with
      | post => exact (any_le_of_atEnd hend hin).symm
      | call => rfl
  · refine h.setPc (fun x hx => ?_) fun x hx => ⟨by rw [hpc]; exact hx, fun kind name hin => ?_⟩
    · have hnone : s.floraCli = none := h.unpublished (by rw [hpc]; rfl)
      cases hnone.symm.trans hx
    · rw [hpc]
      cases kind with
      | post => rfl
      | call => exact (any_le_of_atEnd hend hin).symm

theorem Synced.publish (h : Synced o s) (hpc : s.pc = .publishing c) :
    Synced o { s with floraCli := some c, pc := .waiting c } := by
  have hinit : s.pc.initializing = some c := by
    rw [hpc]
    rfl
  refine ⟨h.fresh, fun p hp => ?_, h.closing, nofun, fun x hx => ?_, h.sendable, ?_⟩
  · obtain ⟨hlt, _, hsend⟩ := h.captured p hp
    exact ⟨hlt, nofun, hsend⟩
  · cases hx
    exact ⟨h.initializing c hinit, .inl rfl⟩
  · intro x hx hup kind name
    have hxc : x = c := by
      obtain heq | heq := hx
      · cases heq
      · exact (Option.some.inj heq).symm
    subst hxc
    have hold := h.settled x (.inl hinit) hup kind name
    rw [hpc] at hold
    exact hold

theorem Synced.connect (h : Synced o s) (hpc : s.pc = .connecting) :
    Synced o { s with pc := .authed s.connected, connected := s.connected + 1 } := by
  have hnone : s.floraCli = none := by
    apply h.floraCli_none <;> rw [hpc] <;> nofun
  refine ⟨fun x hx => h.fresh x (Nat.le_of_succ_le hx), fun p hp => ?_, fun x hx => ?_,
    fun x hx => ?_, fun x hx => ?_, h.sendable, ?_⟩
  · obtain ⟨hlt, _, hsend⟩ := h.captured p hp
    refine ⟨Nat.lt_succ_of_lt hlt, fun heq => ?_, hsend⟩
    exact absurd (Option.some.inj heq) (by omega)
  · exact Nat.lt_succ_of_lt (h.closing x hx)
  · cases hx
    exact Nat.lt_succ_self _
  · cases hnone.symm.trans hx
  · intro x hx hup kind name
    have hxc : x = s.connected := by
      obtain heq | heq := hx
      · exact (Option.some.inj heq).symm
      · cases hnone.symm.trans heq
    subst hxc
    have hcalls : s.callsFor s.connected = [] :=
      callsFor_eq_nil fun p hp => Nat.ne_of_lt (h.captured p hp).1
    change (s.links s.connected).view.settled ((s.links s.connected).requests ++
      s.callsFor s.connected) kind name = (_ && false)
    rw [hcalls, h.fresh s.connected le_rfl, Bool.and_false]
    cases kind <;> rfl

theorem notify_eq (s : Agent) : s.notify = { s with pc := s.notify.pc } := by
  unfold Agent.notify
  split <;> rfl

theorem notify_pc_cases (s : Agent) : s.notify.pc = s.pc ∨
    (s.notify.pc.initializing = none ∧ s.pc.initializing = none) := by
  unfold Agent.notify
  split
  · rename_i hpc
    exact .inr ⟨rfl, by rw [hpc]; rfl⟩
  · rename_i hpc
    exact .inr ⟨rfl, by rw [hpc]; rfl⟩
  · exact .inl rfl

/-- `close` clears the maps. While the walk is on, none of the names has been sent. -/
theorem Synced.close (h : Synced o s) (hturn : InTurn o s .close) : Synced o s.close := by
  unfold Agent.close
  split
  · rename_i hworking
    have hpc := notify_pc_cases { s with working := false, missed := true }
    rw [notify_eq]
    generalize Agent.pc (Agent.notify { s with working := false, missed := true }) = pc at *
    have hinit {x : Nat} (hx : pc.initializing = some x) : pc = s.pc := by
      obtain heq | ⟨heq, _⟩ := hpc
      · exact heq
      · cases heq.symm.trans hx
    refine ⟨h.fresh, fun p hp => ?_, fun x hx => ?_, fun x hx => ?_, nofun, ?_, ?_⟩
    · obtain ⟨hlt, hne, hsend⟩ := h.captured p hp
      refine ⟨hlt, fun heq => hne ?_, hsend⟩
      rw [← hinit heq]
      exact heq
    · obtain hx | hx := List.mem_append.mp hx
      · exact h.closing x hx
      · exact (h.published x (Option.mem_toList.mp hx)).1
    · exact h.initializing x (hinit hx ▸ hx)
    · intro kind name hname
      cases kind <;> cases hname
    · intro x hx hup kind name
      have hx : pc.initializing = some x := hx.resolve_right nofun
      have hx' : s.pc.initializing = some x := hinit hx ▸ hx
      have hnone : (decide (name ∈ s.handlers kind) && s.pc.visited kind name) = false := by
        by_cases hin : name ∈ s.handlers kind
        · rw [hturn hworking (by rw [hx']; nofun) kind name hin, Bool.and_false]
        · rw [decide_eq_false hin, Bool.false_and]
      refine (h.settled x (.inl hx') hup kind name).trans (hnone.trans ?_)
      cases kind <;> rfl
  · exact h

theorem Synced.handle (h : Synced o s) (hst : s.handle c = some s') : Synced o s' := by
  obtain ⟨r, rest, hup, hrequests, hcases⟩ := handle_cases hst
  have hlt : c < s.connected := by
    by_contra hge
    rw [h.fresh c (by omega)] at hrequests
    cases hrequests
  obtain ⟨v, hv, rfl⟩ | rfl := hcases
  · refine ⟨fun x hx => ?_, h.captured, h.closing, h.initializing, h.published, ?_, ?_⟩
    · rw [setLink_links, if_neg fun heq => ?_]
      · exact h.fresh x hx
      · subst heq
        exact absurd hlt (Nat.not_lt.mpr hx)
    · intro kind name hname
      cases kind <;> exact h.sendable _ name hname
    · intro x hx hup' kind name
      change _ = (decide (name ∈ s.handlers kind) && s.pc.visited kind name)
      by_cases hxc : x = c
      · subst hxc
        rw [setLink_links, if_pos rfl]
        refine (View.settled_handle hv _ kind name).trans ?_
        have hold := h.settled x hx hup kind name
        rw [hrequests] at hold
        exact hold
      · rw [setLink_links, if_neg hxc] at hup' ⊢
        exact h.settled x hx hup' kind name
  · exact h.setLink hlt (.inl rfl)

end Agent

end Flora
