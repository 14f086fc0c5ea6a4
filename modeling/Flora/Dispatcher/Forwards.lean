import Flora.Dispatcher.PendingCalls

/-! # Where calls are forwarded to

A call is forwarded under a `svrid` of its own, and a reply is passed on for calls only whose
`CMD_CALL_RESP` has been written to their target. -/

namespace Flora

open TransitionSystem

/-- The write forwards the call to its target. -/
def Call.Forwards (c : Call) (w : Write) : Prop := ∃ svrid tag cliname,
  c.forward = some (svrid, w.dest) ∧
    w.caps = ResponseSerializer.serializeCall c.req.name c.req.args svrid tag cliname

namespace Dispatcher

variable {e : Env} {d d' : Dispatcher} {rpc : Option RpcRequest}

structure Forwarding (d : Dispatcher) : Prop where
  sent : ∀ w ∈ d.out, isCallResp w.caps = true → ∃ c ∈ d.calls, c.Forwards w
  forwarded : ∀ c ∈ d.calls, c.forward ≠ none →
    (∃ w ∈ d.out, c.Forwards w) ∨ (d.adapters c.sender).closed = true
  replied : ∀ w ∈ d.out, ∀ i t req, w.answers = some ⟨i, .reply t req⟩ →
    ∃ c, d.calls[i]? = some c ∧ ∃ f ∈ d.out, c.Forwards f

namespace Forwarding

theorem extend (h : Forwarding d) {cs : List Call} {ws : List Write}
    (hclosed : ∀ a, (d.adapters a).closed = true → (d'.adapters a).closed = true)
    (hcalls : d'.calls = d.calls ++ cs) (hout : d'.out = d.out ++ ws)
    (hsent : ∀ w ∈ ws, isCallResp w.caps = true → ∃ c ∈ cs, c.Forwards w)
    (hforwarded : ∀ c ∈ cs, c.forward ≠ none →
      (∃ w ∈ ws, c.Forwards w) ∨ (d'.adapters c.sender).closed = true)
    (hreplied : ∀ w ∈ ws, ∀ i t req, w.answers = some ⟨i, .reply t req⟩ →
      ∃ c, d.calls[i]? = some c ∧ ∃ f ∈ d.out, c.Forwards f) : Forwarding d' where
  sent w hw hcall := by
    rw [hcalls]
    rw [hout] at hw
    obtain hw | hw := List.mem_append.mp hw
    · obtain ⟨c, hc, hf⟩ := h.sent w hw hcall
      exact ⟨c, List.mem_append_left cs hc, hf⟩
    · obtain ⟨c, hc, hf⟩ := hsent w hw hcall
      exact ⟨c, List.mem_append_right d.calls hc, hf⟩
  forwarded c hc hne := by
    rw [hout]
    rw [hcalls] at hc
    obtain hc | hc := List.mem_append.mp hc
    · obtain ⟨w, hw, hf⟩ | hcl := h.forwarded c hc hne
      · exact .inl ⟨w, List.mem_append_left ws hw, hf⟩
      · exact .inr (hclosed c.sender hcl)
    · obtain ⟨w, hw, hf⟩ | hcl := hforwarded c hc hne
      · exact .inl ⟨w, List.mem_append_right d.out hw, hf⟩
      · exact .inr hcl
  replied w hw i t req hans := by
    have hold : ∃ c, d.calls[i]? = some c ∧ ∃ f ∈ d.out, c.Forwards f := by
      rw [hout] at hw
      obtain hw | hw := List.mem_append.mp hw
      · exact h.replied w hw i t req hans
      · exact hreplied w hw i t req hans
    obtain ⟨c, hc, f, hf, hforwards⟩ := hold
    exact ⟨c, by rw [hcalls]; exact getElem?_append_of_some hc cs, f,
      by rw [hout]; exact List.mem_append_left ws hf, hforwards⟩

theorem step (h : Forwarding d) (hacc : Accounts d)
    (hclosed : ∀ a, (d.adapters a).closed = true → (d'.adapters a).closed = true)
    (hstep : CallStep e rpc d d') : Forwarding d' := by
  cases hstep with
  | neutral ws hcalls hpending hseq hout hnone =>
    refine h.extend hclosed (hcalls.trans (List.append_nil _).symm) hout ?_ nofun ?_
    · intro w hw hcall
      rw [(hnone w hw).2.2] at hcall
      cases hcall
    · intro w hw i t req hans
      rw [(hnone w hw).1] at hans
      cases hans
  | refuse c ws order hrpc hforward hcalls hpending hseq hout hreqs =>
    refine h.extend hclosed hcalls hout ?_ ?_ ?_
    · intro w hw hcall
      rw [(mem_of_frame hreqs hw).2.1] at hcall
      cases hcall
    · intro x hx hne
      rw [List.mem_singleton.mp hx] at hne
      exact absurd hforward hne
    · intro w hw i t req hans
      cases (mem_of_frame hreqs hw).2.2.symm.trans hans
  | enter c pc ws order tag cliname hrpc hrep hcall hsvrid hcalls hpending hseq hout hreqs hsent =>
    have hforwards (w : Write) (hw : w ∈ ws) : c.Forwards w := by
      obtain ⟨hdest, hcaps, -⟩ := mem_of_frame hreqs hw
      exact ⟨pc.svrid, tag, cliname, by rw [hdest]; exact hrep.forward, hcaps⟩
    refine h.extend hclosed hcalls hout ?_ ?_ ?_
    · exact fun w hw _ => ⟨c, List.mem_singleton_self c, hforwards w hw⟩
    · intro x hx _
      rw [List.mem_singleton.mp hx]
      obtain hsent | hcl := hsent
      · obtain ⟨w, hw⟩ := List.exists_mem_of_ne_nil ws hsent
        exact .inl ⟨w, hw, hforwards w hw⟩
      · exact .inr hcl
    · intro w hw i t req hans
      cases (mem_of_frame hreqs hw).2.2.symm.trans hans
  | reply pc w req extra tag hrpc hsvrid hopen hcalls hpending hseq hout hdest hcaps hanswers =>
    refine h.extend hclosed (hcalls.trans (List.append_nil _).symm) hout ?_ nofun ?_
    · intro v hv hcall
      rw [List.mem_singleton.mp hv, hcaps] at hcall
      cases hcall
    · intro v hv i t req' hans
      rw [List.mem_singleton.mp hv, hanswers] at hans
      cases hans
      obtain ⟨c, hc, hrep⟩ := hacc.pending pc (hpending.mem_iff.mpr List.mem_cons_self)
      refine ⟨c, hc, ?_⟩
      -- the caller is open, so its call did get through to the target
      obtain hf | hcl := h.forwarded c (List.mem_of_getElem? hc) (by rw [hrep.forward]; nofun)
      · exact hf
      · rw [← hrep.sender, hopen] at hcl
        cases hcl
  | expire tp expired ws hrpc hcalls hpending hseq hout hreqs =>
    have hw (w : Write) (hw : w ∈ ws) : ∃ pc ∈ expired, timeoutFrame d pc = w.request :=
      List.mem_map.mp (hreqs ▸ List.mem_map_of_mem hw)
    refine h.extend hclosed (hcalls.trans (List.append_nil _).symm) hout ?_ nofun ?_
    · intro w hmem hcall
      obtain ⟨pc, _, hreq⟩ := hw w hmem
      rw [show w.caps = _ from congrArg (fun r : WriteRequest => r.2.2.1) hreq.symm] at hcall
      cases hcall
    · intro w hmem i t req hans
      obtain ⟨pc, _, hreq⟩ := hw w hmem
      rw [show w.answers = _ from congrArg (fun r : WriteRequest => r.2.2.2) hreq.symm] at hans
      cases hans

end Forwarding

theorem forwarding_reachable (h : (system e).Reachable d) : Forwarding d := by
  apply h.invariant_of (P := Forwarding)
  · rintro s ⟨adapters, rfl, -⟩
    exact ⟨nofun, nofun, nofun⟩
  · exact fun s act t hr hs hst =>
      hs.step (accounts_reachable hr) (fun a => step_closed hst) (step_callStep hst)

/-- The `svrid` of calls count up and have not wrapped. -/
structure Sequenced (d : Dispatcher) : Prop where
  bound : ∀ c ∈ d.calls, ∀ svrid t, c.forward = some (svrid, t) → svrid.toNat ≤ d.reqseq
  order : d.calls.Pairwise fun c c' => ∀ svrid t svrid' t', c.forward = some (svrid, t) →
    c'.forward = some (svrid', t') → svrid.toNat < svrid'.toNat

namespace Sequenced

theorem append (h : Sequenced d) {c : Call} (hcalls : d'.calls = d.calls ++ [c])
    (hseq : d.reqseq ≤ d'.reqseq) (hnew : ∀ svrid t, c.forward = some (svrid, t) →
      d.reqseq < svrid.toNat ∧ svrid.toNat ≤ d'.reqseq) : Sequenced d' where
  bound c' hc' svrid t hf := by
    rw [hcalls] at hc'
    obtain hc' | hc' := List.mem_append.mp hc'
    · exact (h.bound c' hc' svrid t hf).trans hseq
    · rw [List.mem_singleton.mp hc'] at hf
      exact (hnew svrid t hf).2
  order := by
    rw [hcalls, List.pairwise_append]
    refine ⟨h.order, List.pairwise_singleton _ _, ?_⟩
    intro x hx y hy svrid t svrid' t' hf hf'
    rw [List.mem_singleton.mp hy] at hf'
    exact Nat.lt_of_le_of_lt (h.bound x hx svrid t hf) (hnew svrid' t' hf').1

theorem same (h : Sequenced d) (hcalls : d'.calls = d.calls) (hseq : d'.reqseq = d.reqseq) :
    Sequenced d' where
  bound := by
    rw [hcalls, hseq]
    exact h.bound
  order := by
    rw [hcalls]
    exact h.order

theorem step (h : d.reqseq < 2 ^ 32 → Sequenced d) (hstep : CallStep e rpc d d')
    (hseq' : d'.reqseq < 2 ^ 32) : Sequenced d' := by
  cases hstep with
  | neutral ws hcalls hpending hseq hout hnone => exact (h (hseq ▸ hseq')).same hcalls hseq
  | refuse c ws order hrpc hforward hcalls hpending hseq hout hreqs =>
    refine (h (hseq ▸ hseq')).append hcalls hseq.ge ?_
    intro svrid t hf
    rw [hforward] at hf
    cases hf
  | enter c pc ws order tag cliname hrpc hrep hcall hsvrid hcalls hpending hseq hout hreqs hsent =>
    refine (h (by omega)).append hcalls (by omega) ?_
    intro svrid t hf
    rw [hrep.forward, hsvrid] at hf
    cases hf
    have hnat : (BitVec.ofNat 32 (d.reqseq + 1)).toNat = d.reqseq + 1 :=
      Word.toNat_ofNat (by omega)
    omega
  | reply pc w req extra tag hrpc hsvrid hopen hcalls hpending hseq =>
    exact (h (hseq ▸ hseq')).same hcalls hseq
  | expire tp expired ws hrpc hcalls hpending hseq => exact (h (hseq ▸ hseq')).same hcalls hseq

theorem unique (h : Sequenced d) {i j : Nat} {c c' : Call} {svrid : Word} {t t' : AdapterId}
    (hi : d.calls[i]? = some c) (hj : d.calls[j]? = some c') (hf : c.forward = some (svrid, t))
    (hf' : c'.forward = some (svrid, t')) : i = j := by
  refine index_unique h.order hi hj ?_ ?_
  · exact fun hlt => Nat.lt_irrefl _ (hlt svrid t svrid t' hf hf')
  · exact fun hlt => Nat.lt_irrefl _ (hlt svrid t' svrid t hf' hf)

end Sequenced

theorem sequenced_reachable (h : (system e).Reachable d) (hseq : d.reqseq < 2 ^ 32) :
    Sequenced d := by
  revert hseq
  apply h.invariant (P := fun d => d.reqseq < 2 ^ 32 → Sequenced d)
  · rintro s ⟨adapters, rfl, -⟩ _
    exact ⟨nofun, .nil⟩
  · exact fun s act t hs hst => Sequenced.step hs (step_callStep hst)

end Dispatcher

end Flora
