import Flora.Dispatcher.CallStep

/-! # Calls and their answers

Every accepted call is either pending or answered, and never both: entries of `pending_calls` and
`CMD_REPLY_RESP` frames together count one for each call in every reachable state. -/

namespace Flora

open TransitionSystem

/-- `caps` is an answer to `c` that `cause` gives rise to. -/
def Call.Answered (c : Call) (caps : Caps) : Cause → Prop
  | .refused => c.forward = none ∧
    caps = ResponseSerializer.serializeReply c.req.id cliEnexists none 0
  | .reply sender req => c.forward = some (req.id, sender) ∧ ∃ extra tag,
    caps = ResponseSerializer.serializeReply c.req.id cliSuccess
      (some ⟨req.code, req.values, extra⟩) tag
  | .expired => c.forward ≠ none ∧
    caps = ResponseSerializer.serializeReply c.req.id cliEtimeout none 0

namespace Dispatcher

variable {e : Env} {d d' : Dispatcher} {caps : Caps} {sender : AdapterId}

/-- Entries and answers agree with the calls they stand for, and every `CMD_REPLY_RESP` is the
answer to a call. -/
structure Accounts (d : Dispatcher) : Prop where
  pending : ∀ pc ∈ d.pendingCalls, ∃ c, d.calls[pc.call]? = some c ∧ pc.Represents c
  written : ∀ w ∈ d.out, ∀ ans, w.answers = some ans →
    ∃ c, d.calls[ans.call]? = some c ∧ w.dest = c.sender ∧ c.Answered w.caps ans.cause
  untagged : ∀ w ∈ d.out, w.answers = none → isReplyResp w.caps = false

namespace Accounts

theorem extend (h : Accounts d) {cs : List Call} {ws : List Write}
    (hcalls : d'.calls = d.calls ++ cs) (hout : d'.out = d.out ++ ws)
    (hpending : ∀ pc ∈ d'.pendingCalls, pc ∈ d.pendingCalls ∨
      ∃ c, d'.calls[pc.call]? = some c ∧ pc.Represents c)
    (hanswered : ∀ w ∈ ws, ∀ ans, w.answers = some ans →
      ∃ c, d'.calls[ans.call]? = some c ∧ w.dest = c.sender ∧ c.Answered w.caps ans.cause)
    (hnone : ∀ w ∈ ws, w.answers = none → isReplyResp w.caps = false) : Accounts d' where
  pending pc hpc := by
    obtain hold | hnew := hpending pc hpc
    · obtain ⟨c, hc, hrep⟩ := h.pending pc hold
      exact ⟨c, by rw [hcalls]; exact getElem?_append_of_some hc cs, hrep⟩
    · exact hnew
  written w hw ans hans := by
    rw [hout] at hw
    obtain hw | hw := List.mem_append.mp hw
    · obtain ⟨c, hc, hrest⟩ := h.written w hw ans hans
      exact ⟨c, by rw [hcalls]; exact getElem?_append_of_some hc cs, hrest⟩
    · exact hanswered w hw ans hans
  untagged w hw := by
    rw [hout] at hw
    obtain hw | hw := List.mem_append.mp hw
    · exact h.untagged w hw
    · exact hnone w hw

theorem step {rpc : Option RpcRequest} (h : Accounts d) (hstep : CallStep e rpc d d') : Accounts d' := by
  cases hstep with
  | neutral ws hcalls hpending hseq hout hnone =>
    refine h.extend (hcalls.trans (List.append_nil _).symm) hout ?_ ?_ fun w hw _ => (hnone w hw).2.1
    · exact fun pc hpc => .inl (hpending ▸ hpc)
    · intro w hw ans hans
      rw [(hnone w hw).1] at hans
      cases hans
  | refuse c ws order hrpc hforward hcalls hpending hseq hout hreqs =>
    refine h.extend hcalls hout (fun pc hpc => .inl (hpending ▸ hpc)) ?_ ?_
    · intro w hw ans hans
      obtain ⟨hdest, hcaps, hanswers⟩ := mem_of_frame hreqs hw
      cases hanswers.symm.trans hans
      exact ⟨c, by rw [hcalls]; simp, hdest, hforward, hcaps⟩
    · intro w hw hans
      cases (mem_of_frame hreqs hw).2.2.symm.trans hans
  | enter c pc ws order tag cliname hrpc hrep hcall hsvrid hcalls hpending hseq hout hreqs hsent =>
    refine h.extend hcalls hout ?_ ?_ ?_
    · intro p hp
      obtain rfl | hp := List.mem_cons.mp (hpending.mem_iff.mp hp)
      · exact .inr ⟨c, by rw [hcalls, hcall]; simp, hrep⟩
      · exact .inl hp
    · intro w hw ans hans
      cases (mem_of_frame hreqs hw).2.2.symm.trans hans
    · intro w hw _
      rw [(mem_of_frame hreqs hw).2.1]
      rfl
  | reply pc w req extra tag hrpc hsvrid hopen hcalls hpending hseq hout hdest hcaps hanswers =>
    obtain ⟨c, hc, hrep⟩ := h.pending pc (hpending.mem_iff.mpr List.mem_cons_self)
    refine h.extend (hcalls.trans (List.append_nil _).symm) hout ?_ ?_ ?_
    · exact fun p hp => .inl (hpending.mem_iff.mpr (List.mem_cons_of_mem pc hp))
    · intro v hv ans hans
      rw [List.mem_singleton.mp hv] at hans ⊢
      rw [hanswers] at hans
      cases hans
      refine ⟨c, by rw [hcalls]; exact hc, hdest.trans hrep.sender, ?_, extra, tag, ?_⟩
      · rw [hrep.forward, hsvrid]
      · rw [hcaps, hrep.cliid]
    · intro v hv hans
      rw [List.mem_singleton.mp hv, hanswers] at hans
      cases hans
  | expire tp expired ws hrpc hcalls hpending hseq hout hreqs =>
    have hw (w : Write) (hw : w ∈ ws) : ∃ pc ∈ expired, timeoutFrame d pc = w.request :=
      List.mem_map.mp (hreqs ▸ List.mem_map_of_mem hw)
    refine h.extend (hcalls.trans (List.append_nil _).symm) hout ?_ ?_ ?_
    · exact fun p hp => .inl (by rw [hpending]; exact List.mem_append_right expired hp)
    · intro w hmem ans hans
      obtain ⟨pc, hpc, hreq⟩ := hw w hmem
      obtain ⟨hdest, -, hcaps, hanswers⟩ : _ = w.dest ∧ _ = w.order ∧ _ = w.caps ∧ _ = w.answers := by
        simpa [Write.request, timeoutFrame] using hreq
      obtain ⟨c, hc, hrep⟩ := h.pending pc (by rw [hpending]; exact List.mem_append_left _ hpc)
      rw [← hanswers] at hans
      cases hans
      refine ⟨c, by rw [hcalls]; exact hc, hdest.symm.trans hrep.sender, ?_, ?_⟩
      · rw [hrep.forward]
        exact Option.some_ne_none _
      · rw [← hcaps, hrep.cliid]
        rfl
    · intro w hmem hans
      obtain ⟨pc, hpc, hreq⟩ := hw w hmem
      have hanswers : _ = w.answers := congrArg (fun r : WriteRequest => r.2.2.2) hreq
      rw [← hanswers] at hans
      cases hans

end Accounts

theorem accounts_reachable (h : (system e).Reachable d) : Accounts d := by
  apply h.invariant (P := Accounts)
  · rintro s ⟨adapters, rfl, -⟩
    exact ⟨nofun, nofun, nofun⟩
  · exact fun s act t hs hst => hs.step (step_callStep hst)

/-- The frame with these arguments answers the `i`-th call. -/
def answersCall (i : Nat) (w : Write) : Bool := w.answers.any fun ans => ans.call == i

/-- Error replies are a few bytes. -/
def ErrorRepliesFit (e : Env) : Prop := ∀ order id rescode, rescode ≠ cliSuccess →
  e.fits order (ResponseSerializer.serializeReply id rescode none 0) = true

theorem countP_noAnswers {ws : List Write} (h : NoAnswers ws) (i : Nat) :
    ws.countP (answersCall i) = 0 := by
  rw [List.countP_eq_zero]
  intro w hw
  rw [answersCall, (h w hw).1]
  exact Bool.false_ne_true

theorem countP_requests {ws : List Write} {reqs : List WriteRequest}
    (h : ws.map Write.request = reqs) (i : Nat) :
    ws.countP (answersCall i) = reqs.countP fun r => r.2.2.2.any fun ans => ans.call == i := by
  rw [← h, List.countP_map]
  rfl

/-- How often the `i`-th call counts, as an entry or as an answer. -/
def tally (d : Dispatcher) (i : Nat) : Nat :=
  d.pendingCalls.countP (·.call == i) + d.out.countP (answersCall i)

/-- The tally of a call that has been made. -/
def share (d : Dispatcher) (i : Nat) : Nat := if i < d.calls.length then 1 else 0

theorem share_append {c : Call} (h : d'.calls = d.calls ++ [c]) (i : Nat) :
    d'.share i = d.share i + if d.calls.length = i then 1 else 0 := by
  simp only [share, h, List.length_append, List.length_singleton]
  split <;> split <;> split <;> omega

theorem CallStep.tally {rpc : Option RpcRequest} (h : CallStep e rpc d d') (i : Nat) :
    d'.tally i + d.share i ≤ d.tally i + d'.share i ∧
      (ErrorRepliesFit e → d'.tally i + d.share i = d.tally i + d'.share i) := by
  cases h with
  | neutral ws hcalls hpending hseq hout hnone =>
    have hsame : d'.tally i = d.tally i := by
      simp only [Dispatcher.tally, hpending, hout, List.countP_append, countP_noAnswers hnone]
      rfl
    rw [hsame, share, share, hcalls]
    exact ⟨Nat.le_refl _, fun _ => rfl⟩
  | refuse c ws order hrpc hforward hcalls hpending hseq hout hreqs =>
    have hsame : d'.tally i = d.tally i + ws.countP (answersCall i) := by
      simp only [Dispatcher.tally, hpending, hout, List.countP_append]
      omega
    rw [hsame, share_append hcalls, countP_requests hreqs]
    by_cases hfits : e.fits order (ResponseSerializer.serializeReply c.req.id cliEnexists none 0)
    · rw [frame_of_fits hfits]
      simp only [List.countP_singleton, Option.any_some, beq_iff_eq]
      split <;> omega
    · rw [frame_of_not_fits hfits]
      refine ⟨by simp only [List.countP_nil]; omega, fun hfit => absurd ?_ hfits⟩
      exact hfit order c.req.id cliEnexists (by decide)
  | enter c pc ws order tag cliname hrpc hrep hcall hsvrid hcalls hpending hseq hout hreqs hsent =>
    have hnone : ws.countP (answersCall i) = 0 := by
      rw [List.countP_eq_zero]
      intro w hw
      rw [answersCall, (mem_of_frame hreqs hw).2.2]
      exact Bool.false_ne_true
    have hsame : d'.tally i = d.tally i + if d.calls.length = i then 1 else 0 := by
      simp only [Dispatcher.tally, hpending.countP_eq, hout, List.countP_append, hnone,
        List.countP_cons, hcall, beq_iff_eq]
      omega
    rw [hsame, share_append hcalls]
    omega
  | reply pc w req extra tag hrpc hsvrid hopen hcalls hpending hseq hout hdest hcaps hanswers =>
    have hsame : d'.tally i = d.tally i := by
      simp only [Dispatcher.tally, hpending.countP_eq, hout, List.countP_append,
        List.countP_cons, List.countP_nil, answersCall, hanswers, Option.any_some]
      omega
    rw [hsame, share, share, hcalls]
    exact ⟨Nat.le_refl _, fun _ => rfl⟩
  | expire tp expired ws hrpc hcalls hpending hseq hout hreqs =>
    have hanswers : ws.countP (answersCall i) = expired.countP (·.call == i) := by
      rw [countP_requests hreqs, List.countP_map]
      rfl
    have hsame : d'.tally i = d.tally i := by
      simp only [Dispatcher.tally, hpending, hout, List.countP_append, hanswers]
      omega
    rw [hsame, share, share, hcalls]
    exact ⟨Nat.le_refl _, fun _ => rfl⟩

theorem tally_le_share (h : (system e).Reachable d) (i : Nat) : d.tally i ≤ d.share i := by
  apply h.invariant (P := fun d => d.tally i ≤ d.share i)
  · rintro s ⟨adapters, rfl, -⟩
    exact Nat.le_refl _
  · intro s act t hs hst
    have hgrow := ((step_callStep hst).tally i).1
    omega

/-- Conservation: each call so far has one entry or one answer, others have none. -/
theorem tally_eq_share (hfit : ErrorRepliesFit e) (h : (system e).Reachable d) (i : Nat) :
    d.tally i = d.share i := by
  apply h.invariant (P := fun d => d.tally i = d.share i)
  · rintro s ⟨adapters, rfl, -⟩
    rfl
  · intro s act t hs hst
    have hgrow := ((step_callStep hst).tally i).2 hfit
    omega

theorem accepted_call {now done : Nat} {rest : Caps} {req : CallReq}
    (h : step e d (.msg caps sender now done) = some d')
    (hreq : d.request cmdCallReq caps sender = some rest)
    (hinfo : (d.adapters sender).info ≠ none) (hparse : RequestParser.parseCall rest = some req) :
    (findMethod req.target req.name d = some none ∧ d'.calls = d.calls ++ [⟨sender, req, none⟩]) ∨
    ∃ target, findMethod req.target req.name d = some (some target) ∧
      d'.calls = d.calls ++ [⟨sender, req, some (BitVec.ofNat 32 (d.reqseq + 1), target)⟩] := by
  obtain ⟨_, hnone⟩ | ⟨cmd, rest', d₁, ok, hreq', hh, rfl⟩ := handleMsg_request (step_msg h).2
  · rw [hnone cmdCallReq (by decide)] at hreq
    cases hreq
  · have hcmd : cmd = cmdCallReq := by
      by_contra hne
      rw [request_unique hreq' (Ne.symm hne)] at hreq
      cases hreq
    subst hcmd
    cases hreq'.symm.trans hreq
    have hh : handleCallReq e now rest sender d = some (d₁, ok) := hh
    have hcalls : ({ (if ok then d₁ else d₁.close sender) with handleCmdTp := done } :
        Dispatcher).calls = d₁.calls := by
      cases ok <;> rfl
    rw [hcalls]
    rcases handleCallReq_spec hh with ⟨hrej, _, _⟩ | ⟨req', ws, hparse', hfind, hws, _⟩ |
      ⟨req', info, target, ws, hparse', _, hfind, hws, _⟩
    · obtain hrej | hrej := hrej
      · exact absurd hrej hinfo
      · rw [hparse] at hrej
        cases hrej
    · cases hparse.symm.trans hparse'
      exact .inl ⟨hfind, hws.calls⟩
    · cases hparse.symm.trans hparse'
      exact .inr ⟨target, hfind, hws.calls⟩

theorem errorRepliesFit_sampleEnv : ErrorRepliesFit sampleEnv := by
  intro order id rescode hcode
  have hsize : sampleEnv.capsSize order
      (ResponseSerializer.serializeReply id rescode none 0) = 256 := by
    simp [sampleEnv, ResponseSerializer.serializeReply]
  rw [Env.fits, hsize]
  decide

end Dispatcher

end Flora
