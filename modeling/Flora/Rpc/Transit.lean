import Flora.Rpc.Net

/-! # Requests in transit

What a library client has asked for is being sent, on its way, queued or recorded by the
dispatcher, each request in one of these places at most once. Together with the accounts of the
dispatcher this tells which call a received reply belongs to. -/

namespace Flora

open TransitionSystem

theorem Call.Answered.parse {c : Call} {cause : Cause} {caps rest : Caps} {id rescode : Word}
    {response : Option Response} (h : c.Answered caps cause)
    (hread : caps.readWord = some (cmdReplyResp, rest))
    (hparse : ResponseParser.parseReply rest = some (id, rescode, response)) :
    id = c.req.id ∧ (rescode = cliSuccess → ∃ t req extra, cause = .reply t req ∧
      c.forward = some (req.id, t) ∧ response = some ⟨req.code, req.values, extra⟩) := by
  cases cause with
  | refused =>
    obtain ⟨_, rfl⟩ := h
    cases hread
    cases (ResponseParser.parseReply_error c.req.id cliEnexists 0 (by decide)).symm.trans hparse
    exact ⟨rfl, nofun⟩
  | reply t req =>
    obtain ⟨hforward, extra, tag, rfl⟩ := h
    cases hread
    cases hparse
    exact ⟨rfl, fun _ => ⟨t, req, extra, rfl, hforward, rfl⟩⟩
  | expired =>
    obtain ⟨_, rfl⟩ := h
    cases hread
    cases (ResponseParser.parseReply_error c.req.id cliEtimeout 0 (by decide)).symm.trans hparse
    exact ⟨rfl, nofun⟩

namespace Net

variable {e : Env} {lib : AdapterId → Bool} {s s' : Net} {a : AdapterId}

/-- The request in the send buffer, while it is being sent. -/
def sending (c : Client) : List CallReq := (c.sender.bind fun key => c.asked[key - 1]?).toList

/-- The requests of `a` that are in the buffer, on their way, or have been pushed. -/
def sent (s : Net) (a : AdapterId) : List CallReq :=
  s.service.pushes.filterMap (Service.callOf a) ++ (s.up a).filterMap Service.callRequest ++
    sending (s.clients a)

structure Transit (s : Net) (a : AdapterId) : Prop where
  wf : (s.clients a).Wf
  length : (s.clients a).asked.length = (s.clients a).reqseq
  ids : ∀ j r, (s.clients a).asked[j]? = some r → r.id = BitVec.ofNat 32 (j + 1)
  sender : ∀ key, (s.clients a).sender = some key → 0 < key ∧ key = (s.clients a).reqseq
  sent : (s.sent a).Sublist (s.clients a).asked

theorem sending_of_none {c : Client} (h : c.sender = none) : sending c = [] := by
  simp [sending, h]

theorem Transit.congr (h : Transit s a) (hclient : s'.clients a = s.clients a)
    (hup : s'.up a = s.up a) (hpushes : s'.service.pushes.filterMap (Service.callOf a) =
      s.service.pushes.filterMap (Service.callOf a)) : Transit s' a := by
  refine ⟨hclient ▸ h.wf, hclient ▸ h.length, hclient ▸ h.ids, hclient ▸ h.sender, ?_⟩
  rw [Net.sent, hclient, hup, hpushes]
  exact h.sent

theorem callOf_pushes {act : Service.Action} {service service' : Service}
    (h : Service.step e service act = some service') (hput : ∀ b ∈ putter act, b ≠ a) :
    service'.pushes.filterMap (Service.callOf a) = service.pushes.filterMap (Service.callOf a) := by
  obtain hp | ⟨b, hp⟩ | ⟨b, caps, rfl, hp⟩ := Service.step_pushes h
  · rw [hp]
  · have hnone : Service.callOf a (none, b) = none := by
      unfold Service.callOf
      split <;> rfl
    simp [hp, hnone]
  · have hnone : Service.callOf a (some caps, b) = none := if_neg (hput b rfl)
    simp [hp, hnone]

theorem Transit.service (h : Transit s a) {act : Service.Action} (hlib : lib a = true)
    (hst : step e lib s (.service act) = some s') : Transit s' a := by
  obtain ⟨hput, service, hservice, rfl⟩ := step_service hst
  refine h.congr rfl rfl (callOf_pushes hservice fun b hb => ?_)
  rintro rfl
  rw [hput b hb] at hlib
  cases hlib

theorem Transit.deliver (h : Transit s a) {b : AdapterId}
    (hst : step e lib s (.deliver b) = some s') : Transit s' a := by
  obtain ⟨caps, rest, service, hup, hservice, rfl⟩ := step_deliver hst
  by_cases heq : a = b
  · subst heq
    refine ⟨h.wf, h.length, h.ids, h.sender, ?_⟩
    -- the frame moves from the connection to the queue
    have hmove : service.pushes.filterMap (Service.callOf a) ++ rest.filterMap Service.callRequest =
        s.service.pushes.filterMap (Service.callOf a) ++
          (s.up a).filterMap Service.callRequest := by
      obtain ⟨_, rfl⟩ := Service.step_put hservice
      have hof : Service.callOf a (some caps, a) = Service.callRequest caps := if_pos rfl
      rw [hup]
      simp only [Service.push, List.filterMap_append, List.filterMap_cons, List.filterMap_nil, hof]
      cases Service.callRequest caps <;> simp
    change (service.pushes.filterMap (Service.callOf a) ++
      (Function.update s.up a rest a).filterMap Service.callRequest ++ sending (s.clients a)).Sublist _
    rw [Function.update_self, hmove]
    exact h.sent
  · refine h.congr rfl (Function.update_of_ne heq _ _) (callOf_pushes hservice fun c hc => ?_)
    cases hc
    exact Ne.symm heq

theorem Transit.inner (h : Transit s a) {b : AdapterId} {act : Client.Action}
    (hst : step e lib s (.client b act) = some s') : Transit s' a := by
  obtain ⟨_, hin, c, hc, rfl⟩ := step_client hst
  by_cases heq : a = b
  · subst heq
    have hself : (s.setClient a c).clients a = c := Function.update_self _ _ _
    have hlen := h.length
    obtain ⟨-, ⟨hasked, hseq, hsender⟩ | ⟨r, hnone, hid, hasked, hseq, hsender⟩⟩ :=
      Client.step_inner hin hc
    · refine ⟨hself.symm ▸ h.wf.step hc, ?_, ?_, ?_, ?_⟩
      · rw [hself, hasked, hseq]
        exact hlen
      · rw [hself, hasked]
        exact h.ids
      · rw [hself, hsender, hseq]
        exact h.sender
      · rw [Net.sent, hself, sending, hsender, hasked]
        exact h.sent
    · refine ⟨hself.symm ▸ h.wf.step hc, ?_, ?_, ?_, ?_⟩
      · rw [hself, hasked, hseq, List.length_append, hlen]
        rfl
      · rw [hself, hasked]
        intro j r' hr'
        obtain hlt | hge := Nat.lt_or_ge j (s.clients a).asked.length
        · rw [List.getElem?_append_left hlt] at hr'
          exact h.ids j r' hr'
        · rw [List.getElem?_append_right hge] at hr'
          have hj := (List.getElem?_eq_some_iff.mp hr').1
          rw [List.length_singleton] at hj
          have hj : j = (s.clients a).reqseq := by omega
          subst hj
          rw [hlen, Nat.sub_self] at hr'
          cases hr'
          exact hid
      · rw [hself, hseq]
        intro key hkey
        obtain hsender | hsender := hsender
        · rw [hsender] at hkey
          cases hkey
        · rw [hsender] at hkey
          cases hkey
          exact ⟨Nat.succ_pos _, rfl⟩
      · have hold := h.sent
        rw [Net.sent, sending_of_none hnone, List.append_nil] at hold
        change (s.service.pushes.filterMap (Service.callOf a) ++
          (s.up a).filterMap Service.callRequest ++ sending ((s.setClient a c).clients a)).Sublist _
        rw [hself, hasked]
        obtain hsender | hsender := hsender
        · rw [sending_of_none hsender, List.append_nil]
          exact hold.trans (List.sublist_append_left _ _)
        · have hlast : sending c = [r] := by
            simp [sending, hsender, hasked, ← hlen]
          rw [hlast]
          exact hold.append (List.Sublist.refl _)
  · exact h.congr (Function.update_of_ne heq _ _) rfl rfl

theorem Transit.transmit (h : Transit s a) {b : AdapterId} {ok : Bool}
    (hst : step e lib s (.transmit b ok) = some s') : Transit s' a := by
  obtain ⟨_, key, r, c, hkey, hr, hc, rfl⟩ := step_transmit hst
  by_cases heq : a = b
  · subst heq
    obtain ⟨hasked, hseq, hnone, -⟩ := Client.send_rest hc
    have hbuffer : sending (s.clients a) = [r] := by simp [sending, hkey, hr]
    have hold := h.sent
    rw [Net.sent, hbuffer] at hold
    have hself : (s.setClient a c).clients a = c := Function.update_self _ _ _
    have hkept (s' : Net) (hclient : s'.clients a = c)
        (hsub : (s'.sent a).Sublist (s.clients a).asked) : Transit s' a := by
      refine ⟨hclient.symm ▸ h.wf.step hc, ?_, ?_, ?_, ?_⟩
      · rw [hclient, hasked, hseq]
        exact h.length
      · rw [hclient, hasked]
        exact h.ids
      · rw [hclient, hnone]
        exact nofun
      · rw [hclient, hasked]
        exact hsub
    cases ok with
    | false =>
      refine hkept _ hself ?_
      rw [Net.sent, if_neg Bool.false_ne_true, hself, sending_of_none hnone, List.append_nil]
      exact (List.sublist_append_left _ _).trans hold
    | true =>
      refine hkept _ hself ?_
      rw [Net.sent, if_pos rfl, show ((s.setClient a c).send a _).clients a = c from hself,
        sending_of_none hnone, send_up, if_pos rfl, List.filterMap_append, List.append_nil,
        ← List.append_assoc]
      exact hold
  · have hclient : (s.setClient b c).clients a = s.clients a := Function.update_of_ne heq _ _
    cases ok with
    | false => exact h.congr hclient rfl rfl
    | true => exact h.congr hclient (by rw [if_pos rfl, send_up, if_neg heq]; rfl) rfl

theorem Transit.request (h : Transit s a) {b : AdapterId} {caps : Caps}
    (hst : step e lib s (.request b caps) = some s') : Transit s' a := by
  obtain ⟨_, hnone, rfl⟩ := step_request hst
  by_cases heq : a = b
  · subst heq
    refine ⟨h.wf, h.length, h.ids, h.sender, ?_⟩
    have hup : ((s.send a caps).up a).filterMap Service.callRequest =
        (s.up a).filterMap Service.callRequest := by
      rw [send_up, if_pos rfl, List.filterMap_append]
      simp [hnone]
    rw [Net.sent, hup]
    exact h.sent
  · exact h.congr rfl (by rw [send_up, if_neg heq]) rfl

theorem Transit.calls (h : Transit s a) (hs : (Service.system e).Reachable s.service) :
    ((s.service.disp.calls.filter fun c => c.sender = a).map Call.req).Sublist
      (s.clients a).asked := by
  refine ((Service.traced_reachable hs).calls a).trans (List.Sublist.trans ?_ h.sent)
  rw [Net.sent, (Service.inOrder_reachable hs).fifo]
  simp only [List.filterMap_append, List.append_assoc]
  exact List.sublist_append_left _ _

theorem Transit.asked_of_call (h : Transit s a) (hs : (Service.system e).Reachable s.service)
    {c : Call} (hc : c ∈ s.service.disp.calls) (hsender : c.sender = a) :
    ∃ j, (s.clients a).asked[j]? = some c.req ∧ j < 2 ^ 31 - 1 ∧
      c.req.id = BitVec.ofNat 32 (j + 1) := by
  have hmem : c.req ∈ (s.clients a).asked := by
    refine (h.calls hs).subset (List.mem_map_of_mem ?_)
    exact List.mem_filter.mpr ⟨hc, decide_eq_true hsender⟩
  obtain ⟨j, hj⟩ := List.getElem?_of_mem hmem
  have hlt := (List.getElem?_eq_some_iff.mp hj).1
  have hlen := h.length
  have hseq := h.wf.seq
  exact ⟨j, hj, by omega, h.ids j c.req hj⟩

theorem Transit.call_unique (h : Transit s a) (hs : (Service.system e).Reachable s.service)
    {i j : Nat} {c c' : Call} (hi : s.service.disp.calls[i]? = some c)
    (hj : s.service.disp.calls[j]? = some c') (hc : c.sender = a) (hc' : c'.sender = a)
    (hid : c.req.id = c'.req.id) : i = j := by
  have hids : ((s.clients a).asked.map CallReq.id).Nodup := by
    rw [List.nodup_iff_injective_getElem]
    rintro ⟨m, hm⟩ ⟨n, hn⟩ heq
    rw [List.length_map] at hm hn
    simp only [List.getElem_map] at heq
    rw [h.ids m _ (List.getElem?_eq_getElem hm), h.ids n _ (List.getElem?_eq_getElem hn)] at heq
    have hlen := h.length
    have hseq := h.wf.seq
    have hmn := Word.ofNat_inj (by omega) (by omega) heq
    rw [Fin.mk.injEq]
    omega
  have hpairs := hids.sublist ((h.calls hs).map CallReq.id)
  rw [List.Nodup, List.map_map, List.pairwise_map, List.pairwise_filter] at hpairs
  refine Dispatcher.index_unique hpairs hi hj ?_ ?_
  · exact fun hne => hne (decide_eq_true hc) (decide_eq_true hc') hid
  · exact fun hne => hne (decide_eq_true hc') (decide_eq_true hc) hid.symm

theorem reply_answers (hs : (Service.system e).Reachable s.service) {w : Write} {rest : Caps}
    (hw : w ∈ s.service.disp.out) (hdest : w.dest = a)
    (hread : w.caps.readWord = some (cmdReplyResp, rest)) :
    ∃ i c cause, w.answers = some ⟨i, cause⟩ ∧ s.service.disp.calls[i]? = some c ∧ c.sender = a ∧
      c.Answered w.caps cause := by
  have hacc := Dispatcher.accounts_reachable (Service.disp_reachable hs)
  have hreply : Dispatcher.isReplyResp w.caps = true := by
    rw [Dispatcher.isReplyResp, hread]
    rfl
  cases hans : w.answers with
  | none =>
    rw [hacc.untagged w hw hans] at hreply
    cases hreply
  | some ans =>
    obtain ⟨c, hc, hd, hanswered⟩ := hacc.written w hw ans hans
    exact ⟨ans.call, c, ans.cause, rfl, hc, hd.symm.trans hdest, hanswered⟩

theorem Transit.handleReceived (h : Transit s a) (hs : (Service.system e).Reachable s.service)
    {w : Write} {n : Nat} (hw : s.service.disp.out[n]? = some w) (hdest : w.dest = a) :
    handleReceived (s.clients a) w.caps n = s.clients a ∨
    ∃ rest, w.caps.readWord = some (cmdReplyResp, rest) ∧
      Client.Untouched (s.clients a) (.recvReply rest n) ∧
      (s.clients a).step (.recvReply rest n) = some (handleReceived (s.clients a) w.caps n) := by
  unfold Net.handleReceived
  split
  · rename_i cmd rest hread
    split
    · rename_i hcmd
      subst hcmd
      split
      · rename_i id rescode response hparse
        obtain ⟨i, c, cause, _, hc, hsender, hans⟩ :=
          reply_answers hs (List.mem_of_getElem? hw) hdest hread
        obtain ⟨j, _, hj, hid⟩ := h.asked_of_call hs (List.mem_of_getElem? hc) hsender
        have hne : id ≠ 0 := by
          rw [(hans.parse hread hparse).1, hid]
          exact Word.ofNat_ne_zero (Nat.succ_pos j) (by omega)
        refine .inr ⟨rest, hread, ?_, ?_⟩
        · intro rescode' response' hparse'
          cases hparse.symm.trans hparse'
          exact absurd rfl hne
        · change (s.clients a).recvReply rest n = _
          rw [Client.recvReply, hparse]
          rfl
      · exact .inl rfl
    · exact .inl rfl
  · exact .inl rfl

theorem Transit.receive (h : Transit s a) (hs : (Service.system e).Reachable s.service)
    {b : AdapterId} (hst : step e lib s (.receive b) = some s') : Transit s' a := by
  obtain ⟨_, n, w, hn, hw, hdest, rfl⟩ := step_receive hst
  by_cases heq : a = b
  · subst heq
    have hclient : (s.setClient a (Net.handleReceived (s.clients a) w.caps n)).clients a =
        Net.handleReceived (s.clients a) w.caps n := Function.update_self _ _ _
    obtain hsame | ⟨rest, -, -, hc⟩ := h.handleReceived hs hw hdest
    · exact h.congr (hclient.trans hsame) rfl rfl
    · obtain ⟨hasked, hseq, hsender, -⟩ := Client.recvReply_rest h.wf hc
      refine ⟨hclient.symm ▸ h.wf.step hc, ?_, ?_, ?_, ?_⟩
      · rw [hclient, hasked, hseq]
        exact h.length
      · rw [hclient, hasked]
        exact h.ids
      · rw [hclient, hsender, hseq]
        exact h.sender
      · rw [Net.sent, hclient, sending, hasked, hsender]
        exact h.sent
  · exact h.congr (Function.update_of_ne heq _ _) rfl rfl

theorem transit_reachable (h : (system e lib).Reachable s) (hlib : lib a = true) : Transit s a := by
  apply h.invariant_of (P := fun s => Transit s a)
  · rintro s ⟨service, ⟨d, _, rfl⟩, rfl⟩
    exact ⟨Client.wf_initial, rfl, nofun, nofun, List.Sublist.refl _⟩
  · intro s act t hr ht hst
    cases act with
    | service act => exact ht.service hlib hst
    | deliver b => exact ht.deliver hst
    | client b act => exact ht.inner hst
    | transmit b ok => exact ht.transmit hst
    | request b caps => exact ht.request hst
    | receive b => exact ht.receive (service_reachable hr) hst

end Net

end Flora
