import Flora.Rpc.Transit

/-! # Replies reach the calls they are meant for

A call gets the id of its client's counter, is forwarded under the dispatcher's counter, and its
reply is translated back. Through both translations a recorded success comes from the adapter the
call was forwarded to, under the number it was forwarded with. -/

namespace Flora

open TransitionSystem

namespace Net

variable {e : Env} {lib : AdapterId → Bool} {s s' : Net} {a : AdapterId}

theorem step_clients {act : Action} (h : Transit s a) (hs : (Service.system e).Reachable s.service)
    (hst : step e lib s act = some s') : s.received a ≤ s'.received a ∧
    (s'.clients a = s.clients a ∨
      ∃ cact, (s.clients a).step cact = some (s'.clients a) ∧
        Client.Untouched (s.clients a) cact ∧
        ((act = .client a cact ∧ cact.inner = true) ∨ (∃ ok, cact = .send ok) ∨
          ∃ rest n w, cact = .recvReply rest n ∧ s.received a ≤ n ∧ n < s'.received a ∧
            s.service.disp.out[n]? = some w ∧ w.dest = a ∧
            w.caps.readWord = some (cmdReplyResp, rest))) := by
  cases act with
  | service act =>
    obtain ⟨_, service, _, rfl⟩ := step_service hst
    exact ⟨Nat.le_refl _, .inl rfl⟩
  | deliver b =>
    obtain ⟨caps, rest, service, _, _, rfl⟩ := step_deliver hst
    exact ⟨Nat.le_refl _, .inl rfl⟩
  | client b cact =>
    obtain ⟨_, hin, c, hc, rfl⟩ := step_client hst
    refine ⟨Nat.le_refl _, ?_⟩
    by_cases heq : a = b
    · subst heq
      rw [setClient_clients, if_pos rfl]
      exact .inr ⟨cact, hc, Client.untouched_of_inner hin, .inl ⟨rfl, hin⟩⟩
    · rw [setClient_clients, if_neg heq]
      exact .inl rfl
  | transmit b ok =>
    obtain ⟨_, key, r, c, _, _, hc, rfl⟩ := step_transmit hst
    have hsame (t : Net) (ht : t = if ok then (s.setClient b c).send b
        (RequestSerializer.serializeCall r.name r.args r.target r.id r.timeout)
        else s.setClient b c) :
        t.received = s.received ∧ t.clients = (s.setClient b c).clients := by
      rw [ht]
      cases ok <;> exact ⟨rfl, rfl⟩
    obtain ⟨hreceived, hclients⟩ := hsame _ rfl
    rw [hreceived, hclients, setClient_clients]
    refine ⟨Nat.le_refl _, ?_⟩
    by_cases heq : a = b
    · subst heq
      rw [if_pos rfl]
      exact .inr ⟨.send ok, hc, trivial, .inr (.inl ⟨ok, rfl⟩)⟩
    · rw [if_neg heq]
      exact .inl rfl
  | request b caps =>
    obtain ⟨_, _, rfl⟩ := step_request hst
    exact ⟨Nat.le_refl _, .inl rfl⟩
  | receive b =>
    obtain ⟨_, n, w, hn, hw, hdest, rfl⟩ := step_receive hst
    by_cases heq : a = b
    · subst heq
      have hreceived : Function.update s.received a (n + 1) a = n + 1 := Function.update_self _ _ _
      have hclient : (s.setClient a (Net.handleReceived (s.clients a) w.caps n)).clients a =
          Net.handleReceived (s.clients a) w.caps n := Function.update_self _ _ _
      dsimp only
      rw [hreceived, hclient]
      refine ⟨by omega, ?_⟩
      obtain hsame | ⟨rest, hread, huntouched, hc⟩ := h.handleReceived hs hw hdest
      · exact .inl hsame
      · exact .inr ⟨_, hc, huntouched,
          .inr (.inr ⟨rest, n, w, rfl, hn, Nat.lt_succ_self n, hw, hdest, hread⟩)⟩
    · dsimp only
      rw [setClient_clients, if_neg heq, Function.update_of_ne heq]
      exact ⟨Nat.le_refl _, .inl rfl⟩

/-- The dispatcher answers no call with the id 0, so nothing is written over a recorded reply. -/
theorem kept_reachable (h : (system e lib).Reachable s) (hlib : lib a = true) :
    Client.Kept (s.clients a) := by
  apply h.invariant_of (P := fun s => Client.Kept (s.clients a))
  · rintro s ⟨service, -, rfl⟩
    exact nofun
  · intro s act t hr hkept hst
    have ht := transit_reachable hr hlib
    obtain ⟨-, hsame | ⟨cact, hc, huntouched, -⟩⟩ := step_clients ht (service_reachable hr) hst
    · rw [hsame]
      exact hkept
    · exact hkept.step ht.wf hc huntouched

/-- The frame of a record, and the order in which records were made. -/
structure Recorded (s : Net) (a : AdapterId) : Prop where
  frames : ∀ x ∈ (s.clients a).completions, x.frame < s.received a ∧
    ∃ w rest, s.service.disp.out[x.frame]? = some w ∧ w.dest = a ∧
      w.caps.readWord = some (cmdReplyResp, rest) ∧
      ResponseParser.parseReply rest = some (BitVec.ofNat 32 x.key, x.rescode, x.response)
  order : (s.clients a).completions.Pairwise fun x y => x.frame < y.frame

theorem step_completions {act : Action} (h : Transit s a)
    (hs : (Service.system e).Reachable s.service) (hst : step e lib s act = some s') :
    (s'.clients a).completions = (s.clients a).completions ∨
    ∃ x w rest, (s'.clients a).completions = (s.clients a).completions ++ [x] ∧
      s.received a ≤ x.frame ∧ x.frame < s'.received a ∧
      s.service.disp.out[x.frame]? = some w ∧ w.dest = a ∧
      w.caps.readWord = some (cmdReplyResp, rest) ∧
      ResponseParser.parseReply rest = some (BitVec.ofNat 32 x.key, x.rescode, x.response) ∧
      ∀ retcode reply, (s.clients a).calls x.key ≠ some (.returned retcode reply) := by
  obtain ⟨-, hsame | ⟨cact, hc, -, ⟨-, hin⟩ | ⟨ok, rfl⟩ |
      ⟨rest, n, w, rfl, hle, hlt, hw, hdest, hread⟩⟩⟩ := step_clients h hs hst
  · rw [hsame]
    exact .inl rfl
  · exact .inl (Client.step_inner hin hc).1
  · exact .inl (Client.send_rest hc).2.2.2
  · obtain ⟨-, -, -, hsame | ⟨x, hx, rfl, hparse, hopen⟩⟩ := Client.recvReply_rest h.wf hc
    · exact .inl hsame
    · exact .inr ⟨x, w, rest, hx, hle, hlt, hw, hdest, hread, hparse, hopen⟩

theorem step_out_mono {act : Action} (hst : step e lib s act = some s') :
    s.service.disp.out <+: s'.service.disp.out := by
  obtain hsame | ⟨sact, hservice, -⟩ := step_serviceStep hst
  · exact hsame ▸ List.prefix_refl _
  · exact Service.step_out_mono hservice

theorem Recorded.step {act : Action} (h : Recorded s a) (ht : Transit s a)
    (hs : (Service.system e).Reachable s.service) (hst : step e lib s act = some s') :
    Recorded s' a := by
  obtain ⟨later, hlater⟩ := step_out_mono hst
  have hkeep {n : Nat} {w : Write} (hw : s.service.disp.out[n]? = some w) :
      s'.service.disp.out[n]? = some w := by
    rw [← hlater]
    exact Dispatcher.getElem?_append_of_some hw later
  have hmono := (step_clients ht hs hst).1
  have hold (x : Completion) (hx : x ∈ (s.clients a).completions) : x.frame < s'.received a ∧
      ∃ w rest, s'.service.disp.out[x.frame]? = some w ∧ w.dest = a ∧
        w.caps.readWord = some (cmdReplyResp, rest) ∧
        ResponseParser.parseReply rest = some (BitVec.ofNat 32 x.key, x.rescode, x.response) := by
    obtain ⟨hlt, w, rest, hw, hrest⟩ := h.frames x hx
    exact ⟨by omega, w, rest, hkeep hw, hrest⟩
  obtain hsame | ⟨x, w, rest, happ, hle, hlt, hw, hdest, hread, hparse, -⟩ :=
    step_completions ht hs hst
  · refine ⟨?_, ?_⟩ <;> rw [hsame]
    · exact hold
    · exact h.order
  · refine ⟨?_, ?_⟩ <;> rw [happ]
    · intro y hy
      obtain hy | hy := List.mem_append.mp hy
      · exact hold y hy
      · rw [List.mem_singleton.mp hy]
        exact ⟨hlt, w, rest, hkeep hw, hdest, hread, hparse⟩
    · rw [List.pairwise_append]
      refine ⟨h.order, List.pairwise_singleton _ _, ?_⟩
      intro y hy z hz
      rw [List.mem_singleton.mp hz]
      exact Nat.lt_of_lt_of_le (h.frames y hy).1 hle

theorem recorded_reachable (h : (system e lib).Reachable s) (hlib : lib a = true) :
    Recorded s a := by
  apply h.invariant_of (P := fun s => Recorded s a)
  · rintro s ⟨service, ⟨d, _, rfl⟩, rfl⟩
    exact ⟨nofun, .nil⟩
  · exact fun s act t hr hrec hst =>
      hrec.step (transit_reachable hr hlib) (service_reachable hr) hst

/-- The record `x` of the client `a` completes the call `c`, the `i`-th of the dispatcher, with the
reply `req` that the dispatcher handled as the `j`-th command and that came from `t`. -/
structure Completed (s : Net) (a : AdapterId) (x : Completion) (i : Nat) (c : Call) (t : AdapterId)
    (req : ReplyReq) (j : Nat) : Prop where
  asked : (s.clients a).asked[x.key - 1]? = some c.req
  id : c.req.id = BitVec.ofNat 32 x.key
  call : s.service.disp.calls[i]? = some c
  sender : c.sender = a
  only : ∀ i' c', s.service.disp.calls[i']? = some c' → c'.sender = a → c'.req.id = c.req.id →
    i' = i
  forward : c.forward = some (req.id, t)
  forwarded : ∃ f ∈ s.service.disp.out, c.Forwards f
  alone : ∀ f ∈ s.service.disp.out, ∀ name args tag cliname,
    f.caps = ResponseSerializer.serializeCall name args req.id tag cliname → c.Forwards f
  reply : s.service.Replied j t req x.frame
  response : ∃ extra, x.response = some ⟨req.code, req.values, extra⟩
  answer : ∃ w, s.service.disp.out[x.frame]? = some w ∧
    s.service.disp.out.filter (Dispatcher.answersCall i) = [w]

theorem Completed.frame_eq {x y : Completion} {i i' j : Nat} {c c' : Call} {b t t' : AdapterId}
    {req req' : ReplyReq} (h : Completed s a x i c t req j) (h' : Completed s b y i' c' t' req' j) :
    x.frame = y.frame := by
  obtain ⟨_, _, _, _, _, _, _, _, _, hn⟩ := h.reply
  obtain ⟨_, _, _, _, _, _, _, _, _, hn'⟩ := h'.reply
  exact hn.symm.trans hn'

theorem filter_answersCall {d : Dispatcher} (h : (Dispatcher.system e).Reachable d) {w : Write}
    {i : Nat} {cause : Cause} (hw : w ∈ d.out) (hans : w.answers = some ⟨i, cause⟩) :
    d.out.filter (Dispatcher.answersCall i) = [w] := by
  have hmem : w ∈ d.out.filter (Dispatcher.answersCall i) := by
    refine List.mem_filter.mpr ⟨hw, ?_⟩
    simp [Dispatcher.answersCall, hans]
  have hshare : d.share i ≤ 1 := by
    unfold Dispatcher.share
    split <;> omega
  have htally := Dispatcher.tally_le_share h i
  rw [Dispatcher.tally, List.countP_eq_length_filter, List.countP_eq_length_filter] at htally
  have hpos := List.length_pos_of_mem hmem
  obtain ⟨v, hv⟩ := List.length_eq_one_iff.mp (show
    (d.out.filter (Dispatcher.answersCall i)).length = 1 by omega)
  rw [hv] at hmem ⊢
  rw [List.mem_singleton.mp hmem]

theorem completed_of_success (h : (system e lib).Reachable s)
    (hseq : s.service.disp.reqseq < 2 ^ 31) (hlib : lib a = true) {x : Completion}
    (hx : x ∈ (s.clients a).completions) (hcode : x.rescode = cliSuccess) :
    ∃ i c t req j, Completed s a x i c t req j := by
  have hs := service_reachable h
  have hd := Service.disp_reachable hs
  have ht := transit_reachable h hlib
  obtain ⟨-, w, rest, hw, hdest, hread, hparse⟩ := (recorded_reachable h hlib).frames x hx
  have hmem := List.mem_of_getElem? hw
  obtain ⟨i, c, cause, hans, hc, hsender, hanswered⟩ := reply_answers hs hmem hdest hread
  obtain ⟨hid, hsuccess⟩ := hanswered.parse hread hparse
  obtain ⟨t, req, extra, rfl, hforward, hresp⟩ := hsuccess hcode
  obtain ⟨m, hasked, hm, hcid⟩ := ht.asked_of_call hs (List.mem_of_getElem? hc) hsender
  have hkey : x.key = m + 1 := by
    have hle := ht.wf.completed x hx
    have hlt := ht.wf.seq
    exact Word.ofNat_inj (by omega) (by omega) (hid.trans hcid)
  obtain ⟨j, hj⟩ := (Service.traced_reachable hs).replies x.frame w i t req hw hans
  refine ⟨i, c, t, req, j, ⟨?_, hid.symm, hc, hsender, ?_, hforward, ?_, ?_, hj, ⟨extra, hresp⟩,
    w, hw, filter_answersCall hd hmem hans⟩⟩
  · rw [hkey]
    exact hasked
  · exact fun i' c' hc' hsender' heq => ht.call_unique hs hc' hc hsender' hsender heq
  · obtain ⟨c', hc', hf⟩ := (Dispatcher.forwarding_reachable hd).replied w hmem i t req hans
    cases hc.symm.trans hc'
    exact hf
  · intro f hf name args tag cliname hcaps
    obtain ⟨c', hc', hforwards⟩ := (Dispatcher.forwarding_reachable hd).sent f hf (by
      rw [hcaps]
      rfl)
    obtain ⟨svrid, tag', cliname', hforward', hcaps'⟩ := hforwards
    -- the frame carries the number of this call, so it is the frame of this call
    have hsvrid : svrid = req.id := by
      rw [hcaps] at hcaps'
      cases hcaps'
      rfl
    obtain ⟨i', hi'⟩ := List.getElem?_of_mem hc'
    have heq : i' = i := (Dispatcher.sequenced_reachable hd (by omega)).unique hi' hc
      (hsvrid ▸ hforward') hforward
    cases (heq ▸ hi').symm.trans hc
    exact ⟨svrid, tag', cliname', hforward', hcaps'⟩

theorem completed_once (h : (system e lib).Reachable s) {b : AdapterId} (ha : lib a = true)
    (hb : lib b = true) {m n i i' j : Nat} {x y : Completion} {c c' : Call} {t t' : AdapterId}
    {req req' : ReplyReq} (hm : (s.clients a).completions[m]? = some x)
    (hn : (s.clients b).completions[n]? = some y) (hx : Completed s a x i c t req j)
    (hy : Completed s b y i' c' t' req' j) : a = b ∧ m = n := by
  have hframe := hx.frame_eq hy
  obtain ⟨-, w, _, hw, hdest, -⟩ := (recorded_reachable h ha).frames x (List.mem_of_getElem? hm)
  obtain ⟨-, v, _, hv, hdest', -⟩ := (recorded_reachable h hb).frames y (List.mem_of_getElem? hn)
  rw [← hframe, hw] at hv
  cases hv
  have hab : a = b := hdest.symm.trans hdest'
  subst hab
  refine ⟨rfl, Dispatcher.index_unique (recorded_reachable h ha).order hm hn ?_ ?_⟩ <;> omega

theorem returned_run (h : (system e lib).Reachable s) (hlib : lib a = true) {as : List Action}
    (hrun : (system e lib).Run s as s') {key : Nat} {retcode : Word} {reply : Option Response}
    (hkey : (s.clients a).calls key = some (.returned retcode reply)) :
    ∀ y ∈ (s'.clients a).completions, y.key = key → y ∈ (s.clients a).completions := by
  have hall := hrun.invariant (P := fun r => (system e lib).Reachable r ∧
    (r.clients a).calls key = some (.returned retcode reply) ∧
    ∀ y ∈ (r.clients a).completions, y.key = key → y ∈ (s.clients a).completions)
    ⟨h, hkey, fun y hy _ => hy⟩ ?_
  · exact hall.2.2
  · rintro r act r' ⟨hr, hret, hold⟩ hst
    have ht := transit_reachable hr hlib
    have hs := service_reachable hr
    refine ⟨hr.next hst, ?_, ?_⟩
    · obtain ⟨-, hsame | ⟨cact, hc, -⟩⟩ := step_clients ht hs hst
      · rw [hsame]
        exact hret
      · exact Client.returned_step ht.wf hc hret
    · obtain hsame | ⟨x, _, _, happ, _, _, _, _, _, _, hopen⟩ := step_completions ht hs hst
      · rw [hsame]
        exact hold
      · rw [happ]
        intro y hy heq
        obtain hy | hy := List.mem_append.mp hy
        · exact hold y hy heq
        · rw [List.mem_singleton.mp hy] at heq
          rw [heq] at hopen
          exact absurd hret (hopen retcode reply)

/-- Every success a library client records for a call is the reply of the adapter that its request
was forwarded to, under the number of that forward and to no other call; a reply completes one
request at most; and what comes after a call has returned completes nothing. -/
theorem rpc_matching (h : (system e lib).Reachable s) (hseq : s.service.disp.reqseq < 2 ^ 31) :
    (∀ a, lib a = true → ∀ x ∈ (s.clients a).completions, x.rescode = cliSuccess →
      ∃ i c t req j, Completed s a x i c t req j) ∧
    (∀ a b, ∀ m n : Nat, ∀ x y i i' j c c' t t' req req', lib a = true → lib b = true →
      (s.clients a).completions[m]? = some x → (s.clients b).completions[n]? = some y →
      Completed s a x i c t req j → Completed s b y i' c' t' req' j → a = b ∧ m = n) ∧
    (∀ a as s' key retcode reply, lib a = true → (system e lib).Run s as s' →
      (s.clients a).calls key = some (.returned retcode reply) →
      ∀ y ∈ (s'.clients a).completions, y.key = key → y ∈ (s.clients a).completions) := by
  refine ⟨?_, ?_, ?_⟩
  · intro a hlib x hx hcode
    exact completed_of_success h hseq hlib hx hcode
  · intro a b m n x y i i' j c c' t t' req req' ha hb hm hn hx hy
    exact completed_once h ha hb hm hn hx hy
  · intro a as s' key retcode reply hlib hrun hkey
    exact returned_run h hlib hrun hkey

/-- A client connects and calls a method of an adapter that is not of the library. -/
def sampleRun : List Action :=
  [.service (.accept 0), .service (.accept 1),
    .request 0 (RequestSerializer.serializeAuth floraVersion "c" 1 0), .deliver 0,
    .service (.put 1 (RequestSerializer.serializeAuth floraVersion "s" 1 0)),
    .service (.put 1 (RequestSerializer.serializeDeclareMethod "m")),
    .service (.loop 0), .service (.handle 0 0), .service (.handle 0 0), .service (.handle 0 0),
    .service (.handle 0 0), .client 0 (.beginCall true "m" none "s" 0 true), .transmit 0 true,
    .deliver 0, .service (.loop 0), .service (.handle 0 0), .service (.handle 0 0),
    .service (.put 1 (RequestSerializer.serializeReply 1 5 none)), .service (.loop 0),
    .service (.handle 0 0), .receive 0, .receive 0]

theorem rpc_matching_replied : ∃ s x i c t req j,
    execute (step Dispatcher.sampleEnv (· == 0)) {} sampleRun = some s ∧
    (s.clients 0).completions = [x] ∧ x.response = some ⟨5, none, "s"⟩ ∧
    Completed s 0 x i c t req j := by
  have hrun : execute (step Dispatcher.sampleEnv (· == 0)) {} sampleRun = some _ := rfl
  obtain ⟨i, c, t, req, j, hcompleted⟩ := (rpc_matching
    (execute_reachable ⟨{}, Service.initial_default, rfl⟩ hrun) (by decide)).1 0 rfl
    ⟨1, cliSuccess, some ⟨5, none, "s"⟩, 3⟩ (List.mem_singleton_self _) rfl
  exact ⟨_, _, i, c, t, req, j, hrun, rfl, rfl, hcompleted⟩

end Net

end Flora
