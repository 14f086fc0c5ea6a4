import Flora.Dispatcher.System

/-! # What a step does to calls

Calls, the entries of `pending_calls`, `CMD_CALL_RESP` and `CMD_REPLY_RESP` frames change together
in five ways. Invariants about them are proved from these and never from the handlers. -/

namespace Flora

open TransitionSystem

/-- The entry stands for the call. -/
structure PendingCall.Represents (pc : PendingCall) (c : Call) : Prop where
  sender : pc.sender = c.sender
  cliid : pc.cliid = c.req.id
  forward : c.forward = some (pc.svrid, pc.target)

namespace Dispatcher

variable {e : Env} {d d' d'' : Dispatcher} {caps : Caps} {sender : AdapterId}

/-- A request about calls and who sent it, or a pass of `discard_pending_calls`. -/
inductive RpcRequest where
  | call (sender : AdapterId) (req : CallReq)
  | reply (sender : AdapterId) (req : ReplyReq)
  | expire (tp : Nat)

/-- What a step that handles the request `rpc` can do to calls, entries and answers. -/
inductive CallStep (e : Env) (rpc : Option RpcRequest) (d d' : Dispatcher) : Prop
  | neutral (ws : List Write) (hcalls : d'.calls = d.calls)
      (hpending : d'.pendingCalls = d.pendingCalls) (hseq : d'.reqseq = d.reqseq)
      (hout : d'.out = d.out ++ ws) (hnone : NoAnswers ws)
  | refuse (c : Call) (ws : List Write) (order : ByteOrder)
      (hrpc : rpc = some (.call c.sender c.req)) (hforward : c.forward = none)
      (hcalls : d'.calls = d.calls ++ [c]) (hpending : d'.pendingCalls = d.pendingCalls)
      (hseq : d'.reqseq = d.reqseq) (hout : d'.out = d.out ++ ws)
      (hreqs : ws.map Write.request = frame e c.sender order
        (ResponseSerializer.serializeReply c.req.id cliEnexists none 0)
        (some ⟨d.calls.length, .refused⟩))
  | enter (c : Call) (pc : PendingCall) (ws : List Write) (order : ByteOrder) (tag : BitVec 64)
      (cliname : String) (hrpc : rpc = some (.call c.sender c.req)) (hrep : pc.Represents c)
      (hcall : pc.call = d.calls.length) (hsvrid : pc.svrid = BitVec.ofNat 32 (d.reqseq + 1))
      (hcalls : d'.calls = d.calls ++ [c]) (hpending : d'.pendingCalls.Perm (pc :: d.pendingCalls))
      (hseq : d'.reqseq = d.reqseq + 1) (hout : d'.out = d.out ++ ws)
      (hreqs : ws.map Write.request = frame e pc.target order
        (ResponseSerializer.serializeCall c.req.name c.req.args pc.svrid tag cliname) none)
      (hsent : ws ≠ [] ∨ (d'.adapters c.sender).closed = true)
  | reply (pc : PendingCall) (w : Write) (req : ReplyReq) (extra : String) (tag : BitVec 64)
      (hrpc : rpc = some (.reply pc.target req)) (hsvrid : pc.svrid = req.id)
      (hopen : (d.adapters pc.sender).closed = false) (hcalls : d'.calls = d.calls)
      (hpending : d.pendingCalls.Perm (pc :: d'.pendingCalls)) (hseq : d'.reqseq = d.reqseq)
      (hout : d'.out = d.out ++ [w]) (hdest : w.dest = pc.sender)
      (hcaps : w.caps = ResponseSerializer.serializeReply pc.cliid cliSuccess
        (some ⟨req.code, req.values, extra⟩) tag)
      (hanswers : w.answers = some ⟨pc.call, .reply pc.target req⟩)
  | expire (tp : Nat) (expired : List PendingCall) (ws : List Write)
      (hrpc : rpc = some (.expire tp)) (hcalls : d'.calls = d.calls)
      (hpending : d.pendingCalls = expired ++ d'.pendingCalls) (hseq : d'.reqseq = d.reqseq)
      (hout : d'.out = d.out ++ ws)
      (hreqs : ws.map Write.request = expired.map (timeoutFrame d))

variable {rpc : Option RpcRequest}

theorem CallStep.congr (h : CallStep e rpc d d') (hcalls : d''.calls = d'.calls)
    (hpending : d''.pendingCalls = d'.pendingCalls) (hseq : d''.reqseq = d'.reqseq)
    (hout : d''.out = d'.out)
    (hclosed : ∀ a, (d'.adapters a).closed = true → (d''.adapters a).closed = true) :
    CallStep e rpc d d'' := by
  cases h with
  | neutral ws h₁ h₂ h₃ h₄ hnone =>
    exact .neutral ws (hcalls.trans h₁) (hpending.trans h₂) (hseq.trans h₃) (hout.trans h₄) hnone
  | refuse c ws order hrpc hforward h₁ h₂ h₃ h₄ hreqs =>
    exact .refuse c ws order hrpc hforward (hcalls.trans h₁) (hpending.trans h₂) (hseq.trans h₃)
      (hout.trans h₄) hreqs
  | enter c pc ws order tag cliname hrpc hrep hcall hsvrid h₁ h₂ h₃ h₄ hreqs hsent =>
    exact .enter c pc ws order tag cliname hrpc hrep hcall hsvrid (hcalls.trans h₁)
      (hpending ▸ h₂) (hseq.trans h₃) (hout.trans h₄) hreqs (hsent.imp_right (hclosed _))
  | reply pc w req extra tag hrpc hsvrid hopen h₁ h₂ h₃ h₄ hdest hcaps hanswers =>
    exact .reply pc w req extra tag hrpc hsvrid hopen (hcalls.trans h₁) (hpending ▸ h₂)
      (hseq.trans h₃) (hout.trans h₄) hdest hcaps hanswers
  | expire tp expired ws hrpc h₁ h₂ h₃ h₄ hreqs =>
    exact .expire tp expired ws hrpc (hcalls.trans h₁) (hpending ▸ h₂) (hseq.trans h₃)
      (hout.trans h₄) hreqs

theorem CallStep.same (d : Dispatcher) : CallStep e rpc d d :=
  .neutral [] rfl rfl rfl (List.append_nil _).symm NoAnswers.nil

theorem Writes.callStep {ws : List Write} (h : Writes d ws d') (hnone : NoAnswers ws) :
    CallStep e rpc d d' :=
  .neutral ws h.calls h.pendingCalls h.reqseq h.out hnone

theorem insertPendingCall_perm (pc : PendingCall) (l : List PendingCall) :
    (insertPendingCall pc l).Perm (pc :: l) := by
  induction l with
  | nil => exact .refl _
  | cons p rest ih =>
    unfold insertPendingCall
    split
    · exact .refl _
    · exact (ih.cons p).trans (.swap pc p rest)

theorem perm_eraseP {p : PendingCall → Bool} {l : List PendingCall} {pc : PendingCall}
    (h : l.find? p = some pc) : l.Perm (pc :: l.eraseP p) := by
  induction l with
  | nil => cases h
  | cons x rest ih =>
    by_cases hx : p x = true
    · rw [List.find?_cons_of_pos hx] at h
      cases h
      rw [List.eraseP_cons_of_pos hx]
    · rw [List.find?_cons_of_neg hx] at h
      rw [List.eraseP_cons_of_neg hx]
      exact ((ih h).cons x).trans (.swap pc x _)

/-- The state after the verdict of a handler: a refused sender is closed. -/
def verdict (ok : Bool) (sender : AdapterId) (d : Dispatcher) : Dispatcher :=
  if ok then d else d.close sender

theorem verdict_rest (ok : Bool) (sender : AdapterId) (d : Dispatcher) :
    verdict ok sender d = { d with adapters := (verdict ok sender d).adapters } := by
  cases ok <;> rfl

theorem CallStep.verdict (h : CallStep e rpc d d') (ok : Bool) (sender : AdapterId) :
    CallStep e rpc d (d'.verdict ok sender) := by
  cases ok with
  | false => exact h.congr rfl rfl rfl rfl fun a => close_closed
  | true => exact h

theorem callStep_handleCallReq {now : Nat} {ok : Bool}
    (h : handleCallReq e now caps sender d = some (d', ok)) :
    CallStep e ((RequestParser.parseCall caps).map (.call sender)) d (d'.verdict ok sender) := by
  rcases handleCallReq_spec h with ⟨_, rfl, _⟩ | ⟨req, ws, hparse, _, hws, hreqs⟩ |
    ⟨req, info, target, ws, hparse, _, _, hws, hreqs, hok⟩
  · exact (CallStep.same _).verdict ok sender
  · rw [hparse]
    exact (CallStep.refuse ⟨sender, req, none⟩ ws _ rfl rfl hws.calls hws.pendingCalls hws.reqseq
      hws.out hreqs).verdict ok sender
  · rw [hparse, verdict_rest]
    refine .enter ⟨sender, req, some (BitVec.ofNat 32 (d.reqseq + 1), target)⟩
      ⟨BitVec.ofNat 32 (d.reqseq + 1), req.id, sender, target,
        now + (if req.timeout = 0 then defaultCallTimeout else req.timeout.toNat) * 10 ^ 6,
        d.calls.length⟩ ws _ _ _ rfl ⟨rfl, rfl, rfl⟩ rfl rfl hws.calls ?_ hws.reqseq hws.out hreqs ?_
    · change d'.pendingCalls.Perm _
      rw [hws.pendingCalls]
      exact insertPendingCall_perm _ _
    · cases ok with
      | false =>
        right
        change ((d'.close sender).adapters sender).closed = true
        simp [close_adapters]
      | true => exact .inl (hok rfl)

theorem callStep_handleReplyReq {ok : Bool}
    (h : handleReplyReq e caps sender d = some (d', ok)) :
    CallStep e ((RequestParser.parseReply caps).map (.reply sender)) d d' := by
  obtain rfl | ⟨req, info, pc, d₁, ws, hparse, _, hfind, hopen, hws, rfl, hreqs, _⟩ :=
    handleReplyReq_spec h
  · exact .same _
  · obtain ⟨w, rfl, hw⟩ := List.map_eq_singleton_iff.mp hreqs
    have hmatch := List.find?_some hfind
    simp only [replies, Bool.and_eq_true, beq_iff_eq] at hmatch
    obtain ⟨hsvrid, rfl⟩ := hmatch
    rw [hparse]
    refine .reply pc w req info.name (d.adapters pc.target).tag rfl hsvrid hopen hws.calls
      (perm_eraseP hfind) hws.reqseq hws.out ?_ ?_ ?_
    · exact congrArg (fun r : WriteRequest => r.1) hw
    · exact congrArg (fun r : WriteRequest => r.2.2.1) hw
    · exact congrArg (fun r : WriteRequest => r.2.2.2) hw

theorem postFrames_answers {name : String} {type : Word} {args : CapsPtr} {tag : BitVec 64}
    {cliname : String} :
    ∀ r ∈ postFrames e d name (ResponseSerializer.serializePost name type args tag cliname),
      r.2.2.2 = none ∧ isReplyResp r.2.2.1 = false ∧ isCallResp r.2.2.1 = false := by
  intro r hr
  rcases List.mem_append.mp hr with hr | hr <;> obtain ⟨a, _, hr⟩ := List.mem_flatMap.mp hr
  · exact frame_answers rfl rfl r hr
  · exact frame_answers rfl rfl r hr

/-- The request about calls among the members behind a command word. -/
def rpcRequest (cmd : Word) (caps : Caps) (sender : AdapterId) : Option RpcRequest :=
  if cmd = cmdCallReq then (RequestParser.parseCall caps).map (.call sender)
  else if cmd = cmdReplyReq then (RequestParser.parseReply caps).map (.reply sender)
  else none

theorem callStep_msgHandler {now : Nat} {cmd : Word} {ok : Bool}
    (h : msgHandler e now cmd.toInt caps sender d = some (d', ok)) :
    CallStep e (rpcRequest cmd caps sender) d (d'.verdict ok sender) := by
  obtain ⟨_, h⟩ | ⟨_, h⟩ | ⟨_, h⟩ | ⟨_, h⟩ | ⟨hcmd, h⟩ | ⟨_, h⟩ | ⟨_, h⟩ | ⟨hcmd, h⟩ | ⟨_, h⟩ :=
    msgHandler_cases h
  · refine CallStep.verdict ?_ ok sender
    obtain ⟨_, rfl, _⟩ | ⟨req, ws, _, hws, hnone, _⟩ := handleAuthReq_spec h
    · exact .same _
    · have hreg := registryOnly_authenticate e req sender d
      exact .neutral ws (hws.calls.trans hreg.calls) (hws.pendingCalls.trans hreg.pendingCalls)
        (hws.reqseq.trans hreg.reqseq) (hws.out.trans (by rw [hreg.out])) hnone
  · refine CallStep.verdict ?_ ok sender
    obtain ⟨_, rfl, _⟩ | ⟨name, _, _, ⟨_, rfl⟩ | ⟨_, ws, hws, hreqs⟩⟩ := handleSubscribeReq_spec h
    · exact .same _
    · exact .same _
    · refine .neutral ws hws.calls hws.pendingCalls hws.reqseq hws.out
        (noAnswers_of_requests hreqs ?_)
      cases d.persistMsgs.lookup name with
      | none => exact nofun
      | some data => exact frame_answers rfl rfl
  · refine CallStep.verdict ?_ ok sender
    obtain ⟨_, rfl, _⟩ | ⟨name, _, _, ⟨_, rfl⟩ | ⟨adapters, _, rfl⟩⟩ := handleUnsubscribeReq_spec h
    · exact .same _
    · exact .same _
    · exact (CallStep.same d).congr rfl rfl rfl rfl fun _ => id
  · refine CallStep.verdict ?_ ok sender
    obtain ⟨_, rfl, _⟩ | ⟨req, info, d₁, ws, _, _, hws, rfl, hreqs⟩ := handlePostReq_spec h
    · exact .same _
    · have hpost : CallStep e (rpcRequest cmd caps sender) d d₁ := by
        refine .neutral ws ?_ ?_ ?_ ?_ (noAnswers_of_requests hreqs postFrames_answers)
        · exact hws.calls.trans (by rw [purge_rest])
        · exact hws.pendingCalls.trans (by rw [purge_rest])
        · exact hws.reqseq.trans (by rw [purge_rest])
        · exact hws.out.trans (by rw [purge_rest])
      rw [persistPost_rest]
      exact hpost.congr rfl rfl rfl rfl fun _ => id
  · have hreply : cmd = cmdReplyReq := BitVec.eq_of_toInt_eq (by rw [hcmd]; rfl)
    subst hreply
    exact (callStep_handleReplyReq h).verdict ok sender
  · refine CallStep.verdict ?_ ok sender
    obtain rfl | ⟨info, methods, _, rfl⟩ := handleDeclareMethod_spec h
    · exact .same _
    · have hreg := registryOnly_setInfo d sender { info with declaredMethods := methods }
      exact (CallStep.same d).congr hreg.calls hreg.pendingCalls hreg.reqseq hreg.out fun a ha =>
        (hreg.closed a).trans ha
  · refine CallStep.verdict ?_ ok sender
    obtain rfl | ⟨info, methods, _, rfl⟩ := handleRemoveMethod_spec h
    · exact .same _
    · have hreg := registryOnly_setInfo d sender { info with declaredMethods := methods }
      exact (CallStep.same d).congr hreg.calls hreg.pendingCalls hreg.reqseq hreg.out fun a ha =>
        (hreg.closed a).trans ha
  · have hcall : cmd = cmdCallReq := BitVec.eq_of_toInt_eq (by rw [hcmd]; rfl)
    subst hcall
    exact callStep_handleCallReq h
  · obtain ⟨ws, hws, hnone⟩ := handlePingReq_spec h
    exact (hws.callStep hnone).verdict ok sender

/-- The request about calls in a message, whether or not it is let through. -/
def rpcMessage (caps : Caps) (sender : AdapterId) : Option RpcRequest :=
  caps.readWord.bind fun (cmd, rest) => rpcRequest cmd rest sender

def rpcOf : Action → Option RpcRequest
  | .msg caps sender _ _ => rpcMessage caps sender
  | .expire tp => some (.expire tp)
  | _ => none

theorem step_callStep {act : Action} (h : step e d act = some d') :
    CallStep e (rpcOf act) d d' := by
  cases act with
  | msg caps sender now done =>
    obtain ⟨rfl, _⟩ | ⟨cmd, rest, d₁, ok, hreq, hh, rfl⟩ := handleMsg_request (step_msg h).2
    · exact (CallStep.same d).verdict false sender
    · have hmsg : rpcOf (.msg caps sender now done) = rpcRequest cmd rest sender := by
        rw [rpcOf, rpcMessage, readWord_of_request hreq]
        rfl
      rw [hmsg]
      exact (callStep_msgHandler hh).congr rfl rfl rfl rfl fun _ => id
  | erase sender now =>
    obtain ⟨_, rfl⟩ | ⟨info, d₁, ws, _, hws, hnone, rfl⟩ := doEraseAdapter_spec (step_erase h).2
    · exact .same _
    · have hname := registryOnly_eraseName info.name d
      have hwrites : CallStep e (rpcOf (.erase sender now)) d d₁ :=
        .neutral ws (hws.calls.trans hname.calls) (hws.pendingCalls.trans hname.pendingCalls)
          (hws.reqseq.trans hname.reqseq) (hws.out.trans (by rw [hname.out])) hnone
      rw [checkSubscriptions_rest]
      split <;> exact hwrites.congr rfl rfl rfl rfl fun _ => id
  | expire tp =>
    obtain ⟨expired, rest, ws, hsplit, hws, hreqs, _, _⟩ := discardPendingCalls_spec h
    exact .expire tp expired ws rfl hws.calls (by rw [hws.pendingCalls]; exact hsplit) hws.reqseq
      hws.out hreqs
  | close a =>
    cases h
    exact (CallStep.same d).verdict false a
  | destroy a =>
    obtain ⟨_, _, rfl⟩ := step_destroy h
    exact .neutral [] rfl rfl rfl (List.append_nil _).symm NoAnswers.nil

theorem mem_of_frame {ws : List Write} {a : AdapterId} {order : ByteOrder}
    {answers : Option Answer} (h : ws.map Write.request = frame e a order caps answers) {w : Write}
    (hw : w ∈ ws) : w.dest = a ∧ w.caps = caps ∧ w.answers = answers := by
  have hreq : w.request = (a, order, caps, answers) := mem_frame (h ▸ List.mem_map_of_mem hw)
  simp only [Write.request, Prod.mk.injEq] at hreq
  exact ⟨hreq.1, hreq.2.2⟩

/-- What the step answers is what it was asked for. -/
theorem CallStep.asked (h : CallStep e rpc d d') {ws : List Write} (hws : d'.out = d.out ++ ws)
    {w : Write} (hw : w ∈ ws) {i : Nat} {cause : Cause} (hans : w.answers = some ⟨i, cause⟩) :
    (cause = .refused ∧ ∃ c : Call, rpc = some (.call c.sender c.req)) ∨
    (∃ t req, cause = .reply t req ∧ rpc = some (.reply t req) ∧ ws = [w]) ∨
    (cause = .expired ∧ ∃ tp, rpc = some (.expire tp)) := by
  cases h with
  | neutral us hcalls hpending hseq hout hnone =>
    cases List.append_cancel_left (hout.symm.trans hws)
    cases (hnone w hw).1.symm.trans hans
  | refuse c us order hrpc hforward hcalls hpending hseq hout hreqs =>
    cases List.append_cancel_left (hout.symm.trans hws)
    cases (mem_of_frame hreqs hw).2.2.symm.trans hans
    exact .inl ⟨rfl, c, hrpc⟩
  | enter c pc us order tag cliname hrpc hrep hcall hsvrid hcalls hpending hseq hout hreqs hsent =>
    cases List.append_cancel_left (hout.symm.trans hws)
    cases (mem_of_frame hreqs hw).2.2.symm.trans hans
  | reply pc v req extra tag hrpc hsvrid hopen hcalls hpending hseq hout hdest hcaps hanswers =>
    cases List.append_cancel_left (hout.symm.trans hws)
    cases List.mem_singleton.mp hw
    cases hanswers.symm.trans hans
    exact .inr (.inl ⟨pc.target, req, rfl, hrpc, rfl⟩)
  | expire tp expired us hrpc hcalls hpending hseq hout hreqs =>
    cases List.append_cancel_left (hout.symm.trans hws)
    obtain ⟨pc, _, hreq⟩ := List.mem_map.mp (hreqs ▸ List.mem_map_of_mem hw)
    have hanswers : (timeoutFrame d pc).2.2.2 = w.answers :=
      congrArg (fun r : WriteRequest => r.2.2.2) hreq
    cases hanswers.trans hans
    exact .inr (.inr ⟨rfl, tp, hrpc⟩)

theorem CallStep.replied (h : CallStep e rpc d d') {ws : List Write} (hws : d'.out = d.out ++ ws)
    {w : Write} (hw : w ∈ ws) {i : Nat} {t : AdapterId} {req : ReplyReq}
    (hans : w.answers = some ⟨i, .reply t req⟩) : rpc = some (.reply t req) ∧ ws = [w] := by
  obtain ⟨heq, -⟩ | ⟨t', req', heq, hrpc, hone⟩ | ⟨heq, -⟩ := h.asked hws hw hans
  · cases heq
  · cases heq
    exact ⟨hrpc, hone⟩
  · cases heq

theorem CallStep.out_append (h : CallStep e rpc d d') : ∃ ws, d'.out = d.out ++ ws := by
  cases h with
  | neutral ws hcalls hpending hseq hout => exact ⟨ws, hout⟩
  | refuse c ws order hrpc hforward hcalls hpending hseq hout => exact ⟨ws, hout⟩
  | enter c pc ws order tag cliname hrpc hrep hcall hsvrid hcalls hpending hseq hout =>
    exact ⟨ws, hout⟩
  | reply pc w req extra tag hrpc hsvrid hopen hcalls hpending hseq hout => exact ⟨[w], hout⟩
  | expire tp expired ws hrpc hcalls hpending hseq hout => exact ⟨ws, hout⟩

/-- A write of a run is one of its steps. -/
theorem run_writes {as : List Action} (h : (system e).Run d as d') {w : Write} (hw : w ∈ d'.out) :
    w ∈ d.out ∨ ∃ act ∈ as, ∃ s t ws, CallStep e (rpcOf act) s t ∧ t.out = s.out ++ ws ∧
      w ∈ ws := by
  induction h with
  | nil => exact .inl hw
  | cons hst _ ih =>
    obtain hw | ⟨act, hact, hwrite⟩ := ih hw
    · have hcall := step_callStep hst
      obtain ⟨ws, hout⟩ := hcall.out_append
      rw [hout] at hw
      obtain hold | hnew := List.mem_append.mp hw
      · exact .inl hold
      · exact .inr ⟨_, List.mem_cons_self, _, _, ws, hcall, hout, hnew⟩
    · exact .inr ⟨act, List.mem_cons_of_mem _ hact, hwrite⟩

theorem CallStep.calls_eq (h : CallStep e rpc d d') : d'.calls = d.calls ∨
    ∃ c, d'.calls = d.calls ++ [c] ∧ rpc = some (.call c.sender c.req) := by
  cases h with
  | neutral ws hcalls => exact .inl hcalls
  | refuse c ws order hrpc hforward hcalls => exact .inr ⟨c, hcalls, hrpc⟩
  | enter c pc ws order tag cliname hrpc hrep hcall hsvrid hcalls => exact .inr ⟨c, hcalls, hrpc⟩
  | reply pc w req extra tag hrpc hsvrid hopen hcalls => exact .inl hcalls
  | expire tp expired ws hrpc hcalls => exact .inl hcalls

theorem CallStep.calls_mono (h : CallStep e rpc d d') : d.calls <+: d'.calls := by
  obtain hcalls | ⟨c, hcalls, -⟩ := h.calls_eq
  · exact hcalls ▸ List.prefix_refl _
  · exact ⟨[c], hcalls.symm⟩

theorem getElem?_append_of_some {α : Type} {l : List α} {x : α} {i : Nat} (h : l[i]? = some x)
    (l' : List α) : (l ++ l')[i]? = some x := by
  rw [List.getElem?_append_left (List.getElem?_eq_some_iff.mp h).1]
  exact h

theorem index_unique {α : Type} {R : α → α → Prop} {l : List α} (h : l.Pairwise R) {i j : Nat}
    {x y : α} (hi : l[i]? = some x) (hj : l[j]? = some y) (hxy : ¬ R x y) (hyx : ¬ R y x) :
    i = j := by
  obtain ⟨hil, rfl⟩ := List.getElem?_eq_some_iff.mp hi
  obtain ⟨hjl, rfl⟩ := List.getElem?_eq_some_iff.mp hj
  have hpairs := List.pairwise_iff_getElem.mp h
  obtain hlt | heq | hgt := Nat.lt_trichotomy i j
  · exact absurd (hpairs i j hil hjl hlt) hxy
  · exact heq
  · exact absurd (hpairs j i hjl hil hgt) hyx

end Dispatcher

end Flora
