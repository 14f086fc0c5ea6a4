import Flora.Service.Queue
import Flora.Dispatcher.Forwards

/-! # The commands behind calls and replies

Every call the dispatcher has recorded was pushed by its sender, once and in order, and every
reply it has passed on is the only write of one `CMD_REPLY_REQ` of the adapter it names. -/

namespace Flora

open TransitionSystem

namespace Service

variable {e : Env} {s s' : Service}

/-- The call a message asks for. -/
def callRequest (caps : Caps) : Option CallReq :=
  caps.readWord.bind fun (cmd, rest) => if cmd = cmdCallReq then RequestParser.parseCall rest else none

/-- The call that a packet of `a` asks for. -/
def callOf (a : AdapterId) (p : CmdPacket) : Option CallReq :=
  if p.2 = a then p.1.bind callRequest else none

/-- The request about calls in a packet. -/
def packetRpc : Option CmdPacket → Option Dispatcher.RpcRequest
  | some (some caps, a) => Dispatcher.rpcMessage caps a
  | _ => none

theorem rpcMessage_call {caps : Caps} {a b : AdapterId} {req : CallReq}
    (h : Dispatcher.rpcMessage caps a = some (.call b req)) :
    b = a ∧ callRequest caps = some req := by
  obtain ⟨⟨cmd, rest⟩, hread, h⟩ := Option.bind_eq_some_iff.mp h
  simp only [Dispatcher.rpcRequest] at h
  unfold callRequest
  rw [hread]
  split at h
  · rename_i hcmd
    obtain ⟨req', hparse, heq⟩ := Option.map_eq_some_iff.mp h
    cases heq
    exact ⟨rfl, (if_pos hcmd).trans hparse⟩
  · split at h
    · obtain ⟨req', _, heq⟩ := Option.map_eq_some_iff.mp h
      cases heq
    · cases h

theorem rpcMessage_reply {caps : Caps} {a b : AdapterId} {req : ReplyReq}
    (h : Dispatcher.rpcMessage caps a = some (.reply b req)) : b = a ∧ ∃ rest,
      caps.readWord = some (cmdReplyReq, rest) ∧ RequestParser.parseReply rest = some req := by
  obtain ⟨⟨cmd, rest⟩, hread, h⟩ := Option.bind_eq_some_iff.mp h
  simp only [Dispatcher.rpcRequest] at h
  split at h
  · obtain ⟨req', _, heq⟩ := Option.map_eq_some_iff.mp h
    cases heq
  · split at h
    · rename_i hcmd
      obtain ⟨req', hparse, heq⟩ := Option.map_eq_some_iff.mp h
      cases heq
      exact ⟨rfl, rest, by rw [hread, hcmd], hparse⟩
    · cases h

theorem rpcOf_command (now done : Nat) (p : CmdPacket) :
    Dispatcher.rpcOf (command now done p) = packetRpc (some p) := by
  obtain ⟨caps | caps, a⟩ := p <;> rfl

theorem step_journal {act : Action} (h : step e s act = some s') :
    (s'.journal = s.journal ∧ s'.disp.calls = s.disp.calls ∧ s'.disp.out = s.disp.out) ∨
    ∃ cmd post x, Dispatcher.step e s.disp x = some s'.disp ∧
      (∀ r, Dispatcher.rpcOf x = some r → packetRpc cmd = some r ∨ ∃ tp, r = .expire tp) ∧
      s'.journal = s.journal ++ [⟨cmd, post, s'.disp.out.drop s.disp.out.length⟩] := by
  obtain hsame | ⟨tp, hd, hjournal⟩ | ⟨p, now, done, hd, hjournal⟩ := step_record h
  · exact .inl hsame
  · refine .inr ⟨none, none, .expire tp, hd, fun r hr => ?_, hjournal⟩
    cases hr
    exact .inr ⟨tp, rfl⟩
  · refine .inr ⟨some p, _, command now done p, hd, fun r hr => ?_, hjournal⟩
    exact .inl ((rpcOf_command now done p).symm.trans hr)

theorem step_out_mono {act : Action} (h : step e s act = some s') : s.disp.out <+: s'.disp.out := by
  obtain ⟨_, _, hout⟩ | ⟨cmd, post, x, hx, _, _⟩ := step_journal h
  · exact hout ▸ List.prefix_refl _
  · exact ⟨_, (out_append hx).symm⟩

theorem step_pushes {act : Action} (h : step e s act = some s') :
    s'.pushes = s.pushes ∨ (∃ a, s'.pushes = s.pushes ++ [(none, a)]) ∨
    ∃ a caps, act = .put a caps ∧ s'.pushes = s.pushes ++ [(some caps, a)] := by
  cases act with
  | accept a =>
    obtain ⟨_, _, rfl⟩ := step_accept h
    exact .inl rfl
  | put a caps =>
    obtain ⟨_, rfl⟩ := step_put h
    exact .inr (.inr ⟨a, caps, rfl, rfl⟩)
  | closeAdapter a =>
    obtain ⟨_, rfl⟩ := step_closeAdapter h
    exact .inl rfl
  | checkInfo a =>
    obtain ⟨_, rfl⟩ := step_checkInfo h
    exact .inl rfl
  | pushErase a =>
    obtain ⟨_, rfl⟩ := step_pushErase h
    exact .inr (.inl ⟨a, rfl⟩)
  | destroy a =>
    obtain ⟨_, _, d, _, rfl⟩ := step_destroy h
    exact .inl rfl
  | loop tp =>
    rcases step_loop h with ⟨_, ⟨_, rfl⟩ | ⟨_, _, d, _, rfl⟩ | rfl⟩ <;> exact .inl rfl
  | handle now done =>
    rcases step_handle h with ⟨_, ⟨_, rfl⟩ | ⟨p, rest, d, _, _, rfl⟩⟩ <;> exact .inl rfl
  | wake =>
    obtain ⟨_, rfl⟩ := step_wake h
    exact .inl rfl
  | close =>
    cases h
    exact .inl rfl

/-- The `j`-th entry of the journal is a `CMD_REPLY_REQ` of `t`, and its only write is number `n`
of all writes. -/
def Replied (s : Service) (j : Nat) (t : AdapterId) (req : ReplyReq) (n : Nat) : Prop :=
  ∃ entry caps rest w, s.journal[j]? = some entry ∧ entry.cmd = some (some caps, t) ∧
    caps.readWord = some (cmdReplyReq, rest) ∧ RequestParser.parseReply rest = some req ∧
    entry.writes = [w] ∧ ((s.journal.take j).flatMap Entry.writes).length = n

structure Traced (s : Service) : Prop where
  calls : ∀ a, ((s.disp.calls.filter fun c => c.sender = a).map Call.req).Sublist
    (s.handled.filterMap (callOf a))
  replies : ∀ n w i t req, s.disp.out[n]? = some w → w.answers = some ⟨i, .reply t req⟩ →
    ∃ j, s.Replied j t req n

theorem Replied.append {entries : List Entry} {j : Nat} {t : AdapterId} {req : ReplyReq} {n : Nat}
    (h : s.Replied j t req n) (hj : s'.journal = s.journal ++ entries) : s'.Replied j t req n := by
  obtain ⟨entry, caps, rest, w, hentry, hcmd, hread, hparse, hwrites, hn⟩ := h
  have hlt := (List.getElem?_eq_some_iff.mp hentry).1
  refine ⟨entry, caps, rest, w, ?_, hcmd, hread, hparse, hwrites, ?_⟩
  · rw [hj, List.getElem?_append_left hlt]
    exact hentry
  · rw [hj, List.take_append_of_le_length (Nat.le_of_lt hlt)]
    exact hn

theorem traced_step {act : Action} (hs : Traced s) (hout : s.disp.out = s.journal.flatMap Entry.writes)
    (h : step e s act = some s') : Traced s' := by
  obtain ⟨hjournal, hcalls, hsame⟩ | ⟨cmd, post, x, hx, hrpc, hjournal⟩ := step_journal h
  · refine ⟨fun a => ?_, fun n w i t req hw hans => ?_⟩
    · rw [hcalls, handled, hjournal]
      exact hs.calls a
    · rw [hsame] at hw
      obtain ⟨j, hj⟩ := hs.replies n w i t req hw hans
      exact ⟨j, hj.append (hjournal.trans (List.append_nil _).symm)⟩
  · have hstep := Dispatcher.step_callStep hx
    have hhandled : s'.handled = s.handled ++ cmd.toList := by
      rw [handled, hjournal, List.filterMap_append, handled]
      cases cmd <;> rfl
    refine ⟨fun a => ?_, fun n w i t req hw hans => ?_⟩
    · rw [hhandled, List.filterMap_append]
      obtain hcalls | ⟨c, hcalls, hcall⟩ := hstep.calls_eq
      · rw [hcalls]
        exact (hs.calls a).trans (List.sublist_append_left _ _)
      · rw [hcalls, List.filter_append, List.map_append]
        refine (hs.calls a).append ?_
        have hcmd := (hrpc _ hcall).resolve_right (by rintro ⟨tp, heq⟩; cases heq)
        by_cases hsender : c.sender = a
        · obtain _ | ⟨_ | caps, b⟩ := cmd
          · cases hcmd
          · cases hcmd
          · obtain ⟨hb, hreq⟩ := rpcMessage_call hcmd
            have hof : callOf a (some caps, b) = some c.req := by
              rw [callOf, if_pos (hb.symm.trans hsender)]
              exact hreq
            simp [hsender, hof]
        · simp [hsender]
    · have hgrow := out_append hx
      obtain hlt | hge := Nat.lt_or_ge n s.disp.out.length
      · rw [hgrow, List.getElem?_append_left hlt] at hw
        obtain ⟨j, hj⟩ := hs.replies n w i t req hw hans
        exact ⟨j, hj.append hjournal⟩
      · rw [hgrow, List.getElem?_append_right hge] at hw
        obtain ⟨hreply, hws⟩ := hstep.replied hgrow (List.mem_of_getElem? hw) hans
        have hcmd := (hrpc _ hreply).resolve_right (by rintro ⟨tp, heq⟩; cases heq)
        rw [hws] at hw hjournal
        have hn : n - s.disp.out.length < [w].length := (List.getElem?_eq_some_iff.mp hw).1
        rw [List.length_singleton] at hn
        obtain _ | ⟨_ | caps, b⟩ := cmd
        · cases hcmd
        · cases hcmd
        · obtain ⟨rfl, rest, hread, hparse⟩ := rpcMessage_reply hcmd
          refine ⟨s.journal.length, ⟨some (some caps, t), post, [w]⟩, caps, rest, w, ?_, rfl, hread,
            hparse, rfl, ?_⟩
          · rw [hjournal]
            simp
          · rw [hjournal, List.take_left, ← hout]
            omega

theorem traced_reachable (h : (system e).Reachable s) : Traced s := by
  apply h.invariant_of (P := Traced)
  · rintro s ⟨d, ⟨adapters, rfl, -⟩, rfl⟩
    exact ⟨fun a => List.nil_sublist _, nofun⟩
  · exact fun s act t hr hs hst => traced_step hs (inOrder_reachable hr).out hst

end Service

end Flora
