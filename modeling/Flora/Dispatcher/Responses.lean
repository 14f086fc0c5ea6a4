import Flora.Dispatcher.System

/-! # Which messages a request can cause

The command words of what a handler writes, whoever it is written to. -/

namespace Flora

namespace Dispatcher

variable {e : Env} {d d' : Dispatcher} {caps : Caps} {sender : AdapterId} {ok : Bool}

def command (caps : Caps) : Option Word := caps.readWord.map Prod.fst

/-- The commands of the messages the handler of a request writes. -/
def responses (cmd : Int) : List Word :=
  if cmd = 0 then [cmdAuthResp, cmdMonitorResp]
  else if cmd = 1 ∨ cmd = 3 then [cmdPostResp]
  else if cmd = 4 then [cmdReplyResp]
  else if cmd = 7 then [cmdReplyResp, cmdCallResp]
  else if cmd = 8 then [cmdPongResp]
  else []

/-- The writes between `d` and `d'` all have a command of `cmds`. -/
def Responds (cmds : List Word) (d d' : Dispatcher) : Prop :=
  ∃ ws, d'.out = d.out ++ ws ∧ ∀ w ∈ ws, ∃ cmd ∈ cmds, command w.caps = some cmd

namespace Responds

variable {cmds : List Word} {d'' : Dispatcher}

theorem silent (h : d'.out = d.out) : Responds cmds d d' :=
  ⟨[], by rw [h, List.append_nil], fun _ hw => absurd hw List.not_mem_nil⟩

theorem trans (h : Responds cmds d d') (h' : Responds cmds d' d'') : Responds cmds d d'' := by
  obtain ⟨ws, hout, hws⟩ := h
  obtain ⟨us, hout', hus⟩ := h'
  refine ⟨ws ++ us, by rw [hout', hout, List.append_assoc], fun w hw => ?_⟩
  obtain hw | hw := List.mem_append.mp hw
  · exact hws w hw
  · exact hus w hw

theorem of_requests {ws : List Write} {reqs : List WriteRequest} (hout : d'.out = d.out ++ ws)
    (hreq : ws.map Write.request = reqs)
    (h : ∀ r ∈ reqs, ∃ cmd ∈ cmds, command r.2.2.1 = some cmd) : Responds cmds d d' :=
  ⟨ws, hout, fun w hw => h w.request (hreq ▸ List.mem_map_of_mem hw)⟩

end Responds

variable {cmds : List Word} {cmd : Word}

theorem command_frame {a : AdapterId} {order : ByteOrder} {answers : Option Answer}
    (hmem : cmd ∈ cmds) (hcaps : command caps = some cmd) :
    ∀ r ∈ frame e a order caps answers, ∃ cmd ∈ cmds, command r.2.2.1 = some cmd := by
  intro r hr
  rw [mem_frame hr]
  exact ⟨cmd, hmem, hcaps⟩

theorem command_monitorFrames (hmem : cmd ∈ cmds) (hcaps : command caps = some cmd) :
    ∀ r ∈ monitorFrames e d caps, ∃ cmd ∈ cmds, command r.2.2.1 = some cmd := by
  intro r hr
  obtain ⟨m, -, hr⟩ := List.mem_flatMap.mp hr
  exact command_frame hmem hcaps r hr

theorem command_postFrames {name : String} (hmem : cmd ∈ cmds) (hcaps : command caps = some cmd) :
    ∀ r ∈ postFrames e d name caps, ∃ cmd ∈ cmds, command r.2.2.1 = some cmd := by
  intro r hr
  obtain hr | hr := List.mem_append.mp hr
  · obtain ⟨a, -, hr⟩ := List.mem_flatMap.mp hr
    exact command_frame hmem hcaps r hr
  · obtain ⟨a, -, hr⟩ := List.mem_flatMap.mp hr
    exact command_frame hmem hcaps r hr

theorem responds_writeMonitorLists {flags : Word}
    (h : writeMonitorLists e flags sender d = some d') :
    Responds [cmdAuthResp, cmdMonitorResp] d d' := by
  have hmem : cmdMonitorResp ∈ [cmdAuthResp, cmdMonitorResp] := by simp
  obtain ⟨d₁, hdata, h⟩ := Option.bind_eq_some_iff.mp h
  obtain ⟨ws, hws, hreq⟩ := writeMonitorData_spec hdata
  have hfirst : Responds [cmdAuthResp, cmdMonitorResp] d d₁ := by
    refine .of_requests hws.out hreq ?_
    split
    · exact command_frame hmem rfl
    · exact fun r hr => absurd hr List.not_mem_nil
  split at h
  · cases h
    exact hfirst
  · obtain ⟨us, hus, ⟨-, rfl⟩ | ⟨info, -, hreq⟩⟩ := writeMonitorListAdd_spec h
    · exact hfirst.trans (.silent (by rw [hus.out, List.append_nil]))
    · exact hfirst.trans (.of_requests hus.out hreq (command_monitorFrames hmem rfl))

theorem responds_handleAuthReq (h : handleAuthReq e caps sender d = some (d', ok)) :
    Responds [cmdAuthResp, cmdMonitorResp] d d' := by
  simp only [handleAuthReq] at h
  split at h
  · cases h
    exact .silent rfl
  · rename_i req _
    have hreg : Responds [cmdAuthResp, cmdMonitorResp] d (authenticate e req sender d).1 :=
      .silent (registryOnly_authenticate e req sender d).out
    split at h
    · have hw := write_writes e (authenticate e req sender d).1 sender
        ((authenticate e req sender d).1.adapters sender).serializeFlags
        (ResponseSerializer.serializeAuth (authenticate e req sender d).2 floraVersion) none
      have hauth := hreg.trans ⟨_, hw.out, fun w hw => ⟨cmdAuthResp, by simp, by
        rw [List.mem_singleton.mp hw]
        rfl⟩⟩
      split at h
      · obtain ⟨d₂, hlists, heq⟩ := Option.map_eq_some_iff.mp h
        cases heq
        exact hauth.trans (responds_writeMonitorLists hlists)
      · cases h
        exact hauth
    · cases h
      exact hreg

theorem responds_handlePingReq (h : handlePingReq e sender d = some (d', ok)) :
    Responds [cmdPongResp] d d' := by
  unfold handlePingReq at h
  split at h
  · cases h
    exact .silent rfl
  · obtain ⟨_, -, h⟩ := Option.bind_eq_some_iff.mp h
    dsimp only at h
    split at h
    · obtain ⟨d₁, hlogged, heq⟩ := Option.map_eq_some_iff.mp h
      cases heq
      obtain ⟨r, hw⟩ := writeLogged_writes hlogged
      refine ⟨_, hw.out, fun w hw => ⟨cmdPongResp, by simp, ?_⟩⟩
      rw [List.mem_singleton.mp hw]
      rfl
    · cases h
      exact .silent rfl

theorem msgHandler_responds {now : Nat} {cmd : Int}
    (h : msgHandler e now cmd caps sender d = some (d', ok)) : Responds (responses cmd) d d' := by
  rcases msgHandler_cases h with ⟨rfl, h⟩ | ⟨rfl, h⟩ | ⟨rfl, h⟩ | ⟨rfl, h⟩ | ⟨rfl, h⟩ | ⟨rfl, h⟩ |
    ⟨rfl, h⟩ | ⟨rfl, h⟩ | ⟨rfl, h⟩
  · exact responds_handleAuthReq h
  · obtain ⟨-, rfl, -⟩ | ⟨name, -, -, ⟨-, rfl⟩ | ⟨-, ws, hws, hreq⟩⟩ := handleSubscribeReq_spec h
    · exact .silent rfl
    · exact .silent rfl
    · refine .of_requests hws.out hreq ?_
      cases d.persistMsgs.lookup name with
      | none => exact fun r hr => absurd hr List.not_mem_nil
      | some data => exact command_frame (show cmdPostResp ∈ _ by decide) rfl
  · rcases handleUnsubscribeReq_spec h with
      ⟨-, rfl, -⟩ | ⟨name, -, -, ⟨-, rfl⟩ | ⟨adapters, -, rfl⟩⟩ <;> exact .silent rfl
  · obtain ⟨-, rfl, -⟩ | ⟨req, info, d₁, ws, -, -, hws, rfl, hreq⟩ := handlePostReq_spec h
    · exact .silent rfl
    · refine .of_requests ?_ hreq (command_postFrames (show cmdPostResp ∈ _ by decide) rfl)
      rw [persistPost_rest]
      exact hws.out.trans (by rw [purge_rest])
  · obtain rfl | ⟨req, info, pc, d₁, ws, -, -, -, -, hws, rfl, hreq, -⟩ := handleReplyReq_spec h
    · exact .silent rfl
    · refine .of_requests hws.out hreq fun r hr => ⟨cmdReplyResp, by decide, ?_⟩
      rw [List.mem_singleton.mp hr]
      rfl
  · obtain rfl | ⟨info, methods, -, rfl⟩ := handleDeclareMethod_spec h
    · exact .silent rfl
    · exact .silent (registryOnly_setInfo d sender _).out
  · obtain rfl | ⟨info, methods, -, rfl⟩ := handleRemoveMethod_spec h
    · exact .silent rfl
    · exact .silent (registryOnly_setInfo d sender _).out
  · obtain ⟨-, rfl, -⟩ | ⟨req, ws, -, -, hws, hreq⟩ | ⟨req, info, target, ws, -, -, -, hws, hreq, -⟩ :=
      handleCallReq_spec h
    · exact .silent rfl
    · exact .of_requests hws.out hreq (command_frame (show cmdReplyResp ∈ _ by decide) rfl)
    · exact .of_requests hws.out hreq (command_frame (show cmdCallResp ∈ _ by decide) rfl)
  · exact responds_handlePingReq h

theorem responds_doEraseAdapter {now : Nat} (h : doEraseAdapter e now sender d = some d') :
    Responds [cmdMonitorResp] d d' := by
  unfold doEraseAdapter at h
  split at h
  · cases h
    exact .silent rfl
  · obtain ⟨info, -, h⟩ := Option.bind_eq_some_iff.mp h
    have hname := (registryOnly_eraseName info.name d).out
    dsimp only at h
    split at h
    · cases h
      refine .silent ?_
      rw [checkSubscriptions_rest]
      exact hname
    · obtain ⟨d₁, hremove, heq⟩ := Option.map_eq_some_iff.mp h
      obtain ⟨ws, hws, hreq⟩ := writeMonitorListRemove_spec hremove
      refine .of_requests ?_ hreq (command_monitorFrames (show cmdMonitorResp ∈ _ by decide) rfl)
      rw [← heq, checkSubscriptions_rest]
      exact hws.out.trans (by rw [hname])

theorem responds_discardPendingCalls {tp : Nat} (h : discardPendingCalls e tp d = some d') :
    Responds [cmdReplyResp] d d' := by
  obtain ⟨expired, rest, ws, -, hws, hreq, -, -⟩ := discardPendingCalls_spec h
  refine .of_requests hws.out hreq fun r hr => ⟨cmdReplyResp, by decide, ?_⟩
  obtain ⟨pc, -, rfl⟩ := List.mem_map.mp hr
  rfl

end Dispatcher

end Flora
