import Flora.TagHelper
import Flora.Dispatcher.System

/-! # Tags of connections

`do_accept` gives a tcp connection the tag of its peer and leaves the tag of a unix connection at
zero until the peer authenticates. Every message the service passes on carries the sender's tag. -/

namespace Flora

open TransitionSystem

/-- The other end of an accepted connection. -/
inductive Peer where
  | unix
  | tcp (addr : SockaddrIn)

/-- The tag `do_accept` gives a connection. -/
def Peer.acceptTag : Peer → BitVec 64
  | unix => 0
  | tcp addr => TagHelper.create addr

/-- `MsgSender::connection_type` -/
def Peer.connectionType : Peer → Word
  | unix => 0
  | tcp _ => 1

namespace Dispatcher

variable {e : Env} {d d' : Dispatcher} {a sender : AdapterId} {caps : Caps}

/-- What happens to a tag: nothing, or a missing one becomes a process id. -/
def TagStep (t t' : BitVec 64) : Prop := t' = t ∨ t = 0 ∧ ∃ pid, t' = TagHelper.createPid pid

theorem TagStep.refl (t : BitVec 64) : TagStep t t := .inl rfl

theorem TagStep.trans {t t' t'' : BitVec 64} (h : TagStep t t') (h' : TagStep t' t'') :
    TagStep t t'' := by
  rcases h with rfl | ⟨hzero, pid, rfl⟩
  · exact h'
  · rcases h' with rfl | ⟨-, pid', rfl⟩
    · exact .inr ⟨hzero, pid, rfl⟩
    · exact .inr ⟨hzero, pid', rfl⟩

theorem tag_setAdapter (d : Dispatcher) (sender a : AdapterId) (info : Option InfoRef) :
    ((d.setAdapter sender { d.adapters sender with info := info }).adapters a).tag =
      (d.adapters a).tag := by
  rw [setAdapter_adapters]
  split
  · rename_i ha
    rw [ha]
  · rfl

theorem tag_addAdapterInfo (name : String) (flags pid : Word) (sender a : AdapterId)
    (d : Dispatcher) :
    ((addAdapterInfo name flags pid sender d).adapters a).tag = (d.adapters a).tag := by
  unfold addAdapterInfo
  dsimp only
  split
  · rfl
  · exact tag_setAdapter d sender a (some .client)

theorem tag_addAdapter (name : String) (flags pid : Word) (sender a : AdapterId) (d : Dispatcher) :
    ((addAdapter name flags pid sender d).1.adapters a).tag = (d.adapters a).tag := by
  unfold addAdapter
  split
  · split
    · rfl
    · exact tag_addAdapterInfo name flags pid sender a _
  · exact tag_addAdapterInfo name flags pid sender a d

theorem tag_addMonitor (name : String) (flags : Word) (sender a : AdapterId) (d : Dispatcher) :
    ((addMonitor name flags sender d).adapters a).tag = (d.adapters a).tag := by
  unfold addMonitor
  dsimp only
  split
  · rfl
  · exact tag_setAdapter d sender a (some .monitor)

theorem tagStep_authenticate (req : AuthReq) (sender a : AdapterId) (d : Dispatcher) :
    TagStep (d.adapters a).tag ((authenticate e req sender d).1.adapters a).tag := by
  unfold authenticate
  split
  · exact .refl _
  · dsimp only
    generalize htag : (if (d.adapters sender).tag = 0 then req.pid.setWidth 64
      else (d.adapters sender).tag) = t
    have hset : TagStep (d.adapters a).tag
        ((d.setAdapter sender { d.adapters sender with tag := t }).adapters a).tag := by
      rw [setAdapter_adapters]
      split
      · rename_i ha
        rw [ha, ← htag]
        split
        · exact .inr ⟨‹_›, req.pid, rfl⟩
        · exact .refl _
      · exact .refl _
    generalize d.setAdapter sender { d.adapters sender with tag := t } = d₁ at hset ⊢
    split
    · split
      · rw [tag_addMonitor]
        exact hset
      · exact hset
    · rw [← tag_addAdapter req.extra req.flags req.pid sender a d₁] at hset
      generalize addAdapter req.extra req.flags req.pid sender d₁ = res at hset ⊢
      obtain ⟨d₂, ok⟩ := res
      cases ok <;> exact hset

theorem adapters_setInfo (info : AdapterInfo) : (d.setInfo sender info).adapters a = d.adapters a := by
  unfold setInfo
  split <;> rfl

theorem tagStep_msgHandler {now : Nat} {cmd : Int} {ok : Bool} (a : AdapterId)
    (h : msgHandler e now cmd caps sender d = some (d', ok)) :
    TagStep (d.adapters a).tag (d'.adapters a).tag := by
  replace h := msgHandler_updates h
  induction h with
  | refl => exact .refl _
  | tail _ hup ih =>
    refine ih.trans ?_
    cases hup with
    | authenticate req => exact tagStep_authenticate req sender a _
    | purge name => exact .inl (by rw [purge_rest])
    | persist name msgtype args => exact .inl (by rw [persistPost_rest])
    | methods names _ _ => exact .inl (by rw [adapters_setInfo])
    | write hws => exact .inl (hws.tag a)
    | subscribe | unsubscribe | reply | refuse | enter => exact .refl _

theorem tag_close (b : AdapterId) : ((d.close b).adapters a).tag = (d.adapters a).tag := by
  rw [close_adapters]

theorem tagStep_step {act : Action} (h : step e d act = some d') (a : AdapterId) :
    TagStep (d.adapters a).tag (d'.adapters a).tag := by
  cases act with
  | msg caps sender now done =>
    obtain ⟨rfl, -⟩ | ⟨cmd, rest, d₁, ok, -, hh, rfl⟩ := handleMsg_request (step_msg h).2
    · exact .inl (tag_close sender)
    · refine (tagStep_msgHandler a hh).trans ?_
      cases ok
      · exact .inl (tag_close sender)
      · exact .refl _
  | erase sender now =>
    obtain ⟨-, rfl⟩ | ⟨info, d₁, ws, -, hws, -, rfl⟩ := doEraseAdapter_spec (step_erase h).2
    · exact .refl _
    · refine .inl ?_
      have hname : ((eraseName info.name d).adapters a).tag = (d.adapters a).tag := by
        unfold eraseName
        split <;> rfl
      rw [checkSubscriptions_rest, ← hname, ← hws.tag a]
      split <;> rfl
  | expire tp =>
    obtain ⟨expired, rest, ws, -, hws, -⟩ := discardPendingCalls_spec h
    exact .inl (hws.tag a)
  | close b =>
    cases h
    exact .inl (tag_close b)
  | destroy b =>
    obtain ⟨-, -, rfl⟩ := step_destroy h
    refine .inl ?_
    rw [setAdapter_adapters]
    split
    · rename_i hb
      rw [hb]
    · rfl

theorem tagStep_run {acts : List Action} (h : (system e).Run d acts d') (a : AdapterId) :
    TagStep (d.adapters a).tag (d'.adapters a).tag := by
  induction h with
  | nil => exact .refl _
  | cons hstep _ ih => exact (tagStep_step hstep a).trans ih

/-- In every run the tag of a connection tells its kind: a tcp connection keeps the tag it was
accepted with, and that of a unix connection is a process id. -/
theorem tag_tells_peer {acts : List Action} {peer : Peer} (h : (system e).Run d acts d')
    (haccept : (d.adapters a).tag = peer.acceptTag) :
    TagHelper.type (d'.adapters a).tag = peer.connectionType ∧
      ∀ addr, peer = .tcp addr → (d'.adapters a).tag = TagHelper.create addr := by
  have htag := tagStep_run h a
  rw [haccept] at htag
  cases peer with
  | unix =>
    refine ⟨?_, fun addr heq => absurd heq (by rintro ⟨⟩)⟩
    rcases htag with heq | ⟨-, pid, heq⟩
    · rw [heq]
      exact TagHelper.type_createPid 0
    · rw [heq]
      exact TagHelper.type_createPid pid
  | tcp addr =>
    have heq : (d'.adapters a).tag = TagHelper.create addr := by
      rcases htag with heq | ⟨hzero, -⟩
      · exact heq
      · exact absurd hzero (TagHelper.create_ne_createPid addr 0)
    refine ⟨by rw [heq]; exact TagHelper.type_create, ?_⟩
    rintro _ ⟨⟩
    exact heq

end Dispatcher

end Flora
