import Flora.Socket.Transport
import Mathlib.Data.List.Forall2

/-! # From the service to a client

Messages that `SocketAdapter::write` reported as sent are handed to the command handler of the
client in order, each once, with the fields that were written. -/

namespace Flora

open TransitionSystem Framing

universe u

/-- A message the count of whose items fits the wire. -/
abbrev SentMessage := { m : ServiceMessage // m.Countable }

/-- What the command handler of the client makes of the message. -/
def ServiceMessage.HandedAs (m : ServiceMessage) (p : Word × Caps) : Prop :=
  m.caps.readWord = some p ∧ m.cmdHandler p.1 p.2 = .ok m.received

def downlink {σ : Type u} (f : CapsFormat) (cmdHandler : CmdHandler σ) :
    Direction SentMessage (RecvThread σ) RecvThread.Action where
  endpoint := .service
  caps m := m.1.caps
  receive := RecvThread.step f cmdHandler
  received := RecvThread.received

namespace Downlink

variable {σ : Type u} {w : CapsLibrary} {cmdHandler : CmdHandler σ} {size : Nat} {bufsize : Word}
  {start : σ} {l : Channel SentMessage (RecvThread σ)}

abbrev system (w : CapsLibrary) (cmdHandler : CmdHandler σ) (size : Nat) (bufsize : Word)
    (start : σ) :
    System (Channel SentMessage (RecvThread σ)) (Channel.Action SentMessage RecvThread.Action) :=
  Channel.regular (downlink w.toCapsFormat cmdHandler) w size (RecvThread.Initial · bufsize start)

abbrev clientSteps (w : CapsLibrary) (cmdHandler : CmdHandler σ) (size : Nat) (bufsize : Word)
    (start : σ) :
    System (Channel SentMessage (RecvThread σ)) (Channel.Action SentMessage RecvThread.Action) :=
  Channel.receiverSteps (downlink w.toCapsFormat cmdHandler) w size
    (RecvThread.Initial · bufsize start)

abbrev Wf (w : CapsLibrary) (cmdHandler : CmdHandler σ) (size : Nat) (bufsize : Word) (start : σ)
    (l : Channel SentMessage (RecvThread σ)) : Prop :=
  Channel.Wf (downlink w.toCapsFormat cmdHandler) w size l (RecvThread.Initial · bufsize start)

theorem reachable_wf (h : (system w cmdHandler size bufsize start).Reachable l) :
    Wf w cmdHandler size bufsize start l := by
  apply Channel.reachable_wf _ h
  rintro r ⟨rbuffer, -, rfl⟩
  rfl

theorem headed {caps : Caps} {bytes : List Byte} (h : w.Written size caps bytes) :
    (recvProtocol w.toCapsFormat cmdHandler).Headed bytes := by
  obtain ⟨hheader, length, hinfo, hlength⟩ := h.header
  refine ⟨hheader, fun n hn => ?_⟩
  cases (RecvThread.frameLength_recvProtocol hinfo).symm.trans hn
  exact hlength

theorem deliver_recvProtocol (s : σ × List (Word × Caps)) (frame : List Byte) :
    ((recvProtocol w.toCapsFormat cmdHandler).deliver s frame).1.2 =
      s.2 ++ (w.codec.command frame).toList := by
  obtain hnone | ⟨p, hsome⟩ := (w.codec.command frame).eq_none_or_eq_some
  · have hbind : (w.parse frame).bind Caps.readWord = none := hnone
    simp [recvProtocol, hbind, hnone]
  · have hbind : (w.parse frame).bind Caps.readWord = some p := hsome
    simp [recvProtocol, hbind, hsome]

theorem feed_recvProtocol (s : σ × List (Word × Caps)) (frames : List (List Byte)) :
    ((recvProtocol w.toCapsFormat cmdHandler).feed s frames).2 =
      s.2 ++ frames.filterMap w.codec.command := by
  induction frames generalizing s with
  | nil => exact (List.append_nil _).symm
  | cons frame frames ih =>
    change ((recvProtocol w.toCapsFormat cmdHandler).feed _ frames).2 = _
    rw [ih, deliver_recvProtocol, List.filterMap_cons, List.append_assoc]
    cases w.codec.command frame <;> rfl

theorem handed_of_written {m : SentMessage × List Byte} (h : w.Written size m.1.1.caps m.2) :
    ∃ p, w.codec.command m.2 = some p ∧ m.1.1.HandedAs p := by
  obtain ⟨cmd, rest, hread, hhandler⟩ := m.1.1.cmdHandler_caps m.1.2
  exact ⟨(cmd, rest), h.command.trans hread, hread, hhandler⟩

theorem forall₂_commands {sent : List (SentMessage × List Byte)}
    (h : ∀ m ∈ sent, w.Written size m.1.1.caps m.2) :
    List.Forall₂ (fun p m => m.1.1.HandedAs p)
      ((sent.map Prod.snd).filterMap w.codec.command) sent := by
  induction sent with
  | nil => exact .nil
  | cons m sent ih =>
    obtain ⟨p, hp, hhanded⟩ := handed_of_written (h m List.mem_cons_self)
    rw [List.map_cons, List.filterMap_cons, hp]
    exact .cons hhanded (ih fun m' hm' => h m' (List.mem_cons_of_mem m hm'))

/-- Frames of the first messages are handed over as these messages. -/
theorem Wf.feed (h : Wf w cmdHandler size bufsize start l)
    {done later : List (SentMessage × List Byte)} (hsent : l.sent = done ++ later) :
    List.Forall₂ (fun p m => m.1.1.HandedAs p) ((recvProtocol w.toCapsFormat cmdHandler).feed
      (start, []) (done.map Prod.snd)).2 done := by
  rw [feed_recvProtocol, List.nil_append]
  apply forall₂_commands
  intro m hm
  apply h.written m
  rw [hsent]
  exact List.mem_append_left later hm

/-- A frame of a message is rejected by the command handler only. -/
theorem rejected_by_handler {m : SentMessage × List Byte} (h : w.Written size m.1.1.caps m.2)
    {done : List (SentMessage × List Byte)}
    (hreject : ((recvProtocol w.toCapsFormat cmdHandler).deliver
      ((recvProtocol w.toCapsFormat cmdHandler).feed (start, []) (done.map Prod.snd)) m.2).2 =
        false) :
    ∃ p s, ((recvProtocol w.toCapsFormat cmdHandler).feed (start, [])
      ((done ++ [m]).map Prod.snd)).2.getLast? = some p ∧ (cmdHandler s p.1 p.2).2 = false := by
  obtain ⟨p, hp, -⟩ := handed_of_written h
  refine ⟨p, ((recvProtocol w.toCapsFormat cmdHandler).feed (start, []) (done.map Prod.snd)).1,
    ?_, ?_⟩
  · simp [feed_recvProtocol, hp]
  · have hbind : (w.parse m.2).bind Caps.readWord = some p := hp
    simpa [recvProtocol, hbind] using hreject

/-- What is cut from the bytes that have arrived is what the service sent: no header is invalid. -/
theorem Wf.cut_cases (h : Wf w cmdHandler size bufsize start l) {state : σ}
    {handed : List (Word × Caps)} {ending : Ending Byte Unit}
    (hsplit : (recvProtocol w.toCapsFormat cmdHandler).split (start, []) l.receiver.received =
      ((state, handed), ending)) :
    ∃ done later, l.sent = done ++ later ∧
      List.Forall₂ (fun p m => m.1.1.HandedAs p) handed done ∧
      ((∃ rest, ending = .more rest ∧ Channel.Partial rest later ∧
        l.receiver.received = (done.map Prod.snd).flatten ++ rest) ∨
      ending = .rejected ∧
        ∃ p s, handed.getLast? = some p ∧ (cmdHandler s p.1 p.2).2 = false) := by
  have hcut := h.cut (p := recvProtocol w.toCapsFormat cmdHandler) (fun _ _ => headed) (start, [])
  change Channel.Cut _ _ _ l.receiver.received
    ((recvProtocol w.toCapsFormat cmdHandler).split (start, []) l.receiver.received) at hcut
  rw [hsplit] at hcut
  generalize hresult : ((state, handed), ending) = result at hcut
  cases hcut with
  | more done later rest hsent hreceived hrest =>
    obtain ⟨hfeed, rfl⟩ := Prod.mk.inj hresult
    have hhanded := h.feed hsent
    rw [← hfeed] at hhanded
    exact ⟨done, later, hsent, hhanded, .inl ⟨rest, rfl, hrest, hreceived⟩⟩
  | invalid done m later err hsent hheader =>
    obtain ⟨-, length, hinfo, -⟩ := (h.written m (by simp [hsent])).header
    cases (RecvThread.frameLength_recvProtocol hinfo).symm.trans hheader
  | rejected done m later hsent hreject =>
    obtain ⟨hfeed, rfl⟩ := Prod.mk.inj hresult
    have hassoc : l.sent = (done ++ [m]) ++ later := by
      rw [hsent, List.append_assoc]
      rfl
    have hhanded := h.feed hassoc
    have hrejected := rejected_by_handler (h.written m (by simp [hsent])) hreject
    rw [← hfeed] at hhanded hrejected
    exact ⟨done ++ [m], later, hassoc, hhanded, .inr ⟨rfl, hrejected⟩⟩

theorem exists_message {handed : List (Word × Caps)} {done : List (SentMessage × List Byte)}
    (h : List.Forall₂ (fun p m => m.1.1.HandedAs p) handed done) {p : Word × Caps}
    (hp : p ∈ handed) : ∃ m ∈ done, m.1.1.HandedAs p := by
  induction h with
  | nil => cases hp
  | cons hfirst _ ih =>
    obtain rfl | hp := List.mem_cons.mp hp
    · exact ⟨_, List.mem_cons_self, hfirst⟩
    · obtain ⟨m, hm, hhanded⟩ := ih hp
      exact ⟨m, List.mem_cons_of_mem _ hm, hhanded⟩

theorem Wf.handed (h : Wf w cmdHandler size bufsize start l)
    (hwf : RecvThread.Wf w.toCapsFormat cmdHandler bufsize start l.receiver) :
    ∃ done later, l.sent = done ++ later ∧
      List.Forall₂ (fun p m => m.1.1.HandedAs p) l.receiver.handed done := by
  obtain ⟨more, hmore⟩ : ∃ more,
      ((recvProtocol w.toCapsFormat cmdHandler).split (start, []) l.receiver.received).1.2 =
        l.receiver.handed ++ more := by
    have hagrees := hwf.agrees
    cases hpc : l.receiver.pc with
    | receiving =>
      simp only [RecvThread.Agrees, hpc] at hagrees
      rw [hagrees]
      exact ⟨[], (List.append_nil _).symm⟩
    | handling size off =>
      rw [(hwf.handling hpc).2.2]
      obtain ⟨frames, hframes⟩ := Protocol.split_feeds (recvProtocol w.toCapsFormat cmdHandler)
        l.receiver.handedTo l.receiver.undelivered
      exact ⟨_, by rw [hframes, feed_recvProtocol]; rfl⟩
    | stopped err =>
      simp only [RecvThread.Agrees, hpc] at hagrees
      obtain ⟨hcut, -⟩ | ⟨hcut | hcut, -⟩ := hagrees <;>
        exact ⟨[], by rw [hcut]; exact (List.append_nil _).symm⟩
  obtain ⟨done, later, hsent, hhanded, -⟩ := h.cut_cases (rfl : _ = ((_, _), _))
  rw [hmore] at hhanded
  refine ⟨done.take l.receiver.handed.length, done.drop l.receiver.handed.length ++ later, ?_, ?_⟩
  · rw [← List.append_assoc, List.take_append_drop, hsent]
  · have htake := List.forall₂_take l.receiver.handed.length hhanded
    rw [List.take_left] at htake
    exact htake

theorem Wf.oversized (h : Wf w cmdHandler size bufsize start l) (hsize : headerSize ≤ bufsize.toNat)
    {done later : List (SentMessage × List Byte)} {rest : List Byte}
    (hsent : l.sent = done ++ later) (hrest : Channel.Partial rest later)
    (hover : RecvThread.Oversized w.toCapsFormat bufsize rest) :
    ∃ m ms, later = m :: ms ∧ bufsize.toNat < m.2.length := by
  obtain ⟨hfull, length, hinfo, hlong⟩ := hover
  have hheader : headerSize ≤ rest.length := Nat.le_trans hsize hfull
  obtain rfl | ⟨m, ms, rfl, ⟨tail, htail⟩, -⟩ := hrest
  · exact absurd hheader (by decide)
  · obtain ⟨-, length', hinfo', hlength⟩ := (h.written m (by simp [hsent])).header
    rw [← htail, List.take_append_of_le_length hheader, hinfo] at hinfo'
    cases hinfo'
    exact ⟨m, ms, rfl, by rw [← hlength]; exact BitVec.lt_def.mp hlong⟩

/-- However the steps of the service, the network and the client follow each other, as long as no
write is short: the messages handed to the command handler are the first ones that the service sent,
in order and with their fields. While the client receives, nothing is lost; it stops for want of
room only at a message longer than its buffer, and otherwise because its read failed or the command
handler rejected a message. -/
theorem service_messages_arrive (w : CapsLibrary) (cmdHandler : CmdHandler σ) (size : Nat)
    (bufsize : Word) (hsize : 32768 ≤ bufsize.toNat) (start : σ)
    {l : Channel SentMessage (RecvThread σ)}
    (h : (system w cmdHandler size bufsize start).Reachable l) :
    ∃ done later, l.sent = done ++ later ∧
      List.Forall₂ (fun p m => m.1.1.HandedAs p) l.receiver.handed done ∧
      (l.receiver.pc = .receiving →
        l.receiver.received =
          (done.map Prod.snd).flatten ++ l.receiver.rbuffer.take l.receiver.rbufOff.toNat ∧
        (l.receiver.received = l.sender.wire → later = [])) ∧
      ∀ err, l.receiver.pc = .stopped err →
        (err = cliEinsuffBuf → ∃ m ms, later = m :: ms ∧ bufsize.toNat < m.2.length) ∧
        (err ≠ cliEinsuffBuf →
          l.receiver.received =
            (done.map Prod.snd).flatten ++ l.receiver.rbuffer.take l.receiver.rbufOff.toNat ∨
          ∃ p s, l.receiver.handed.getLast? = some p ∧ (cmdHandler s p.1 p.2).2 = false) := by
  have hwf := reachable_wf h
  have hreceiver : RecvThread.Wf w.toCapsFormat cmdHandler bufsize start l.receiver :=
    RecvThread.reachable_wf hwf.receiver
  have hheader : headerSize ≤ bufsize.toNat := Nat.le_trans (by decide) hsize
  have hagrees := hreceiver.agrees
  cases hpc : l.receiver.pc with
  | handling size' off =>
    obtain ⟨done, later, hsent, hhanded⟩ := hwf.handed hreceiver
    exact ⟨done, later, hsent, hhanded, by simp, by simp⟩
  | receiving =>
    simp only [RecvThread.Agrees, RecvThread.undelivered, hpc] at hagrees
    obtain ⟨done, later, hsent, hhanded, ⟨rest, hmore, hrest, hreceived⟩ | ⟨hrejected, -⟩⟩ :=
      hwf.cut_cases hagrees
    · cases hmore
      exact ⟨done, later, hsent, hhanded,
        fun _ => ⟨hreceived, hwf.all_arrived (p := recvProtocol w.toCapsFormat cmdHandler)
          (fun _ _ => headed) hsent hrest hreceived⟩, by simp⟩
    · cases hrejected
  | stopped err =>
    simp only [RecvThread.Agrees, RecvThread.undelivered, hpc] at hagrees
    obtain ⟨hmore, hfull⟩ | ⟨hstop, hne⟩ := hagrees
    · rw [hreceiver.full_iff hheader hmore] at hfull
      obtain ⟨done, later, hsent, hhanded, ⟨rest, heq, hrest, hreceived⟩ | ⟨hrejected, -⟩⟩ :=
        hwf.cut_cases hmore
      · cases heq
        refine ⟨done, later, hsent, hhanded, by simp, fun err' heq' => ?_⟩
        cases heq'
        exact ⟨fun herr => hwf.oversized hheader hsent hrest (hfull.mp herr),
          fun _ => .inl hreceived⟩
      · cases hrejected
    · have hrejected : (recvProtocol w.toCapsFormat cmdHandler).split (start, [])
          l.receiver.received = ((l.receiver.state, l.receiver.handed), .rejected) := by
        obtain hinvalid | hrejected := hstop
        · obtain ⟨_, _, _, _, ⟨_, hend, _⟩ | ⟨hend, _⟩⟩ := hwf.cut_cases hinvalid <;> cases hend
        · exact hrejected
      obtain ⟨done, later, hsent, hhanded, ⟨rest, hmore, -⟩ | ⟨-, hlast⟩⟩ :=
        hwf.cut_cases hrejected
      · cases hmore
      · refine ⟨done, later, hsent, hhanded, by simp, fun err' heq => ?_⟩
        cases heq
        exact ⟨fun herr => absurd herr hne, fun _ => .inr hlast⟩

abbrev sampleHandler : CmdHandler Unit := fun s _ _ => (s, true)

def samplePost : ServiceMessage := .post "a" 0 (some [.i32 1]) 0 "b"

def sampleLibrary : CapsLibrary := .sample [ServiceMessage.pong.caps, samplePost.caps]

/-- The service has sent a post and a pong, and the client has not read them yet. -/
def sampleSent : Channel SentMessage (RecvThread Unit) where
  sender := ⟨true, [102, 0, 0, 0, 0, 0, 0, 8, 106, 0, 0, 0, 0, 0, 0, 8],
    [⟨[102, 0, 0, 0, 0, 0, 0, 8], [102, 0, 0, 0, 0, 0, 0, 8], true⟩,
      ⟨[106, 0, 0, 0, 0, 0, 0, 8], [106, 0, 0, 0, 0, 0, 0, 8], true⟩]⟩
  receiver := RecvThread.sampleThread
  sent := [(⟨samplePost, trivial⟩, [102, 0, 0, 0, 0, 0, 0, 8]),
    (⟨.pong, trivial⟩, [106, 0, 0, 0, 0, 0, 0, 8])]

theorem sampleSent_reachable :
    (system sampleLibrary sampleHandler 32768 32768 ()).Reachable sampleSent := by
  refine ⟨{ receiver := RecvThread.sampleThread },
    [.send ⟨samplePost, trivial⟩ .net (.accepted 8), .send ⟨.pong, trivial⟩ .net (.accepted 8)],
    ⟨_, ⟨List.replicate 32768 0, List.length_replicate, rfl⟩, rfl⟩,
    .cons ⟨⟨CapsLibrary.sample_sound .net rfl, ?_⟩, rfl⟩
      (.single ⟨⟨CapsLibrary.sample_sound .net rfl, ?_⟩, rfl⟩)⟩ <;>
  · intro bytes hwrite
    cases hwrite
    exact fun _ => .inl rfl

theorem service_messages_arrive_pong : ∃ l,
    (system sampleLibrary sampleHandler 32768 32768 ()).Reachable l ∧
      l.receiver.handed = [(cmdPostResp, samplePost.caps.tail), (cmdPongResp, [])] ∧
      List.Forall₂ (fun p m => m.1.1.HandedAs p) l.receiver.handed l.sent ∧
      l.sent = sampleSent.sent := by
  let d := downlink sampleLibrary.toCapsFormat sampleHandler
  -- A frame and a half arrive first, then the rest.
  have hrun : ∃ l₁ l₂ l₃ l₄ l₅ l, Channel.step d sampleLibrary 32768 sampleSent
        (.receive (.recv (some [102, 0, 0, 0, 0, 0, 0, 8, 106, 0, 0]) false)) = some l₁ ∧
      Channel.step d sampleLibrary 32768 l₁ (.receive (.handle false)) = some l₂ ∧
      Channel.step d sampleLibrary 32768 l₂ (.receive (.handle false)) = some l₃ ∧
      Channel.step d sampleLibrary 32768 l₃
        (.receive (.recv (some [0, 0, 0, 0, 8]) false)) = some l₄ ∧
      Channel.step d sampleLibrary 32768 l₄ (.receive (.handle false)) = some l₅ ∧
      Channel.step d sampleLibrary 32768 l₅ (.receive (.handle false)) = some l ∧
      l.receiver.pc = .receiving ∧
      l.receiver.handed = [(cmdPostResp, samplePost.caps.tail), (cmdPongResp, [])] ∧
      l.receiver.received = l.sender.wire ∧ l.sent = sampleSent.sent :=
    ⟨_, _, _, _, _, _, rfl, rfl, rfl, rfl, rfl, rfl, rfl, rfl, rfl, rfl⟩
  obtain ⟨l₁, l₂, l₃, l₄, l₅, l, h₁, h₂, h₃, h₄, h₅, h, hpc, hhanded, hall, hsame⟩ := hrun
  have hhalf := Channel.reachable_receive (Channel.reachable_receive
    (Channel.reachable_receive sampleSent_reachable h₁) h₂) h₃
  have hreach := Channel.reachable_receive (Channel.reachable_receive
    (Channel.reachable_receive hhalf h₄) h₅) h
  obtain ⟨done, later, hsent, harrived, hreceived, -⟩ := service_messages_arrive sampleLibrary
    sampleHandler 32768 32768 (by decide) () hreach
  refine ⟨l, hreach, hhanded, ?_, hsame⟩
  rw [hsent, (hreceived hpc).2 hall, List.append_nil]
  exact harrived

/-- `handle_received` gives up at an invalid header or a rejected message only. -/
theorem split_of_stopped {r r' : RecvThread σ}
    (h : RecvThread.Wf w.toCapsFormat cmdHandler bufsize start r) {size' off : Word}
    (hpc : r.pc = .handling size' off) {authWaiting : Bool}
    (hstep : r.handle w.toCapsFormat cmdHandler authWaiting = some r') {err : Word}
    (hstop : r'.pc = .stopped err) :
    (recvProtocol w.toCapsFormat cmdHandler).split (start, []) r'.received =
        (r'.handedTo, .invalid ()) ∨
      (recvProtocol w.toCapsFormat cmdHandler).split (start, []) r'.received =
        (r'.handedTo, .rejected) := by
  obtain ⟨hoff, -, hagrees⟩ := h.handling hpc
  have hsub : (size' - off).toNat = size'.toNat - off.toNat :=
    BitVec.toNat_sub_of_le (BitVec.le_def.mpr hoff)
  have hlength := h.length_undelivered hpc
  simp only [RecvThread.handle, hpc] at hstep
  split at hstep
  · split at hstep
    · cases hstep
      cases hstop
    · rename_i hheader
      have hheader : headerSize ≤ size'.toNat - off.toNat := by
        rw [← hsub]
        exact Nat.le_of_not_lt fun hlt => hheader (BitVec.lt_def.mpr hlt)
      have htake := RecvThread.take_undelivered hpc hheader
      split at hstep
      · rename_i hinfo
        cases hstep
        have hinvalid : (recvProtocol w.toCapsFormat cmdHandler).frameLength
            (r.undelivered.take headerSize) = .error () := by
          rw [htake]
          simp only [recvProtocol, hinfo]
        left
        exact hagrees.trans (Protocol.split_of_invalid (by rw [hlength]; exact hheader) hinvalid)
      · rename_i length hinfo
        split at hstep
        · cases hstep
          cases hstop
        · rename_i hfits
          have hfits : length.toNat ≤ size'.toNat - off.toNat := by
            rw [← hsub]
            exact Nat.le_of_not_lt fun hlt => hfits (BitVec.lt_def.mpr hlt)
          cases hstep
          rw [RecvThread.handleFrame_spec] at hstop ⊢
          have hframeLength : (recvProtocol w.toCapsFormat cmdHandler).frameLength
              (r.undelivered.take headerSize) = .ok length.toNat := by
            rw [htake]
            exact RecvThread.frameLength_recvProtocol hinfo
          have hcut := Protocol.split_of_complete (s := r.handedTo)
            (by rw [hlength]; exact hheader) hframeLength (by rw [hlength]; exact hfits)
          rw [RecvThread.take_undelivered hpc hfits] at hcut
          right
          dsimp only at hstop ⊢
          split at hstop
          · cases hstop
          · rename_i hreject
            rw [hagrees, hcut, if_neg hreject]
            rfl
  · cases hstep
    cases hstop

def turns (r : RecvThread σ) : Nat := if r.busy then r.undelivered.length + 1 else 0

/-- The client receives, every message fits its buffer and is accepted by the command handler. -/
structure Served (w : CapsLibrary) (cmdHandler : CmdHandler σ) (size : Nat) (bufsize : Word)
    (start : σ) (l : Channel SentMessage (RecvThread σ)) : Prop where
  wf : Wf w cmdHandler size bufsize start l
  fits : ∀ m ∈ l.sent, m.2.length ≤ bufsize.toNat
  accepts : ∀ m ∈ l.sent, ∀ p, m.1.1.HandedAs p → ∀ s, (cmdHandler s p.1 p.2).2 = true
  running : ∀ err, l.receiver.pc ≠ .stopped err

theorem Served.receiver (h : Served w cmdHandler size bufsize start l) :
    RecvThread.Wf w.toCapsFormat cmdHandler bufsize start l.receiver :=
  RecvThread.reachable_wf h.wf.receiver

theorem Served.room (h : Served w cmdHandler size bufsize start l)
    (hsize : headerSize ≤ bufsize.toNat) {done later : List (SentMessage × List Byte)}
    (hsent : l.sent = done ++ later)
    (hrest : Channel.Partial (l.receiver.rbuffer.take l.receiver.rbufOff.toNat) later)
    (hsplit : (recvProtocol w.toCapsFormat cmdHandler).split (start, []) l.receiver.received =
      (l.receiver.handedTo, .more (l.receiver.rbuffer.take l.receiver.rbufOff.toNat))) :
    l.receiver.rbufOff ≠ l.receiver.bufsize ∧
      0 < (l.receiver.bufsize - l.receiver.rbufOff).toNat := by
  have hroom : l.receiver.rbufOff ≠ l.receiver.bufsize := by
    intro hfull
    obtain ⟨m, ms, rfl, hlong⟩ := h.wf.oversized hsize hsent hrest
      ((h.receiver.full_iff hsize hsplit).mp hfull)
    have hfit := h.fits m (by simp [hsent])
    omega
  refine ⟨hroom, ?_⟩
  have hoff := h.receiver.off_le
  have hne : l.receiver.rbufOff.toNat ≠ l.receiver.bufsize.toNat :=
    fun heq => hroom (BitVec.toNat_inj.mp heq)
  rw [h.receiver.bufsize_eq] at hne ⊢
  rw [BitVec.toNat_sub_of_le (BitVec.le_def.mpr hoff)]
  omega

/-- Between two reads either everything has been handed over, or the next byte can be read. -/
theorem Served.recv (h : Served w cmdHandler size bufsize start l)
    (hsize : headerSize ≤ bufsize.toNat) (hpc : l.receiver.pc = .receiving) :
    List.Forall₂ (fun p m => m.1.1.HandedAs p) l.receiver.handed l.sent ∨
      ∃ act r, l.receiver.step w.toCapsFormat cmdHandler act = some r ∧
        r.received <+: l.sender.wire ∧
        Served w cmdHandler size bufsize start { l with receiver := r } ∧
        Channel.remaining (downlink w.toCapsFormat cmdHandler) { l with receiver := r }
            (bufsize.toNat + 1) turns <
          Channel.remaining (downlink w.toCapsFormat cmdHandler) l (bufsize.toNat + 1) turns := by
  have hagrees := h.receiver.agrees
  simp only [RecvThread.Agrees, RecvThread.undelivered, hpc] at hagrees
  obtain ⟨done, later, hsent, hhanded, ⟨rest, hmore, hrest, hreceived⟩ | ⟨hrejected, -⟩⟩ :=
    h.wf.cut_cases hagrees
  · cases hmore
    obtain ⟨tail, htail⟩ := h.wf.arrived
    change l.receiver.received ++ tail = l.sender.wire at htail
    cases tail with
    | nil =>
      rw [List.append_nil] at htail
      have hlater := h.wf.all_arrived (p := recvProtocol w.toCapsFormat cmdHandler)
        (fun _ _ => headed) hsent hrest hreceived htail
      left
      rw [hsent, hlater, List.append_nil]
      exact hhanded
    | cons b tail =>
      right
      obtain ⟨hroom, hfree⟩ := h.room hsize hsent hrest hagrees
      have hfits : [b].length ≤ (l.receiver.bufsize - l.receiver.rbufOff).toNat := hfree
      obtain ⟨r, size', off, hstep, hr, hpc'⟩ : ∃ r size' off,
          l.receiver.recv (some [b]) false = some r ∧
          r.received = l.receiver.received ++ [b] ∧ r.pc = .handling size' off :=
        ⟨_, _, _, by rw [RecvThread.recv, if_pos hpc, if_neg hroom, Option.getD_some, if_pos hfits],
          rfl, rfl⟩
      have hreceiver := h.receiver.recv hstep
      have harrived : r.received <+: l.sender.wire :=
        ⟨tail, by rw [hr, ← htail, List.append_assoc]; rfl⟩
      refine ⟨.recv (some [b]) false, r, hstep, harrived,
        ⟨h.wf.receive (a := .recv (some [b]) false) hstep harrived, h.fits, h.accepts,
          fun err heq => by cases hpc'.symm.trans heq⟩, ?_⟩
      apply Channel.remaining_read htail hr
      have hlength := hreceiver.length_undelivered hpc'
      have hsize' := (hreceiver.handling hpc').2.1
      simp only [turns, RecvThread.busy, hpc', if_true, hlength]
      omega
  · cases hrejected

/-- A turn of the loop of `handle_received` ends it or hands a message over. -/
theorem Served.handle (h : Served w cmdHandler size bufsize start l) {size' off : Word}
    (hpc : l.receiver.pc = .handling size' off) :
    ∃ act r, l.receiver.step w.toCapsFormat cmdHandler act = some r ∧
      r.received <+: l.sender.wire ∧
      Served w cmdHandler size bufsize start { l with receiver := r } ∧
      Channel.remaining (downlink w.toCapsFormat cmdHandler) { l with receiver := r }
          (bufsize.toNat + 1) turns <
        Channel.remaining (downlink w.toCapsFormat cmdHandler) l (bufsize.toNat + 1) turns := by
  obtain ⟨r, hstep, hreceived⟩ := RecvThread.handle_isSome w.toCapsFormat cmdHandler hpc false
  obtain ⟨hreceiver, hmoves⟩ := h.receiver.handle hstep
  have harrived : r.received <+: l.sender.wire := by
    rw [hreceived]
    exact h.wf.arrived
  have hwf : Wf w cmdHandler size bufsize start { l with receiver := r } :=
    h.wf.receive (a := .handle false) hstep harrived
  have hrunning (err : Word) : r.pc ≠ .stopped err := by
    intro hstop
    obtain hinvalid | hrejected := split_of_stopped h.receiver hpc hstep hstop
    · obtain ⟨_, _, _, _, ⟨_, hend, _⟩ | ⟨hend, _⟩⟩ := hwf.cut_cases hinvalid <;> cases hend
    · obtain ⟨done, later, hsent, hhanded, ⟨_, hend, _⟩ | ⟨-, p, s, hlast, hreject⟩⟩ :=
        hwf.cut_cases hrejected
      · cases hend
      · obtain ⟨m, hm, hp⟩ := exists_message hhanded (List.mem_of_getLast? hlast)
        have hmem : m ∈ l.sent := by
          change l.sent = done ++ later at hsent
          rw [hsent]
          exact List.mem_append_left later hm
        rw [h.accepts m hmem p hp s] at hreject
        cases hreject
  have hlength := h.receiver.length_undelivered hpc
  have hturns : turns r < turns l.receiver := by
    cases hpc' : r.pc with
    | receiving => simp [turns, RecvThread.busy, hpc, hpc']
    | stopped err => exact absurd hpc' (hrunning err)
    | handling size₁ off₁ =>
      obtain ⟨rfl, hlt⟩ := hmoves size' off size₁ off₁ hpc hpc'
      have hlength' := hreceiver.length_undelivered hpc'
      have hle := (hreceiver.handling hpc').1
      simp only [turns, RecvThread.busy, hpc, hpc', hlength, hlength', if_true]
      omega
  refine ⟨.handle false, r, hstep, harrived, ⟨hwf, h.fits, h.accepts, hrunning⟩, ?_⟩
  simp only [Channel.remaining, downlink, hreceived]
  omega

/-- As long as the client has not stopped, the messages fit its buffer and its command handler
accepts them, reading leads to all of them being handed over. -/
theorem exists_handed_run (w : CapsLibrary) (cmdHandler : CmdHandler σ) (size : Nat)
    (bufsize : Word) (hsize : 32768 ≤ bufsize.toNat) (start : σ)
    {l : Channel SentMessage (RecvThread σ)}
    (h : (system w cmdHandler size bufsize start).Reachable l)
    (hrunning : ∀ err, l.receiver.pc ≠ .stopped err)
    (hfits : ∀ m ∈ l.sent, m.2.length ≤ bufsize.toNat)
    (haccepts : ∀ m ∈ l.sent, ∀ p, m.1.1.HandedAs p → ∀ s, (cmdHandler s p.1 p.2).2 = true) :
    ∃ acts l', (clientSteps w cmdHandler size bufsize start).Run l acts l' ∧ l'.sent = l.sent ∧
      List.Forall₂ (fun p m => m.1.1.HandedAs p) l'.receiver.handed l'.sent := by
  have hheader : headerSize ≤ bufsize.toNat := Nat.le_trans (by decide) hsize
  have hserved : Served w cmdHandler size bufsize start l :=
    ⟨reachable_wf h, hfits, haccepts, hrunning⟩
  apply Channel.exists_receiver_run (v := fun l =>
    Channel.remaining (downlink w.toCapsFormat cmdHandler) l (bufsize.toNat + 1) turns) hserved
  intro l hl
  cases hpc : l.receiver.pc with
  | receiving => exact hl.recv hheader hpc
  | handling size' off => exact .inr (hl.handle hpc)
  | stopped err => exact absurd hpc (hl.running err)

end Downlink

end Flora
