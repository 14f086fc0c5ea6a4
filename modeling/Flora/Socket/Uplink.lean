import Flora.Socket.Transport

/-! # From a client to the service

Messages that `SocketConn::send` reported as sent are passed to `Dispatcher::put` in order, each
once, and are read there with the fields that were written. -/

namespace Flora

open TransitionSystem Framing

def uplink (f : CapsFormat) : Direction ClientMessage Connection Connection.Action where
  endpoint := .client
  caps := ClientMessage.caps
  receive := Connection.step f
  received := Connection.received

namespace Uplink

variable {w : CapsLibrary} {size : Nat} {bufSize : Word} {l : Channel ClientMessage Connection}

abbrev system (w : CapsLibrary) (size : Nat) (bufSize : Word) :
    System (Channel ClientMessage Connection) (Channel.Action ClientMessage Connection.Action) :=
  Channel.regular (uplink w.toCapsFormat) w size (Connection.Initial · bufSize)

abbrev serviceSteps (w : CapsLibrary) (size : Nat) (bufSize : Word) :
    System (Channel ClientMessage Connection) (Channel.Action ClientMessage Connection.Action) :=
  Channel.receiverSteps (uplink w.toCapsFormat) w size (Connection.Initial · bufSize)

abbrev Wf (w : CapsLibrary) (size : Nat) (bufSize : Word) (l : Channel ClientMessage Connection) :
    Prop :=
  Channel.Wf (uplink w.toCapsFormat) w size l (Connection.Initial · bufSize)

theorem reachable_wf (h : (system w size bufSize).Reachable l) : Wf w size bufSize l := by
  apply Channel.reachable_wf _ h
  rintro c ⟨buffer, -, rfl⟩
  rfl

/-- The bound of the service's buffer is checked with the header. -/
theorem frameLength_written (bufSize : Word) {caps : Caps} {bytes : List Byte}
    (h : w.Written size caps bytes) :
    (frameProtocol w.toCapsFormat bufSize).frameLength (bytes.take headerSize) =
      if bytes.length ≤ bufSize.toNat then .ok bytes.length else .error .enobuf := by
  obtain ⟨-, length, hinfo, hlength⟩ := h.header
  split
  · rename_i hle
    rw [frameLength_ok hinfo (fun hgt => by have := BitVec.lt_def.mp hgt; omega), hlength]
  · rename_i hlong
    exact frameLength_enobuf hinfo (BitVec.lt_def.mpr (by omega))

theorem headed {caps : Caps} {bytes : List Byte} (h : w.Written size caps bytes) :
    (frameProtocol w.toCapsFormat bufSize).Headed bytes := by
  refine ⟨h.header.1, fun n hn => ?_⟩
  have hlen := (frameLength_written bufSize h).symm.trans hn
  split at hlen
  · exact (Except.ok.inj hlen).symm
  · cases hlen

theorem feed_frameProtocol (s frames : List (List Byte)) :
    (frameProtocol w.toCapsFormat bufSize).feed s frames = s ++ frames := by
  induction frames generalizing s with
  | nil => exact (List.append_nil s).symm
  | cons frame frames ih =>
    change (frameProtocol w.toCapsFormat bufSize).feed (s ++ [frame]) frames = _
    rw [ih, List.append_assoc]
    rfl

/-- What is cut from the bytes that have arrived is what the client sent: every frame can be
parsed, and the only invalid header is that of a message longer than the buffer. -/
theorem Wf.cut_cases (h : Wf w size bufSize l) {frames : List (List Byte)}
    {ending : Ending Byte AdapterStatus}
    (hsplit : (frameProtocol w.toCapsFormat bufSize).split [] l.receiver.received =
      (frames, ending)) :
    ∃ done later, l.sent = done ++ later ∧ frames = done.map Prod.snd ∧
      ((∃ rest, ending = .more rest ∧ Channel.Partial rest later ∧
        l.receiver.received = (done.map Prod.snd).flatten ++ rest) ∨
      ending = .invalid .enobuf ∧ ∃ m ms, later = m :: ms ∧ bufSize.toNat < m.2.length) := by
  have hcut := h.cut (p := frameProtocol w.toCapsFormat bufSize) (fun _ _ => headed) []
  change Channel.Cut _ _ _ l.receiver.received
    ((frameProtocol w.toCapsFormat bufSize).split [] l.receiver.received) at hcut
  rw [hsplit] at hcut
  generalize hresult : (frames, ending) = result at hcut
  cases hcut with
  | more done later rest hsent hreceived hrest =>
    obtain ⟨rfl, rfl⟩ := Prod.mk.inj hresult
    exact ⟨done, later, hsent, feed_frameProtocol [] _, .inl ⟨rest, rfl, hrest, hreceived⟩⟩
  | invalid done m later err hsent hheader =>
    obtain ⟨rfl, rfl⟩ := Prod.mk.inj hresult
    have hwritten := h.written m (by simp [hsent])
    have herr := (frameLength_written bufSize hwritten).symm.trans hheader
    split at herr
    · cases herr
    · rename_i hlong
      cases herr
      exact ⟨done, m :: later, hsent, feed_frameProtocol [] _,
        .inr ⟨rfl, m, later, rfl, Nat.lt_of_not_le hlong⟩⟩
  | rejected done m later hsent hreject =>
    have hparse := (h.written m (by simp [hsent])).parse
    rw [deliver_frameProtocol, hparse] at hreject
    cases hreject

theorem Wf.frames (h : Wf w size bufSize l)
    (hwf : Connection.Wf w.toCapsFormat bufSize l.receiver) :
    ∃ done later, l.sent = done ++ later ∧ l.receiver.frames = done.map Prod.snd := by
  obtain ⟨more, hmore⟩ : ∃ more,
      ((frameProtocol w.toCapsFormat bufSize).split [] l.receiver.received).1 =
        l.receiver.frames ++ more := by
    have hagrees := hwf.agrees
    unfold Connection.Agrees at hagrees
    rw [hagrees]
    split
    · obtain ⟨frames, hframes⟩ := Protocol.split_feeds (frameProtocol w.toCapsFormat bufSize)
        l.receiver.frames l.receiver.adapter.pending
      exact ⟨frames, by rw [hframes, feed_frameProtocol]⟩
    all_goals exact ⟨[], (List.append_nil _).symm⟩
  obtain ⟨done, later, hsent, hframes, -⟩ := h.cut_cases (rfl : _ = (_, _))
  obtain ⟨first, last, rfl, hfirst, -⟩ := List.map_eq_append_iff.mp (hframes.symm.trans hmore)
  exact ⟨first, last ++ later, by rw [hsent, List.append_assoc], hfirst.symm⟩

/-- A frame selects the handler of its message, whose parser yields the fields that were written. -/
theorem Wf.read_back (h : Wf w size bufSize l) {done later : List (ClientMessage × List Byte)}
    (hsent : l.sent = done ++ later) :
    ∀ m ∈ done, ∃ cmd rest, w.codec.command m.2 = some (cmd, rest) ∧
      ClientMessage.parse cmd rest = some m.1 ∧ ∀ e now sender d,
        Dispatcher.msgHandler e now cmd.toInt rest sender d = m.1.handler e now rest sender d := by
  intro m hm
  have hwritten := h.written m (by rw [hsent]; exact List.mem_append_left later hm)
  exact ⟨m.1.cmd, m.1.caps.tail, hwritten.command.trans m.1.readWord_caps, m.1.parse_tail_caps,
    fun e now sender d => m.1.msgHandler_cmd e now _ sender d⟩

theorem Wf.more (h : Wf w size bufSize l) {done later : List (ClientMessage × List Byte)}
    (hsent : l.sent = done ++ later) {bytes : List Byte}
    (hrest : (∃ rest, Ending.more bytes = (.more rest : Ending Byte AdapterStatus) ∧
        Channel.Partial rest later ∧ l.receiver.received = (done.map Prod.snd).flatten ++ rest) ∨
      Ending.more bytes = (.invalid .enobuf : Ending Byte AdapterStatus) ∧
        ∃ m ms, later = m :: ms ∧ bufSize.toNat < m.2.length) :
    l.receiver.received = (done.map Prod.snd).flatten ++ bytes ∧
      (l.receiver.received = l.sender.wire → later = []) := by
  obtain ⟨rest, heq, hrest, hreceived⟩ | ⟨hend, -⟩ := hrest
  · cases heq
    exact ⟨hreceived, h.all_arrived (p := frameProtocol w.toCapsFormat bufSize)
      (fun _ _ => headed) hsent hrest hreceived⟩
  · cases hend

/-- However the steps of the client, the network and the service follow each other, as long as no
write is short and the dispatcher does not close the adapter: the frames passed to `put` are those of
the first messages that the client sent, in order, and each selects the handler of its message and is
read there as it was written. Between two reads nothing is lost; the service gives up the connection
only when its read fails or at a message longer than its buffer. -/
theorem client_messages_arrive (w : CapsLibrary) (size : Nat) (bufSize : Word)
    {l : Channel ClientMessage Connection} (h : (system w size bufSize).Reachable l) :
    ∃ done later, l.sent = done ++ later ∧ l.receiver.frames = done.map Prod.snd ∧
      (∀ m ∈ done, ∃ cmd rest, w.codec.command m.2 = some (cmd, rest) ∧
        ClientMessage.parse cmd rest = some m.1 ∧ ∀ e now sender d,
          Dispatcher.msgHandler e now cmd.toInt rest sender d = m.1.handler e now rest sender d) ∧
      (l.receiver.pc = .reading ∨ l.receiver.pc = .failed .closed →
        l.receiver.received = (done.map Prod.snd).flatten ++ l.receiver.adapter.pending ∧
        (l.receiver.received = l.sender.wire → later = [])) ∧
      (∀ status, l.receiver.pc = .failed (.frame status) →
        status = .enobuf ∧ ∃ m ms, later = m :: ms ∧ bufSize.toNat < m.2.length) ∧
      l.receiver.pc ≠ .failed .put := by
  have hwf := reachable_wf h
  have hreceiver : Connection.Wf w.toCapsFormat bufSize l.receiver :=
    Connection.reachable_wf hwf.receiver
  have hagrees := hreceiver.agrees
  cases hpc : l.receiver.pc with
  | framing =>
    obtain ⟨done, later, hsent, hframes⟩ := hwf.frames hreceiver
    exact ⟨done, later, hsent, hframes, hwf.read_back hsent, by simp, by simp, by simp⟩
  | reading =>
    simp only [Connection.Agrees, hpc] at hagrees
    obtain ⟨done, later, hsent, hframes, hrest⟩ := hwf.cut_cases hagrees
    exact ⟨done, later, hsent, hframes, hwf.read_back hsent, fun _ => hwf.more hsent hrest,
      by simp, by simp⟩
  | failed reason =>
    cases reason with
    | closed =>
      simp only [Connection.Agrees, hpc] at hagrees
      obtain ⟨done, later, hsent, hframes, hrest⟩ := hwf.cut_cases hagrees
      exact ⟨done, later, hsent, hframes, hwf.read_back hsent, fun _ => hwf.more hsent hrest,
        by simp, by simp⟩
    | frame status =>
      simp only [Connection.Agrees, hpc] at hagrees
      obtain ⟨done, later, hsent, hframes, ⟨_, hmore, -⟩ | ⟨hinvalid, hlong⟩⟩ :=
        hwf.cut_cases hagrees
      · cases hmore
      · cases hinvalid
        refine ⟨done, later, hsent, hframes, hwf.read_back hsent, by simp,
          fun status heq => ?_, by simp⟩
        cases heq
        exact ⟨rfl, hlong⟩
    | put =>
      simp only [Connection.Agrees, hpc] at hagrees
      obtain ⟨_, _, _, _, ⟨_, hend, -⟩ | ⟨hend, -⟩⟩ := hwf.cut_cases hagrees <;> cases hend

def sampleLibrary : CapsLibrary :=
  .sample [ClientMessage.ping.caps, (ClientMessage.subscribe "a").caps]

/-- The client has sent a subscription and a ping, and the service has not read them yet. -/
def sampleSent : Channel ClientMessage Connection where
  sender := ⟨true, [1, 0, 0, 0, 0, 0, 0, 8, 8, 0, 0, 0, 0, 0, 0, 8],
    [⟨[1, 0, 0, 0, 0, 0, 0, 8], [1, 0, 0, 0, 0, 0, 0, 8], true⟩,
      ⟨[8, 0, 0, 0, 0, 0, 0, 8], [8, 0, 0, 0, 0, 0, 0, 8], true⟩]⟩
  receiver := Connection.sampleConnection
  sent := [(.subscribe "a", [1, 0, 0, 0, 0, 0, 0, 8]), (.ping, [8, 0, 0, 0, 0, 0, 0, 8])]

theorem sampleSent_reachable : (system sampleLibrary 32768 32768).Reachable sampleSent := by
  refine ⟨{ receiver := Connection.sampleConnection },
    [.send (.subscribe "a") .host (.accepted 8), .send .ping .host (.accepted 8)],
    ⟨_, Connection.sampleConnection_initial, rfl⟩,
    .cons ⟨⟨CapsLibrary.sample_sound .host rfl, ?_⟩, rfl⟩
      (.single ⟨⟨CapsLibrary.sample_sound .host rfl, ?_⟩, rfl⟩)⟩ <;>
  · intro bytes hwrite
    cases hwrite
    exact fun _ => .inl rfl

theorem client_messages_arrive_ping : ∃ l, (system sampleLibrary 32768 32768).Reachable l ∧
    l.receiver.frames = [[1, 0, 0, 0, 0, 0, 0, 8], [8, 0, 0, 0, 0, 0, 0, 8]] ∧
      l.receiver.frames = l.sent.map Prod.snd ∧ l.sent = sampleSent.sent := by
  let d := uplink sampleLibrary.toCapsFormat
  -- The two messages are read together: a frame and a half first, then the rest.
  have hrun : ∃ l₁ l₂ l₃ l₄ l₅ l, Channel.step d sampleLibrary 32768 sampleSent
        (.receive (.read (some [1, 0, 0, 0, 0, 0, 0, 8, 8, 0, 0]))) = some l₁ ∧
      Channel.step d sampleLibrary 32768 l₁ (.receive .nextFrame) = some l₂ ∧
      Channel.step d sampleLibrary 32768 l₂ (.receive .nextFrame) = some l₃ ∧
      Channel.step d sampleLibrary 32768 l₃ (.receive (.read (some [0, 0, 0, 0, 8]))) = some l₄ ∧
      Channel.step d sampleLibrary 32768 l₄ (.receive .nextFrame) = some l₅ ∧
      Channel.step d sampleLibrary 32768 l₅ (.receive .nextFrame) = some l ∧
      l.receiver.pc = .reading ∧
      l.receiver.frames = [[1, 0, 0, 0, 0, 0, 0, 8], [8, 0, 0, 0, 0, 0, 0, 8]] ∧
      l.receiver.received = l.sender.wire ∧ l.sent = sampleSent.sent :=
    ⟨_, _, _, _, _, _, rfl, rfl, rfl, rfl, rfl, rfl, rfl, rfl, rfl, rfl⟩
  obtain ⟨l₁, l₂, l₃, l₄, l₅, l, h₁, h₂, h₃, h₄, h₅, h, hpc, hframes, hall, hsame⟩ := hrun
  have hhalf := Channel.reachable_receive (Channel.reachable_receive
    (Channel.reachable_receive sampleSent_reachable h₁) h₂) h₃
  have hreach := Channel.reachable_receive (Channel.reachable_receive
    (Channel.reachable_receive hhalf h₄) h₅) h
  obtain ⟨done, later, hsent, harrived, -, hreceived, -⟩ :=
    client_messages_arrive sampleLibrary 32768 32768 hreach
  refine ⟨l, hreach, hframes, ?_, hsame⟩
  rw [hsent, (hreceived (.inl hpc)).2 hall, List.append_nil]
  exact harrived

def turns (c : Connection) : Nat :=
  if c.pc = .framing then c.adapter.pending.length + 1 else 0

theorem doFrame_pc {c c' : Connection} (h : c.doFrame w.toCapsFormat = some c') :
    c'.pc ≠ .failed .closed := by
  simp only [Connection.doFrame, Option.ite_none_right_eq_some] at h
  obtain ⟨-, h⟩ := h
  split at h
  · cases h
    dsimp only
    split <;> simp
  · cases h
    simp
  · cases h
    simp

/-- The connection is open and every message fits the buffer of the service. -/
structure Served (w : CapsLibrary) (size : Nat) (bufSize : Word)
    (l : Channel ClientMessage Connection) : Prop where
  wf : Wf w size bufSize l
  fits : ∀ m ∈ l.sent, m.2.length ≤ bufSize.toNat
  opened : l.receiver.pc = .reading ∨ l.receiver.pc = .framing

theorem Served.receiver (h : Served w size bufSize l) :
    Connection.Wf w.toCapsFormat bufSize l.receiver :=
  Connection.reachable_wf h.wf.receiver

theorem length_pending_le {c : Connection} (h : Connection.Wf w.toCapsFormat bufSize c) :
    c.adapter.pending.length ≤ bufSize.toNat := by
  have hlength := h.adapter.length_pending
  have hcur := h.adapter.cur_le
  omega

/-- As every message fits the buffer, only a read can fail. -/
theorem Wf.failed_read (h : Wf w size bufSize l) (hfits : ∀ m ∈ l.sent, m.2.length ≤ bufSize.toNat)
    {reason : ReadFailure} (hpc : l.receiver.pc = .failed reason) : reason = .closed := by
  have hagrees := (Connection.reachable_wf h.receiver).agrees
  cases reason with
  | closed => rfl
  | frame status =>
    simp only [Connection.Agrees, hpc] at hagrees
    obtain ⟨done, _, hsent, _, ⟨_, hmore, -⟩ | ⟨-, m, ms, rfl, hlong⟩⟩ := h.cut_cases hagrees
    · cases hmore
    · have hfit := hfits m (by simp [hsent])
      omega
  | put =>
    simp only [Connection.Agrees, hpc] at hagrees
    obtain ⟨_, _, _, _, ⟨_, hend, -⟩ | ⟨hend, -⟩⟩ := h.cut_cases hagrees <;> cases hend

/-- Between two reads either everything has been passed on, or the next byte can be read. -/
theorem Served.read (h : Served w size bufSize l) (hsize : headerSize ≤ bufSize.toNat)
    (hpc : l.receiver.pc = .reading) :
    l.receiver.frames = l.frames ∨ ∃ act c, l.receiver.step w.toCapsFormat act = some c ∧
      c.received <+: l.sender.wire ∧ Served w size bufSize { l with receiver := c } ∧
      Channel.remaining (uplink w.toCapsFormat) { l with receiver := c } (bufSize.toNat + 1) turns <
        Channel.remaining (uplink w.toCapsFormat) l (bufSize.toNat + 1) turns := by
  have hagrees := h.receiver.agrees
  simp only [Connection.Agrees, hpc] at hagrees
  obtain ⟨done, later, hsent, hframes, hrest⟩ := h.wf.cut_cases hagrees
  obtain ⟨-, hall⟩ := h.wf.more hsent hrest
  obtain ⟨tail, htail⟩ := h.wf.arrived
  change l.receiver.received ++ tail = l.sender.wire at htail
  cases tail with
  | nil =>
    rw [List.append_nil] at htail
    left
    rw [hframes, Channel.frames, hsent, hall htail, List.append_nil]
  | cons b tail =>
    right
    have hfree : [b].length ≤ l.receiver.free.toNat := h.receiver.free_pos hsize hpc
    obtain ⟨x, hread, -, -⟩ := h.receiver.adapter.read (List.cons_ne_nil b []) hfree
    have hstep : l.receiver.doRead (some [b]) = some { l.receiver with
        adapter := x, pc := .framing, received := l.receiver.received ++ [b] } := by
      rw [Connection.doRead, if_pos ⟨hpc, hfree⟩, hread]
      rfl
    have harrived : l.receiver.received ++ [b] <+: l.sender.wire :=
      ⟨tail, by rw [← htail, List.append_assoc]; rfl⟩
    refine ⟨.read (some [b]), _, hstep, harrived,
      ⟨h.wf.receive (a := .read (some [b])) hstep harrived, h.fits, .inr rfl⟩, ?_⟩
    apply Channel.remaining_read htail rfl
    exact Nat.succ_le_succ (length_pending_le (h.receiver.doRead hstep))

/-- A turn of the loop ends it or passes a frame on. -/
theorem Served.frame (h : Served w size bufSize l) (hpc : l.receiver.pc = .framing) :
    ∃ act c, l.receiver.step w.toCapsFormat act = some c ∧ c.received <+: l.sender.wire ∧
      Served w size bufSize { l with receiver := c } ∧
      Channel.remaining (uplink w.toCapsFormat) { l with receiver := c } (bufSize.toNat + 1) turns <
        Channel.remaining (uplink w.toCapsFormat) l (bufSize.toNat + 1) turns := by
  obtain ⟨c, hstep, hreceived⟩ := Connection.doFrame_isSome (f := w.toCapsFormat) hpc
  obtain ⟨-, hshorter⟩ := h.receiver.doFrame hstep
  have harrived : c.received <+: l.sender.wire := by
    rw [hreceived]
    exact h.wf.arrived
  have hwf : Wf w size bufSize { l with receiver := c } :=
    h.wf.receive (a := .nextFrame) hstep harrived
  have hopened : c.pc = .reading ∨ c.pc = .framing := by
    cases hpc' : c.pc with
    | reading => exact .inl rfl
    | framing => exact .inr rfl
    | failed reason =>
      obtain rfl := hwf.failed_read h.fits hpc'
      exact absurd hpc' (doFrame_pc hstep)
  refine ⟨.nextFrame, c, hstep, harrived, ⟨hwf, h.fits, hopened⟩, ?_⟩
  have hturns : turns c < turns l.receiver := by
    simp only [turns, hpc, if_true]
    split
    · rename_i hagain
      exact Nat.succ_lt_succ (hshorter hagain)
    · exact Nat.succ_pos _
  simp only [Channel.remaining, uplink, hreceived]
  omega

/-- A client's messages do not get stuck: as long as the connection is open and the messages fit
the buffer of the service, reading and framing pass all of them on. -/
theorem client_messages_pass (w : CapsLibrary) (size : Nat) (bufSize : Word)
    (hsize : 32768 ≤ bufSize.toNat) {l : Channel ClientMessage Connection}
    (h : (system w size bufSize).Reachable l)
    (hopened : l.receiver.pc = .reading ∨ l.receiver.pc = .framing)
    (hfits : ∀ m ∈ l.sent, m.2.length ≤ bufSize.toNat) :
    ∃ acts l', (serviceSteps w size bufSize).Run l acts l' ∧ l'.sent = l.sent ∧
      l'.receiver.frames = l'.frames := by
  have hheader : headerSize ≤ bufSize.toNat := Nat.le_trans (by decide) hsize
  have hserved : Served w size bufSize l := ⟨reachable_wf h, hfits, hopened⟩
  apply Channel.exists_receiver_run (v := fun l =>
    Channel.remaining (uplink w.toCapsFormat) l (bufSize.toNat + 1) turns) hserved
  intro l hl
  obtain hpc | hpc := hl.opened
  · exact hl.read hheader hpc
  · exact .inr (hl.frame hpc)

theorem client_messages_pass_ping : ∃ acts l',
    (serviceSteps sampleLibrary 32768 32768).Run sampleSent acts l' ∧
      l'.sent = sampleSent.sent ∧ l'.receiver.frames = l'.frames :=
  client_messages_pass sampleLibrary 32768 32768 (by decide) sampleSent_reachable (.inl rfl)
    (by decide)

end Uplink

end Flora
