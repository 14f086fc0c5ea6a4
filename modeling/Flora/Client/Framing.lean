import Flora.Client.Receive

/-! # The client cuts its input as a reference splitter does

The invariant relates the receive buffer to the part of the stream that has not been handed over:
at the head of `recv_loop` it is a prefix of the buffer, in `handle_received` a range of it. -/

namespace Flora

open TransitionSystem Framing

universe u

namespace RecvThread

variable {σ : Type u} {f : CapsFormat} {cmdHandler : CmdHandler σ} {bufsize : Word} {init : σ}
  {r r' : RecvThread σ} {size off : Word} {authWaiting : Bool}

/-- The state the splitter has when the receiver is in `r`. -/
def handedTo (r : RecvThread σ) : σ × List (Word × Caps) := (r.state, r.handed)

/-- The bytes that have been received and not been handed over. -/
def undelivered (r : RecvThread σ) : List Byte :=
  match r.pc with
  | .handling size off => Buffer.slice r.rbuffer off.toNat (size.toNat - off.toNat)
  | _ => r.rbuffer.take r.rbufOff.toNat

/-- How cutting the bytes received so far goes on or ends. -/
def Agrees (f : CapsFormat) (cmdHandler : CmdHandler σ) (init : σ) (r : RecvThread σ) : Prop :=
  let cut := (recvProtocol f cmdHandler).split (init, []) r.received
  match r.pc with
  | .receiving => cut = (r.handedTo, .more r.undelivered)
  | .handling size off => off.toNat ≤ size.toNat ∧ size.toNat ≤ r.bufsize.toNat ∧
      cut = (recvProtocol f cmdHandler).split r.handedTo r.undelivered
  | .stopped err =>
    (cut = (r.handedTo, .more r.undelivered) ∧ (err = cliEinsuffBuf ↔ r.rbufOff = r.bufsize)) ∨
    ((cut = (r.handedTo, .invalid ()) ∨ cut = (r.handedTo, .rejected)) ∧ err ≠ cliEinsuffBuf)

structure Wf (f : CapsFormat) (cmdHandler : CmdHandler σ) (bufsize : Word) (init : σ)
    (r : RecvThread σ) : Prop where
  bufsize_eq : r.bufsize = bufsize
  length : r.rbuffer.length = bufsize.toNat
  off_le : r.rbufOff.toNat ≤ bufsize.toNat
  agrees : Agrees f cmdHandler init r

theorem failure_ne (authWaiting : Bool) : failure authWaiting ≠ cliEinsuffBuf := by
  cases authWaiting <;> decide

theorem wf_initial (h : Initial r bufsize init) : Wf f cmdHandler bufsize init r := by
  obtain ⟨rbuffer, hlength, rfl⟩ := h
  refine ⟨rfl, hlength, Nat.zero_le _, ?_⟩
  exact Protocol.split_of_incomplete (.inl (recvProtocol f cmdHandler).headerSize_pos)

theorem Wf.recv (h : Wf f cmdHandler bufsize init r) {received : Option (List Byte)}
    (hstep : r.recv received authWaiting = some r') : Wf f cmdHandler bufsize init r' := by
  simp only [RecvThread.recv, Option.ite_none_right_eq_some] at hstep
  obtain ⟨hpc, hstep⟩ := hstep
  have hagrees := h.agrees
  simp only [Agrees, undelivered, hpc] at hagrees
  have hoff := h.off_le
  have hlength := h.length
  split at hstep
  · rename_i hfull
    cases hstep
    refine ⟨h.bufsize_eq, h.length, h.off_le, ?_⟩
    exact .inl ⟨hagrees, fun _ => hfull, fun _ => rfl⟩
  · rename_i hroom
    simp only [Option.ite_none_right_eq_some] at hstep
    obtain ⟨hfree, hstep⟩ := hstep
    split at hstep
    · rename_i b bs
      cases hstep
      have hsize := bufsize.isLt
      have hend : r.rbufOff.toNat + (b :: bs).length ≤ bufsize.toNat := by
        rw [h.bufsize_eq, BitVec.toNat_sub_of_le (BitVec.le_def.mpr hoff)] at hfree
        rw [Option.getD_some] at hfree
        omega
      have hnew : (r.rbufOff + BitVec.ofNat 32 (b :: bs).length).toNat =
          r.rbufOff.toNat + (b :: bs).length := by
        rw [BitVec.toNat_add, Word.toNat_ofNat (by omega)]
        exact Nat.mod_eq_of_lt (by omega)
      have hslice : Buffer.slice (Buffer.store r.rbuffer r.rbufOff.toNat (b :: bs)) 0
          (r.rbufOff.toNat + (b :: bs).length) = r.rbuffer.take r.rbufOff.toNat ++ (b :: bs) := by
        have hstore := Buffer.slice_store r.rbuffer (b :: bs) 0 r.rbufOff.toNat
        rw [Nat.zero_add] at hstore
        exact hstore (by omega)
      refine ⟨h.bufsize_eq, ?_, h.off_le, Nat.zero_le _, ?_, ?_⟩
      · rw [Buffer.length_store (by omega), hlength]
      · change (r.rbufOff + BitVec.ofNat 32 (b :: bs).length).toNat ≤ r.bufsize.toNat
        rw [hnew, h.bufsize_eq]
        exact hend
      · rw [Protocol.split_append_of_more hagrees (b :: bs)]
        simp only [undelivered, hnew]
        change _ = (recvProtocol f cmdHandler).split _ (Buffer.slice _ 0 (_ - 0))
        rw [Nat.sub_zero, hslice]
        rfl
    · cases hstep
      refine ⟨h.bufsize_eq, h.length, h.off_le, ?_⟩
      refine .inl ⟨hagrees, fun heq => absurd heq (failure_ne authWaiting), fun heq => absurd heq hroom⟩

/-- In `handle_received` the range from `off` to `size` is still to be cut. -/
theorem Wf.handling (h : Wf f cmdHandler bufsize init r) (hpc : r.pc = .handling size off) :
    off.toNat ≤ size.toNat ∧ size.toNat ≤ bufsize.toNat ∧
      (recvProtocol f cmdHandler).split (init, []) r.received =
        (recvProtocol f cmdHandler).split r.handedTo r.undelivered := by
  have hagrees := h.agrees
  simp only [Agrees, hpc, h.bufsize_eq] at hagrees
  exact hagrees

theorem undelivered_handling (hpc : r.pc = .handling size off) :
    r.undelivered = Buffer.slice r.rbuffer off.toNat (size.toNat - off.toNat) := by
  simp only [undelivered, hpc]

theorem Wf.length_undelivered (h : Wf f cmdHandler bufsize init r)
    (hpc : r.pc = .handling size off) : r.undelivered.length = size.toNat - off.toNat := by
  obtain ⟨hoff, hsize, -⟩ := h.handling hpc
  have hlength := h.length
  rw [undelivered_handling hpc]
  exact Buffer.length_slice (by omega)

theorem take_undelivered {n : Nat} (hpc : r.pc = .handling size off)
    (hn : n ≤ size.toNat - off.toNat) :
    r.undelivered.take n = Buffer.slice r.rbuffer off.toNat n := by
  rw [undelivered_handling hpc]
  exact Buffer.take_slice hn

theorem Wf.finish (h : Wf f cmdHandler bufsize init r) (hpc : r.pc = .handling size off)
    (hinc : (recvProtocol f cmdHandler).Incomplete r.undelivered) :
    Wf f cmdHandler bufsize init (r.finish size off) := by
  obtain ⟨hoff, hsize, hagrees⟩ := h.handling hpc
  rw [Protocol.split_of_incomplete hinc] at hagrees
  have hsub : (size - off).toNat = size.toNat - off.toNat :=
    BitVec.toNat_sub_of_le (BitVec.le_def.mpr hoff)
  have hlength := h.length
  have hrange : off.toNat + (size.toNat - off.toNat) ≤ r.rbuffer.length := by omega
  have hkept : (r.finish size off).undelivered = r.undelivered := by
    simp only [undelivered, hpc, RecvThread.finish, hsub]
    split
    · exact Buffer.slice_moveFront hrange
    · rename_i hstay
      have hnull : (0 : Word).toNat = 0 := rfl
      simp only [BitVec.lt_def, hsub, hnull] at hstay
      obtain hzero | hzero : off.toNat = 0 ∨ size.toNat - off.toNat = 0 := by omega
      · rw [hzero]
        rfl
      · rw [hzero, Buffer.slice_zero, List.take_zero]
  refine ⟨h.bufsize_eq, ?_, ?_, ?_⟩
  · simp only [RecvThread.finish]
    split
    · rw [hsub, Buffer.length_moveFront hrange, hlength]
    · exact hlength
  · change (size - off).toNat ≤ bufsize.toNat
    omega
  · change _ = (_, Ending.more (r.finish size off).undelivered)
    rw [hkept]
    exact hagrees

theorem frameLength_recvProtocol {header : List Byte} {length : Word}
    (h : f.binaryInfo header = some length) :
    (recvProtocol f cmdHandler).frameLength header = .ok length.toNat := by
  simp only [recvProtocol, h]

/-- A complete frame is handed over as the splitter delivers it. -/
theorem handleFrame_spec (r : RecvThread σ) (size off length : Word) (authWaiting : Bool) :
    let result := (recvProtocol f cmdHandler).deliver r.handedTo
      (Buffer.slice r.rbuffer off.toNat length.toNat)
    r.handleFrame f cmdHandler size off length authWaiting = { r with
      state := result.1.1
      handed := result.1.2
      pc := if result.2 then .handling size (off + length) else .stopped (failure authWaiting) } := by
  obtain hparse | ⟨caps, hparse⟩ :=
    (f.parse (Buffer.slice r.rbuffer off.toNat length.toNat)).eq_none_or_eq_some
  · simp [handleFrame, recvProtocol, handedTo, hparse, stop]
  · obtain hread | ⟨⟨cmd, resp⟩, hread⟩ := caps.readWord.eq_none_or_eq_some
    · simp [handleFrame, recvProtocol, handedTo, hparse, hread, stop]
    · simp [handleFrame, recvProtocol, handedTo, hparse, hread]

theorem Wf.handleFrame (h : Wf f cmdHandler bufsize init r) (hpc : r.pc = .handling size off)
    {length : Word}
    (hinfo : f.binaryInfo (Buffer.slice r.rbuffer off.toNat headerSize) = some length)
    (hheader : headerSize ≤ size.toNat - off.toNat) (hfits : length.toNat ≤ size.toNat - off.toNat)
    (authWaiting : Bool) :
    Wf f cmdHandler bufsize init (r.handleFrame f cmdHandler size off length authWaiting) ∧
      ∀ size' off', (r.handleFrame f cmdHandler size off length authWaiting).pc =
        .handling size' off' → size' = size ∧ off.toNat < off'.toNat := by
  obtain ⟨hoff, hsize, hagrees⟩ := h.handling hpc
  have hbuf := h.bufsize_eq
  have hlength := h.length
  have hbound := bufsize.isLt
  have hrest := undelivered_handling hpc
  have hrestLength := h.length_undelivered hpc
  have hframe := take_undelivered hpc hfits
  have hend : (off + length).toNat = off.toNat + length.toNat := by
    rw [BitVec.toNat_add]
    exact Nat.mod_eq_of_lt (by omega)
  have hframeLength : (Buffer.slice r.rbuffer off.toNat length.toNat).length = length.toNat :=
    Buffer.length_slice (by omega)
  have hlen : (recvProtocol f cmdHandler).frameLength
      (r.undelivered.take (recvProtocol f cmdHandler).headerSize) = .ok length.toNat := by
    change (recvProtocol f cmdHandler).frameLength (r.undelivered.take headerSize) = _
    rw [take_undelivered hpc hheader]
    exact frameLength_recvProtocol hinfo
  have hcut := Protocol.split_of_complete (s := r.handedTo)
    (by rw [hrestLength]; exact hheader) hlen (by rw [hrestLength]; exact hfits)
  rw [hcut, hframe] at hagrees
  rw [handleFrame_spec]
  dsimp only
  split
  · rename_i haccept
    rw [if_pos haccept] at hagrees
    have hpos := (recvProtocol f cmdHandler).length_pos_of_accepted haccept
    rw [hframeLength] at hpos
    refine ⟨⟨hbuf, hlength, h.off_le, ?_, ?_, ?_⟩, ?_⟩
    · rw [hend]
      omega
    · change size.toNat ≤ r.bufsize.toNat
      rw [hbuf]
      exact hsize
    · simp only [undelivered, hend]
      rw [hrest, Buffer.drop_slice] at hagrees
      rw [Nat.sub_add_eq]
      exact hagrees
    · intro size' off' heq
      cases heq
      exact ⟨rfl, by omega⟩
  · rename_i hreject
    rw [if_neg hreject] at hagrees
    refine ⟨⟨hbuf, hlength, h.off_le, ?_⟩, nofun⟩
    exact .inr ⟨.inr hagrees, failure_ne authWaiting⟩

/-- One turn of the loop of `handle_received`: it leaves the loop or moves `off` forward. -/
theorem Wf.handle (h : Wf f cmdHandler bufsize init r)
    (hstep : r.handle f cmdHandler authWaiting = some r') :
    Wf f cmdHandler bufsize init r' ∧ ∀ size off size' off', r.pc = .handling size off →
      r'.pc = .handling size' off' → size' = size ∧ off.toNat < off'.toNat := by
  unfold RecvThread.handle at hstep
  split at hstep
  case h_2 => cases hstep
  case h_1 size off hpc =>
    obtain ⟨hoff, -, hagrees⟩ := h.handling hpc
    have hsub : (size - off).toNat = size.toNat - off.toNat :=
      BitVec.toNat_sub_of_le (BitVec.le_def.mpr hoff)
    have hrestLength := h.length_undelivered hpc
    have hfinish (hinc : (recvProtocol f cmdHandler).Incomplete r.undelivered) :
        Wf f cmdHandler bufsize init (r.finish size off) ∧ ∀ size₀ off₀ size' off',
          r.pc = .handling size₀ off₀ → (r.finish size off).pc = .handling size' off' →
            size' = size₀ ∧ off₀.toNat < off'.toNat :=
      ⟨h.finish hpc hinc, nofun⟩
    have hshort (hlt : size.toNat - off.toNat < headerSize) :
        (recvProtocol f cmdHandler).Incomplete r.undelivered :=
      .inl (by rw [hrestLength]; exact hlt)
    split at hstep
    · split at hstep
      · rename_i hlt
        cases hstep
        rw [BitVec.lt_def, hsub] at hlt
        exact hfinish (hshort hlt)
      · rename_i hheader
        have hheader : headerSize ≤ size.toNat - off.toNat := by
          rw [← hsub]
          exact Nat.le_of_not_lt fun hlt => hheader (BitVec.lt_def.mpr hlt)
        have hheaderTake := take_undelivered hpc hheader
        split at hstep
        · rename_i hinfo
          cases hstep
          have hinvalid : (recvProtocol f cmdHandler).frameLength
              (r.undelivered.take headerSize) = .error () := by
            rw [hheaderTake]
            simp only [recvProtocol, hinfo]
          rw [Protocol.split_of_invalid (by rw [hrestLength]; exact hheader) hinvalid] at hagrees
          refine ⟨⟨h.bufsize_eq, h.length, h.off_le, .inr ⟨.inl hagrees, failure_ne authWaiting⟩⟩,
            nofun⟩
        · rename_i length hinfo
          split at hstep
          · rename_i hlt
            cases hstep
            rw [BitVec.lt_def, hsub] at hlt
            refine hfinish (.inr ⟨length.toNat, ?_, by rw [hrestLength]; exact hlt⟩)
            change (recvProtocol f cmdHandler).frameLength (r.undelivered.take headerSize) = _
            rw [hheaderTake]
            exact frameLength_recvProtocol hinfo
          · rename_i hfits
            cases hstep
            have hfits : length.toNat ≤ size.toNat - off.toNat := by
              rw [← hsub]
              exact Nat.le_of_not_lt fun hlt => hfits (BitVec.lt_def.mpr hlt)
            obtain ⟨hwf, hmoves⟩ := h.handleFrame hpc hinfo hheader hfits authWaiting
            refine ⟨hwf, fun size₀ off₀ size' off' heq heq' => ?_⟩
            cases hpc.symm.trans heq
            exact hmoves size' off' heq'
    · rename_i hend
      cases hstep
      refine hfinish (hshort ?_)
      have hzero : size.toNat - off.toNat = 0 := by
        have hge : ¬ off.toNat < size.toNat := fun hlt => hend (BitVec.lt_def.mpr hlt)
        omega
      rw [hzero]
      decide

theorem reachable_wf (h : (system f cmdHandler bufsize init).Reachable r) :
    Wf f cmdHandler bufsize init r := by
  apply h.invariant
  · intro r hr
    exact wf_initial hr
  · intro r act r' hr hstep
    cases act with
    | recv received authWaiting => exact hr.recv hstep
    | handle authWaiting => exact (hr.handle hstep).1

/-- `handle_received` is running. -/
def busy (r : RecvThread σ) : Bool :=
  match r.pc with
  | .handling _ _ => true
  | _ => false

theorem handle_isSome (f : CapsFormat) (cmdHandler : CmdHandler σ)
    (hpc : r.pc = .handling size off) (authWaiting : Bool) :
    ∃ r', r.handle f cmdHandler authWaiting = some r' ∧ r'.received = r.received := by
  simp only [RecvThread.handle, hpc]
  split
  · split
    · exact ⟨_, rfl, rfl⟩
    · split
      · exact ⟨_, rfl, rfl⟩
      · split
        · exact ⟨_, rfl, rfl⟩
        · exact ⟨_, rfl, by rw [handleFrame_spec]⟩
  · exact ⟨_, rfl, rfl⟩

/-- The loop of `handle_received` ends, as every turn moves `off` towards `size`. -/
theorem Wf.loop_ends (h : Wf f cmdHandler bufsize init r) (authWaiting : Bool) : ∃ n r',
    (system f cmdHandler bufsize init).Run r (List.replicate n (.handle authWaiting)) r' ∧
      r'.received = r.received ∧ r'.busy = false := by
  cases hpc : r.pc with
  | receiving => exact ⟨0, r, .nil r, rfl, by simp only [busy, hpc]⟩
  | stopped err => exact ⟨0, r, .nil r, rfl, by simp only [busy, hpc]⟩
  | handling size off =>
    induction hleft : size.toNat - off.toNat using Nat.strongRecOn generalizing r off with
    | ind m ih =>
      subst hleft
      obtain ⟨r₁, hstep, hreceived⟩ := handle_isSome f cmdHandler hpc authWaiting
      obtain ⟨hwf, hmoves⟩ := h.handle hstep
      cases hpc₁ : r₁.pc with
      | receiving => exact ⟨1, r₁, .single hstep, hreceived, by simp only [busy, hpc₁]⟩
      | stopped err => exact ⟨1, r₁, .single hstep, hreceived, by simp only [busy, hpc₁]⟩
      | handling size₁ off₁ =>
        obtain ⟨rfl, hlt⟩ := hmoves size off size₁ off₁ hpc hpc₁
        have hle := (hwf.handling hpc₁).1
        obtain ⟨n, r', hrun, hkeep, hend⟩ :=
          ih (size₁.toNat - off₁.toNat) (by omega) hwf off₁ hpc₁ rfl
        exact ⟨n + 1, r', .cons hstep hrun, hkeep.trans hreceived, hend⟩

theorem Wf.recv_ends (h : Wf f cmdHandler bufsize init r) (hpc : r.pc = .receiving)
    (hroom : r.rbufOff ≠ r.bufsize) {chunk : List Byte} (hne : chunk ≠ [])
    (hfree : chunk.length ≤ (r.bufsize - r.rbufOff).toNat) (authWaiting : Bool) : ∃ n r',
      (system f cmdHandler bufsize init).Run r
        (.recv (some chunk) authWaiting :: List.replicate n (.handle authWaiting)) r' ∧
        r'.received = r.received ++ chunk ∧ r'.busy = false := by
  obtain ⟨b, bs, rfl⟩ := List.exists_cons_of_ne_nil hne
  obtain ⟨r₁, hstep, hreceived⟩ : ∃ r₁, r.recv (some (b :: bs)) authWaiting = some r₁ ∧
      r₁.received = r.received ++ (b :: bs) :=
    ⟨_, by rw [RecvThread.recv, if_pos hpc, if_neg hroom, Option.getD_some, if_pos hfree], rfl⟩
  obtain ⟨n, r', hrun, hkeep, hend⟩ := (h.recv hstep).loop_ends authWaiting
  exact ⟨n, r', .cons hstep hrun, hkeep.trans hreceived, hend⟩

/-- The bytes start with a frame that is longer than the receive buffer, and fill the buffer. -/
def Oversized (f : CapsFormat) (bufsize : Word) (rest : List Byte) : Prop :=
  bufsize.toNat ≤ rest.length ∧
    ∃ length, f.binaryInfo (rest.take headerSize) = some length ∧ bufsize < length

theorem oversized_iff {rest : List Byte} (hsize : headerSize ≤ bufsize.toNat)
    (hinc : (recvProtocol f cmdHandler).Incomplete rest) (hle : rest.length ≤ bufsize.toNat) :
    Oversized f bufsize rest ↔ rest.length = bufsize.toNat := by
  constructor
  · rintro ⟨hge, _⟩
    exact Nat.le_antisymm hle hge
  · intro hfull
    obtain hshort | ⟨n, hn, hlt⟩ := hinc
    · have hshort : rest.length < headerSize := hshort
      omega
    · change (recvProtocol f cmdHandler).frameLength (rest.take headerSize) = .ok n at hn
      simp only [recvProtocol] at hn
      split at hn
      · cases hn
      · rename_i length hinfo
        cases hn
        exact ⟨Nat.le_of_eq hfull.symm, length, hinfo, BitVec.lt_def.mpr (by omega)⟩

theorem Wf.length_front (h : Wf f cmdHandler bufsize init r) :
    (r.rbuffer.take r.rbufOff.toNat).length = r.rbufOff.toNat := by
  have hlength := h.length
  have hoff := h.off_le
  rw [List.length_take]
  omega

/-- At the head of `recv_loop` the front of the buffer holds the undelivered bytes, and the buffer
is full exactly when they start with a frame that does not fit. -/
theorem Wf.full_iff (h : Wf f cmdHandler bufsize init r) (hsize : headerSize ≤ bufsize.toNat)
    {cut : σ × List (Word × Caps)} {stream : List Byte} (hfront : (recvProtocol f cmdHandler).split
      (init, []) stream = (cut, .more (r.rbuffer.take r.rbufOff.toNat))) :
    r.rbufOff = r.bufsize ↔ Oversized f bufsize (r.rbuffer.take r.rbufOff.toNat) := by
  have hlength := h.length_front
  have hoff := h.off_le
  rw [oversized_iff hsize (Protocol.incomplete_of_split hfront).1 (by omega), hlength, h.bufsize_eq]
  exact BitVec.toNat_inj.symm

/-- The test at the head of `recv_loop` is the only place that reports a full buffer. -/
theorem recv_stops_iff (hpc : r.pc = .receiving) (received : Option (List Byte))
    (authWaiting : Bool) :
    r.recv received authWaiting = some (r.stop cliEinsuffBuf) ↔ r.rbufOff = r.bufsize := by
  constructor
  · intro hstop
    unfold RecvThread.recv at hstop
    rw [if_pos hpc] at hstop
    split at hstop
    · assumption
    · simp only [Option.ite_none_right_eq_some] at hstop
      have hstop := hstop.2
      split at hstop
      · have hpc' := congrArg RecvThread.pc (Option.some.inj hstop)
        cases hpc'
      · have hpc' := RecvPc.stopped.inj (congrArg RecvThread.pc (Option.some.inj hstop))
        exact absurd hpc' (failure_ne authWaiting)
  · intro hfull
    unfold RecvThread.recv
    rw [if_pos hpc, if_pos hfull]

/-- In every state of the receive thread, whatever the reads were and whatever the command handler
does: the buffer is never overrun, its front holds the undelivered suffix of the stream, the
messages handed over are those of cutting the stream by header length, and a full buffer is
reported exactly for a frame that is longer than the buffer. -/
theorem recv_loop_agrees_with_split (f : CapsFormat) (cmdHandler : CmdHandler σ) (bufsize : Word)
    (hsize : 32768 ≤ bufsize.toNat) (init : σ) {r : RecvThread σ}
    (h : (system f cmdHandler bufsize init).Reachable r) :
    r.rbufOff ≤ bufsize ∧
    (r.pc = .receiving →
      (recvProtocol f cmdHandler).split (init, []) r.received =
        ((r.state, r.handed), .more (r.rbuffer.take r.rbufOff.toNat)) ∧
      r.rbuffer.take r.rbufOff.toNat <:+ r.received ∧
      (r.rbuffer.take r.rbufOff.toNat).length = r.rbufOff.toNat ∧
      (∀ received authWaiting, r.recv received authWaiting = some (r.stop cliEinsuffBuf) ↔
        Oversized f bufsize (r.rbuffer.take r.rbufOff.toNat)) ∧
      (r.rbufOff ≠ bufsize → ∀ chunk ≠ [], chunk.length ≤ (bufsize - r.rbufOff).toNat →
        ∀ authWaiting, ∃ n r', (system f cmdHandler bufsize init).Run r
          (.recv (some chunk) authWaiting :: List.replicate n (.handle authWaiting)) r' ∧
          r'.received = r.received ++ chunk ∧ r'.busy = false)) ∧
    (∀ authWaiting, ∃ n r', (system f cmdHandler bufsize init).Run r
      (List.replicate n (.handle authWaiting)) r' ∧ r'.received = r.received ∧ r'.busy = false) ∧
    (∀ err, r.pc = .stopped err →
      (err = cliEinsuffBuf ↔ ∃ rest, Oversized f bufsize rest ∧
        (recvProtocol f cmdHandler).split (init, []) r.received =
          ((r.state, r.handed), .more rest)) ∧
      (err ≠ cliEinsuffBuf →
        (recvProtocol f cmdHandler).split (init, []) r.received =
          ((r.state, r.handed), .more (r.rbuffer.take r.rbufOff.toNat)) ∨
        ∃ stop, (stop = .invalid () ∨ stop = .rejected) ∧ ∀ later,
          (recvProtocol f cmdHandler).split (init, []) (r.received ++ later) =
            ((r.state, r.handed), stop))) := by
  have hwf := reachable_wf h
  have hheader : headerSize ≤ bufsize.toNat := Nat.le_trans (by decide) hsize
  have hagrees := hwf.agrees
  refine ⟨BitVec.le_def.mpr hwf.off_le, ?_, hwf.loop_ends, ?_⟩
  · intro hpc
    simp only [Agrees, undelivered, hpc] at hagrees
    refine ⟨hagrees, (Protocol.incomplete_of_split hagrees).2, hwf.length_front, ?_, ?_⟩
    · intro received authWaiting
      rw [recv_stops_iff hpc, hwf.full_iff hheader hagrees]
    · intro hroom chunk hne hfree authWaiting
      rw [← hwf.bufsize_eq] at hroom hfree
      exact hwf.recv_ends hpc hroom hne hfree authWaiting
  · intro err hpc
    simp only [Agrees, undelivered, hpc] at hagrees
    obtain ⟨hmore, hfull⟩ | ⟨hstop, hne⟩ := hagrees
    · constructor
      · rw [hfull, hwf.full_iff hheader hmore]
        constructor
        · intro hover
          exact ⟨_, hover, hmore⟩
        · rintro ⟨rest, hover, hrest⟩
          cases hmore.symm.trans hrest
          exact hover
      · exact fun _ => .inl hmore
    · constructor
      · constructor
        · exact fun heq => absurd heq hne
        · rintro ⟨rest, _, hrest⟩
          obtain hstop | hstop := hstop
          · cases hstop.symm.trans hrest
          · cases hstop.symm.trans hrest
      · intro _
        obtain hstop | hstop := hstop
        · refine .inr ⟨.invalid (), .inl rfl, fun later => ?_⟩
          rw [Protocol.split_append, hstop]
          rfl
        · refine .inr ⟨.rejected, .inr rfl, fun later => ?_⟩
          rw [Protocol.split_append, hstop]
          rfl

def sampleThread : RecvThread Unit :=
  { rbuffer := List.replicate 32768 0, bufsize := 32768, state := () }

theorem recv_loop_cuts_pong : ∃ r : RecvThread Unit,
    (system (.sample [.i32 cmdPongResp]) (fun s _ _ => (s, true)) 32768 ()).Reachable r ∧
    r.handed = [(cmdPongResp, [])] ∧ r.rbufOff = 3 ∧
    (recvProtocol (.sample [.i32 cmdPongResp]) fun s _ _ => (s, true)).split ((), []) r.received =
      ((r.state, r.handed), .more (r.rbuffer.take r.rbufOff.toNat)) := by
  have hrun : ∃ r : RecvThread Unit,
      execute (step (.sample [.i32 cmdPongResp]) fun s _ _ => (s, true)) sampleThread
      [.recv (some [0, 0, 0, 0, 0, 0, 0, 8, 0, 0, 0]) false, .handle false, .handle false] =
        some r ∧ r.pc = .receiving ∧ r.handed = [(cmdPongResp, [])] ∧ r.rbufOff = 3 :=
    ⟨_, rfl, rfl, rfl, rfl⟩
  obtain ⟨r, hexec, hpc, hhanded, hoff⟩ := hrun
  have hinit : Initial sampleThread 32768 () :=
    ⟨List.replicate 32768 0, List.length_replicate, rfl⟩
  have hreach : (system (.sample [.i32 cmdPongResp]) (fun s _ _ => (s, true)) 32768 ()).Reachable r :=
    execute_reachable hinit hexec
  exact ⟨r, hreach, hhanded, hoff,
    ((recv_loop_agrees_with_split _ _ 32768 (by decide) () hreach).2.1 hpc).1⟩

end RecvThread

end Flora
