import Flora.Socket.Adapter

/-! # The service cuts its input as a reference splitter does

However the input of a connection is cut into reads, `do_read` passes on the frames that
`frameProtocol` cuts from the whole stream, and fails where cutting stops. -/

namespace Flora

open TransitionSystem Framing

/-- Cutting by header length, with the admission bound of `next_frame` and the verdict of `put`.
The consumer's state is the list of frames passed to it. -/
def frameProtocol (f : CapsFormat) (bufSize : Word) :
    Protocol Byte AdapterStatus (List (List Byte)) where
  headerSize := headerSize
  headerSize_pos := zero_lt_headerSize
  frameLength header := (f.binaryInfo header).elim (.error .eproto) fun length =>
    if length > bufSize then .error .enobuf else .ok length.toNat
  deliver frames frame := (frames ++ [frame], (f.parse frame).isSome)
  rejects_short frames frame h := by
    change (f.parse frame).isSome = false
    rw [f.parse_short frame h]
    rfl

variable {f : CapsFormat} {bufSize : Word}

theorem frameLength_eproto {header : List Byte} (h : f.binaryInfo header = none) :
    (frameProtocol f bufSize).frameLength header = .error .eproto := by
  simp only [frameProtocol, h, Option.elim_none]

theorem frameLength_enobuf {header : List Byte} {length : Word} (h : f.binaryInfo header = some length)
    (hlong : length > bufSize) : (frameProtocol f bufSize).frameLength header = .error .enobuf := by
  simp only [frameProtocol, h, Option.elim_some, if_pos hlong]

theorem frameLength_ok {header : List Byte} {length : Word} (h : f.binaryInfo header = some length)
    (hlong : ¬ length > bufSize) :
    (frameProtocol f bufSize).frameLength header = .ok length.toNat := by
  simp only [frameProtocol, h, Option.elim_some, if_neg hlong]

@[simp] theorem deliver_frameProtocol (frames : List (List Byte)) (frame : List Byte) :
    (frameProtocol f bufSize).deliver frames frame = (frames ++ [frame], (f.parse frame).isSome) :=
  rfl

namespace SocketAdapter

variable {x : SocketAdapter}

structure Wf (bufSize : Word) (x : SocketAdapter) : Prop where
  bufSize_eq : x.bufSize = bufSize
  opened : ∃ buffer, x.buffer = some buffer ∧ buffer.length = bufSize.toNat
  begin_le : x.frameBegin.toNat ≤ x.curSize.toNat
  cur_le : x.curSize.toNat ≤ bufSize.toNat

theorem Wf.length_pending (h : Wf bufSize x) :
    x.pending.length = x.curSize.toNat - x.frameBegin.toNat := by
  obtain ⟨buffer, hbuffer, hlength⟩ := h.opened
  have hbegin := h.begin_le
  have hcur := h.cur_le
  rw [pending, hbuffer]
  apply Buffer.length_slice
  change _ ≤ buffer.length
  omega

theorem Wf.sz (h : Wf bufSize x) : (x.curSize - x.frameBegin).toNat = x.pending.length := by
  rw [h.length_pending]
  exact BitVec.toNat_sub_of_le (BitVec.le_def.mpr h.begin_le)

theorem read_of_received {buffer : List Byte} (h : x.buffer = some buffer) {chunk : List Byte}
    (hne : chunk ≠ []) :
    x.read (some chunk) = ({ x with
      buffer := some (Buffer.store buffer x.curSize.toNat chunk)
      curSize := x.curSize + BitVec.ofNat 32 chunk.length }, .success) := by
  cases chunk with
  | nil => exact absurd rfl hne
  | cons b bs => simp only [SocketAdapter.read, h]

theorem Wf.read (h : Wf bufSize x) {chunk : List Byte} (hne : chunk ≠ [])
    (hfree : chunk.length ≤ (x.bufSize - x.curSize).toNat) :
    ∃ y, x.read (some chunk) = (y, .success) ∧ Wf bufSize y ∧ y.pending = x.pending ++ chunk := by
  obtain ⟨buffer, hbuffer, hlength⟩ := h.opened
  have hbegin := h.begin_le
  have hcur := h.cur_le
  have hsize := bufSize.isLt
  have hroom : x.curSize.toNat + chunk.length ≤ bufSize.toNat := by
    rw [h.bufSize_eq, BitVec.toNat_sub_of_le (BitVec.le_def.mpr hcur)] at hfree
    omega
  have hnew : (x.curSize + BitVec.ofNat 32 chunk.length).toNat = x.curSize.toNat + chunk.length := by
    rw [BitVec.toNat_add, Word.toNat_ofNat (by omega)]
    exact Nat.mod_eq_of_lt (by omega)
  refine ⟨_, read_of_received hbuffer hne, ⟨h.bufSize_eq, ?_, ?_, ?_⟩, ?_⟩
  · refine ⟨_, rfl, ?_⟩
    rw [Buffer.length_store (by omega), hlength]
  · change x.frameBegin.toNat ≤ (x.curSize + _).toNat
    omega
  · change (x.curSize + _).toNat ≤ bufSize.toNat
    omega
  · have hoffset : x.frameBegin.toNat + (x.curSize.toNat - x.frameBegin.toNat) = x.curSize.toNat := by
      omega
    have hstore := Buffer.slice_store buffer chunk x.frameBegin.toNat
      (x.curSize.toNat - x.frameBegin.toNat)
    rw [hoffset] at hstore
    simp only [pending, hbuffer, Option.getD_some]
    rw [hnew, ← hstore (by omega)]
    congr 1
    omega

theorem Wf.nomore (h : Wf bufSize x) {buffer : List Byte} (hbuffer : x.buffer = some buffer) :
    ∃ y, x.nomore buffer (x.curSize - x.frameBegin) = (y, .error .enomore) ∧ Wf bufSize y ∧
      y.pending = x.pending ∧ y.frameBegin = 0 := by
  have hsz : (x.curSize - x.frameBegin).toNat = x.curSize.toNat - x.frameBegin.toNat :=
    BitVec.toNat_sub_of_le (BitVec.le_def.mpr h.begin_le)
  have hbegin := h.begin_le
  have hcur := h.cur_le
  obtain ⟨buffer', hbuffer', hlength⟩ := h.opened
  cases hbuffer.symm.trans hbuffer'
  have hrange : x.frameBegin.toNat + (x.curSize.toNat - x.frameBegin.toNat) ≤ buffer.length := by
    omega
  refine ⟨_, rfl, ⟨h.bufSize_eq, ?_, ?_, ?_⟩, ?_, rfl⟩
  · refine ⟨_, rfl, ?_⟩
    split
    · rw [hsz, Buffer.length_moveFront hrange, hlength]
    · exact hlength
  · exact Nat.zero_le _
  · change (x.curSize - x.frameBegin).toNat ≤ bufSize.toNat
    omega
  · rw [pending, pending, hbuffer]
    change Buffer.slice (if x.frameBegin < x.curSize then _ else _) 0
      ((x.curSize - x.frameBegin).toNat - 0) = Buffer.slice buffer _ _
    rw [hsz, Nat.sub_zero]
    split
    · exact Buffer.slice_moveFront hrange
    · rename_i hempty
      have hzero : x.curSize.toNat - x.frameBegin.toNat = 0 := by
        rw [BitVec.lt_def] at hempty
        omega
      rw [hzero, Buffer.slice_zero, Buffer.slice_zero]

/-- `next_frame` looks for the next frame as the splitter does: it asks for more bytes, finds the
header invalid, or cuts the frame off. -/
theorem Wf.nextFrame (h : Wf bufSize x) :
    ((frameProtocol f bufSize).Incomplete x.pending ∧
      ∃ y, x.nextFrame f = (y, .error .enomore) ∧ Wf bufSize y ∧ y.pending = x.pending ∧
        y.frameBegin = 0) ∨
    headerSize ≤ x.pending.length ∧
    ((∃ status, (frameProtocol f bufSize).frameLength (x.pending.take headerSize) = .error status ∧
      status ≠ .enomore ∧ x.nextFrame f = (x, .error status)) ∨
    ∃ length, (frameProtocol f bufSize).frameLength (x.pending.take headerSize) =
        .ok length.toNat ∧ length.toNat ≤ x.pending.length ∧
      ∃ y, x.nextFrame f = (y, .ok ⟨x.frameBegin, length⟩) ∧ Wf bufSize y ∧
        y.pending = x.pending.drop length.toNat ∧
        y.frameData ⟨x.frameBegin, length⟩ = x.pending.take length.toNat) := by
  have hbegin := h.begin_le
  have hcur := h.cur_le
  have hsz := h.sz
  have hpending := h.length_pending
  obtain ⟨buffer, hbuffer, hlength⟩ := h.opened
  have hslice : x.pending =
      Buffer.slice buffer x.frameBegin.toNat (x.curSize.toNat - x.frameBegin.toNat) := by
    rw [pending, hbuffer]
    rfl
  have hnomore := h.nomore hbuffer
  have hnext : x.nextFrame f = if x.curSize - x.frameBegin < BitVec.ofNat 32 headerSize then
      x.nomore buffer (x.curSize - x.frameBegin)
      else (f.binaryInfo (Buffer.slice buffer x.frameBegin.toNat headerSize)).elim (x, .error .eproto)
        fun length =>
          if length > bufSize then (x, .error .enobuf)
          else if length > x.curSize - x.frameBegin then x.nomore buffer (x.curSize - x.frameBegin)
          else ({ x with frameBegin := x.frameBegin + length }, .ok ⟨x.frameBegin, length⟩) := by
    simp only [SocketAdapter.nextFrame, hbuffer, h.bufSize_eq]
    cases f.binaryInfo (Buffer.slice buffer x.frameBegin.toNat headerSize) <;> rfl
  rw [hnext]
  split
  · rename_i hshort
    have hshort : x.pending.length < headerSize := by
      rw [← hsz]
      exact BitVec.lt_def.mp hshort
    exact .inl ⟨.inl hshort, hnomore⟩
  · rename_i hshort
    have hheader : headerSize ≤ x.pending.length := by
      rw [← hsz]
      exact Nat.le_of_not_lt fun hlt => hshort (BitVec.lt_def.mpr hlt)
    have htake : x.pending.take headerSize = Buffer.slice buffer x.frameBegin.toNat headerSize := by
      rw [hslice]
      exact Buffer.take_slice (by omega)
    cases hinfo : f.binaryInfo (Buffer.slice buffer x.frameBegin.toNat headerSize) with
    | none => exact .inr ⟨hheader, .inl ⟨_, by rw [htake]; exact frameLength_eproto hinfo, by decide, rfl⟩⟩
    | some length =>
      rw [Option.elim_some]
      split
      · rename_i hlong
        exact .inr ⟨hheader, .inl ⟨_, by rw [htake]; exact frameLength_enobuf hinfo hlong, by decide, rfl⟩⟩
      · rename_i hlong
        have hframe : (frameProtocol f bufSize).frameLength (x.pending.take headerSize) =
            .ok length.toNat := by
          rw [htake]
          exact frameLength_ok hinfo hlong
        split
        · rename_i hmore
          have hmore : x.pending.length < length.toNat := by
            rw [← hsz]
            exact BitVec.lt_def.mp hmore
          exact .inl ⟨.inr ⟨_, hframe, hmore⟩, hnomore⟩
        · rename_i hmore
          have hfits : length.toNat ≤ x.pending.length := by
            rw [← hsz]
            exact Nat.le_of_not_lt fun hlt => hmore (BitVec.lt_def.mpr hlt)
          have hsize := bufSize.isLt
          have hend : (x.frameBegin + length).toNat = x.frameBegin.toNat + length.toNat := by
            rw [BitVec.toNat_add]
            exact Nat.mod_eq_of_lt (by omega)
          refine .inr ⟨hheader, .inr ⟨length, hframe, hfits, _, rfl, ⟨h.bufSize_eq, h.opened, ?_, hcur⟩,
            ?_, ?_⟩⟩
          · change (x.frameBegin + length).toNat ≤ x.curSize.toNat
            omega
          · rw [hslice, Buffer.drop_slice]
            simp only [pending, hbuffer, Option.getD_some]
            rw [hend, Nat.sub_add_eq]
          · rw [hslice, Buffer.take_slice (by omega)]
            simp only [frameData, hbuffer, Option.getD_some]

end SocketAdapter

namespace Connection

variable {c c' : Connection}

/-- What cutting the bytes received so far gives, in terms of the connection: in the loop the rest
is still to be cut. -/
def Agrees (f : CapsFormat) (bufSize : Word) (c : Connection) : Prop :=
  (frameProtocol f bufSize).split [] c.received =
    match c.pc with
    | .framing => (frameProtocol f bufSize).split c.frames c.adapter.pending
    | .reading | .failed .closed => (c.frames, .more c.adapter.pending)
    | .failed (.frame status) => (c.frames, .invalid status)
    | .failed .put => (c.frames, .rejected)

structure Wf (f : CapsFormat) (bufSize : Word) (c : Connection) : Prop where
  adapter : c.adapter.Wf bufSize
  front : c.pc = .reading → c.adapter.frameBegin = 0
  within : ∀ p ∈ c.puts, p.1.start.toNat + p.1.size.toNat ≤ bufSize.toNat ∧
    p.2.length = p.1.size.toNat
  agrees : Agrees f bufSize c

theorem wf_initial (h : Initial c bufSize) : Wf f bufSize c := by
  obtain ⟨buffer, hlength, rfl⟩ := h
  refine ⟨⟨rfl, ⟨buffer, rfl, hlength⟩, Nat.le_refl _, Nat.zero_le _⟩, fun _ => rfl, nofun, ?_⟩
  exact Protocol.split_of_incomplete (.inl (frameProtocol f bufSize).headerSize_pos)

theorem Wf.doRead (h : Wf f bufSize c) {received : Option (List Byte)}
    (hstep : c.doRead received = some c') : Wf f bufSize c' := by
  simp only [Connection.doRead, Option.ite_none_right_eq_some] at hstep
  obtain ⟨⟨hpc, hfree⟩, hstep⟩ := hstep
  have hagrees := h.agrees
  simp only [Agrees, hpc] at hagrees
  by_cases hnone : received = none ∨ received = some []
  · have hread : c.adapter.read received = (c.adapter, .eclosed) := by
      unfold SocketAdapter.read
      obtain rfl | rfl := hnone <;> split <;> simp_all
    rw [hread] at hstep
    cases hstep
    exact ⟨h.adapter, nofun, h.within, hagrees⟩
  · obtain ⟨chunk, rfl⟩ : ∃ chunk, received = some chunk :=
      Option.ne_none_iff_exists'.mp fun heq => hnone (.inl heq)
    have hne : chunk ≠ [] := fun heq => hnone (.inr (by rw [heq]))
    obtain ⟨x, hread, hx, hpending⟩ := h.adapter.read hne hfree
    rw [hread] at hstep
    cases hstep
    refine ⟨hx, nofun, h.within, ?_⟩
    simp only [Agrees, Option.getD_some, hpending]
    exact Protocol.split_append_of_more hagrees chunk

theorem Wf.doFrame (h : Wf f bufSize c) (hstep : c.doFrame f = some c') :
    Wf f bufSize c' ∧ (c'.pc = .framing →
      c'.adapter.pending.length < c.adapter.pending.length) := by
  simp only [Connection.doFrame, Option.ite_none_right_eq_some] at hstep
  obtain ⟨hpc, hstep⟩ := hstep
  have hagrees := h.agrees
  simp only [Agrees, hpc] at hagrees
  obtain ⟨hinc, x, hnext, hx, hpending, hfront⟩ | ⟨hheader, ⟨status, hlen, hstatus, hnext⟩ |
    ⟨length, hlen, hle, x, hnext, hx, hpending, hdata⟩⟩ := h.adapter.nextFrame (f := f)
  · rw [hnext] at hstep
    cases hstep
    refine ⟨⟨hx, fun _ => hfront, h.within, ?_⟩, nofun⟩
    rw [Protocol.split_of_incomplete hinc] at hagrees
    simp only [Agrees, hpending]
    exact hagrees
  · rw [hnext] at hstep
    rw [Protocol.split_of_invalid hheader hlen] at hagrees
    cases status with
    | enomore => exact absurd rfl hstatus
    | success | eclosed | eproto | enobuf =>
      cases hstep
      exact ⟨⟨h.adapter, nofun, h.within, hagrees⟩, nofun⟩
  · rw [hnext] at hstep
    cases hstep
    rw [Protocol.split_of_complete hheader hlen hle, deliver_frameProtocol] at hagrees
    have hwithin : ∀ p ∈ c.puts ++ [((⟨c.adapter.frameBegin, length⟩ : Frame),
        x.frameData ⟨c.adapter.frameBegin, length⟩)],
        p.1.start.toNat + p.1.size.toNat ≤ bufSize.toNat ∧ p.2.length = p.1.size.toNat := by
      intro p hp
      obtain hp | hp := List.mem_append.mp hp
      · exact h.within p hp
      · have hpending' := h.adapter.length_pending
        have hcur := h.adapter.cur_le
        have hbegin := h.adapter.begin_le
        rw [List.mem_singleton.mp hp, hdata, List.length_take]
        dsimp only
        omega
    have hframes : (c.puts ++ [((⟨c.adapter.frameBegin, length⟩ : Frame),
        x.frameData ⟨c.adapter.frameBegin, length⟩)]).map Prod.snd =
        c.frames ++ [c.adapter.pending.take length.toNat] := by
      rw [List.map_append, hdata]
      rfl
    rw [hdata] at hwithin hframes
    rw [hdata]
    cases hparse : (f.parse (c.adapter.pending.take length.toNat)).isSome with
    | true =>
      rw [if_pos hparse] at hagrees
      refine ⟨⟨hx, nofun, hwithin, ?_⟩, fun _ => ?_⟩
      · simp only [Agrees, frames, hframes, hpending]
        exact hagrees
      · have hpos := Protocol.length_pos_of_accepted (frameProtocol f bufSize) (s := c.frames) hparse
        rw [List.length_take] at hpos
        change x.pending.length < _
        rw [hpending, List.length_drop]
        omega
    | false =>
      have hreject : ¬ (f.parse (c.adapter.pending.take length.toNat)).isSome = true := by
        rw [hparse]
        exact Bool.false_ne_true
      rw [if_neg hreject] at hagrees
      refine ⟨⟨hx, nofun, hwithin, ?_⟩, nofun⟩
      simp only [Agrees, frames, hframes]
      exact hagrees

theorem reachable_wf (h : (system f bufSize).Reachable c) : Wf f bufSize c := by
  apply h.invariant
  · intro c hc
    exact wf_initial hc
  · intro c act c' hc hstep
    cases act with
    | read received => exact hc.doRead hstep
    | nextFrame => exact (hc.doFrame hstep).1

theorem doFrame_isSome (h : c.pc = .framing) :
    ∃ c', c.doFrame f = some c' ∧ c'.received = c.received := by
  rw [doFrame, if_pos h]
  generalize c.adapter.nextFrame f = r
  obtain ⟨x, status | frame⟩ := r
  · cases status <;> exact ⟨_, rfl, rfl⟩
  · exact ⟨_, rfl, rfl⟩

/-- The loop of `do_read` ends: every frame it goes on from shortens the pending bytes. -/
theorem Wf.loop_ends (h : Wf f bufSize c) : ∃ n c',
    (system f bufSize).Run c (List.replicate n .nextFrame) c' ∧ c'.received = c.received ∧
      c'.pc ≠ .framing := by
  induction hlen : c.adapter.pending.length using Nat.strongRecOn generalizing c with
  | ind m ih =>
    subst hlen
    by_cases hpc : c.pc = .framing
    · obtain ⟨c₁, hstep, hreceived⟩ := doFrame_isSome (f := f) hpc
      obtain ⟨hwf, hshorter⟩ := h.doFrame hstep
      by_cases hagain : c₁.pc = .framing
      · obtain ⟨n, c', hrun, hkeep, hend⟩ := ih _ (hshorter hagain) hwf rfl
        exact ⟨n + 1, c', .cons hstep hrun, hkeep.trans hreceived, hend⟩
      · exact ⟨1, c₁, .single hstep, hreceived, hagain⟩
    · exact ⟨0, c, .nil c, rfl, hpc⟩

theorem Wf.read_ends (h : Wf f bufSize c) (hpc : c.pc = .reading) {chunk : List Byte}
    (hne : chunk ≠ []) (hfree : chunk.length ≤ c.free.toNat) : ∃ n c',
      (system f bufSize).Run c (.read (some chunk) :: List.replicate n .nextFrame) c' ∧
        c'.received = c.received ++ chunk ∧ c'.pc ≠ .framing := by
  obtain ⟨x, hread, _, _⟩ := h.adapter.read hne hfree
  have hstep : c.doRead (some chunk) = some { c with
      adapter := x, pc := .framing, received := c.received ++ chunk } := by
    rw [Connection.doRead, if_pos ⟨hpc, hfree⟩, hread]
    rfl
  obtain ⟨n, c', hrun, hreceived, hend⟩ := (h.doRead hstep).loop_ends
  exact ⟨n, c', .cons hstep hrun, hreceived, hend⟩

theorem Wf.free_pos (h : Wf f bufSize c) (hsize : headerSize ≤ bufSize.toNat)
    (hpc : c.pc = .reading) : 0 < c.free.toNat := by
  have hagrees := h.agrees
  simp only [Agrees, hpc] at hagrees
  have hcur := h.adapter.cur_le
  have hlength := h.adapter.length_pending
  have hzero : c.adapter.frameBegin.toNat = 0 := by
    rw [h.front hpc]
    rfl
  have hshort : c.adapter.pending.length < bufSize.toNat := by
    obtain hshort | ⟨n, hn, hlt⟩ := (Protocol.incomplete_of_split hagrees).1
    · exact Nat.lt_of_lt_of_le hshort hsize
    · have hle : n ≤ bufSize.toNat := by
        simp only [frameProtocol] at hn
        cases hinfo : f.binaryInfo (c.adapter.pending.take headerSize) with
        | none =>
          rw [hinfo] at hn
          cases hn
        | some length =>
          rw [hinfo, Option.elim_some] at hn
          split at hn
          · cases hn
          · rename_i hle
            cases hn
            exact Nat.le_of_not_lt fun hlt => hle (BitVec.lt_def.mpr hlt)
      omega
  rw [free, h.adapter.bufSize_eq, BitVec.toNat_sub_of_le (BitVec.le_def.mpr hcur)]
  omega

/-- In every state of `do_read`, whatever the reads were: the cursors are in order, every frame
passed on lies inside the buffer, a read has room, the loop ends, and the frames and the failure
are those of cutting the whole stream by header length. -/
theorem do_read_agrees_with_split (f : CapsFormat) (bufSize : Word)
    (hsize : 32768 ≤ bufSize.toNat) {c : Connection} (h : (system f bufSize).Reachable c) :
    (c.adapter.frameBegin ≤ c.adapter.curSize ∧ c.adapter.curSize ≤ bufSize) ∧
    (∀ p ∈ c.puts, p.1.start.toNat + p.1.size.toNat ≤ bufSize.toNat ∧
      p.2.length = p.1.size.toNat) ∧
    (c.pc = .reading → 0 < c.free.toNat ∧ ∀ chunk ≠ [], chunk.length ≤ c.free.toNat →
      ∃ n c', (system f bufSize).Run c (.read (some chunk) :: List.replicate n .nextFrame) c' ∧
        c'.received = c.received ++ chunk ∧ c'.pc ≠ .framing) ∧
    (∃ n c', (system f bufSize).Run c (List.replicate n .nextFrame) c' ∧
      c'.received = c.received ∧ c'.pc ≠ .framing) ∧
    (c.pc = .reading ∨ c.pc = .failed .closed →
      (frameProtocol f bufSize).split [] c.received = (c.frames, .more c.adapter.pending)) ∧
    (∀ status, c.pc = .failed (.frame status) → ∀ later,
      (frameProtocol f bufSize).split [] (c.received ++ later) = (c.frames, .invalid status)) ∧
    (c.pc = .failed .put → ∀ later,
      (frameProtocol f bufSize).split [] (c.received ++ later) = (c.frames, .rejected)) := by
  have hwf := reachable_wf h
  have hagrees := hwf.agrees
  refine ⟨⟨BitVec.le_def.mpr hwf.adapter.begin_le, BitVec.le_def.mpr hwf.adapter.cur_le⟩,
    hwf.within, ?_, hwf.loop_ends, ?_, ?_, ?_⟩
  · intro hpc
    have hheader : headerSize ≤ bufSize.toNat := Nat.le_trans (by decide) hsize
    exact ⟨hwf.free_pos hheader hpc, fun chunk hne hfree => hwf.read_ends hpc hne hfree⟩
  · rintro (hpc | hpc)
    · simpa only [Agrees, hpc] using hagrees
    · simpa only [Agrees, hpc] using hagrees
  · intro status hpc later
    simp only [Agrees, hpc] at hagrees
    rw [Protocol.split_append, hagrees]
    rfl
  · intro hpc later
    simp only [Agrees, hpc] at hagrees
    rw [Protocol.split_append, hagrees]
    rfl

/-- A connection with a zeroed buffer, before its first read. -/
def sampleConnection : Connection :=
  { adapter := { buffer := some (List.replicate 32768 0), bufSize := 32768 } }

theorem sampleConnection_initial : Initial sampleConnection 32768 :=
  ⟨List.replicate 32768 0, List.length_replicate, rfl⟩

theorem do_read_cuts_ping : ∃ c, (system (.sample [.i32 8]) 32768).Reachable c ∧
    c.frames = [[0, 0, 0, 0, 0, 0, 0, 8]] ∧ c.adapter.pending = [0, 0, 0] ∧
    (frameProtocol (.sample [.i32 8]) 32768).split [] c.received =
      (c.frames, .more c.adapter.pending) := by
  have hrun : ∃ c, execute (step (.sample [.i32 8])) sampleConnection
      [.read (some [0, 0, 0, 0, 0, 0, 0, 8, 0, 0, 0]), .nextFrame, .nextFrame] = some c ∧
      c.pc = .reading ∧ c.frames = [[0, 0, 0, 0, 0, 0, 0, 8]] ∧ c.adapter.pending = [0, 0, 0] :=
    ⟨_, rfl, rfl, rfl, rfl⟩
  obtain ⟨c, hexec, hpc, hframes, hpending⟩ := hrun
  have hreach : (system (.sample [.i32 8]) 32768).Reachable c :=
    execute_reachable sampleConnection_initial hexec
  exact ⟨c, hreach, hframes, hpending,
    (do_read_agrees_with_split (.sample [.i32 8]) 32768 (by decide) hreach).2.2.2.2.1 (.inl hpc)⟩

end Connection

end Flora
