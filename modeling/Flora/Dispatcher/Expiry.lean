import Flora.Dispatcher.PendingCalls
import Flora.Lib.SortedList

/-! # Deadlines of calls

`add_pending_call` keeps `pending_calls` sorted by `discard_tp`. The early exit of
`discard_pending_calls` and the deadline `handle_cmds` waits for both rest on that order. -/

namespace Flora

open TransitionSystem SortedList

namespace Dispatcher

variable {e : Env} {d d' : Dispatcher} {act : Action} {tp : Nat} {a : AdapterId} {caps : Caps}

/-- Only calls and replies change the list. -/
theorem pendingCalls_msgHandler {sender : AdapterId} {now : Nat} {cmd : Int} {ok : Bool}
    (h : msgHandler e now cmd caps sender d = some (d', ok)) :
    d'.pendingCalls = d.pendingCalls ∨ handleReplyReq e caps sender d = some (d', ok) ∨
      handleCallReq e now caps sender d = some (d', ok) := by
  by_cases hreply : cmd = 4
  · subst hreply
    exact .inr (.inl h)
  by_cases hcall : cmd = 7
  · subst hcall
    exact .inr (.inr h)
  left
  replace h := msgHandler_updates h
  induction h with
  | refl => rfl
  | tail _ hup ih =>
    refine Eq.trans ?_ ih
    cases hup with
    | authenticate req => exact (registryOnly_authenticate e req sender _).pendingCalls
    | purge name => rw [purge_rest]
    | persist name msgtype args => rw [persistPost_rest]
    | reply => exact absurd rfl hreply
    | methods names _ _ => exact (registryOnly_setInfo _ sender _).pendingCalls
    | refuse | enter => exact absurd rfl hcall
    | write hws => exact hws.pendingCalls
    | subscribe | unsubscribe => rfl

/-- The milliseconds `add_pending_call` grants a call. -/
def grantedInterval (timeout : Word) : Nat :=
  if timeout = 0 then defaultCallTimeout else timeout.toNat

/-- The entry of a call that is handled at the time `now`. -/
def Granted (act : Action) (pc : PendingCall) (d d' : Dispatcher) : Prop :=
  ∃ caps now done c, act = .msg caps pc.sender now done ∧ d'.calls = d.calls ++ [c] ∧
    pc.call = d.calls.length ∧ pc.discardTp = now + grantedInterval c.req.timeout * 10 ^ 6

/-- What a step does to the list: an entry between two adapters with records is inserted, of which
the target has a name, one is taken out by a reply, or a first part is discarded. -/
theorem step_pendingCalls (h : step e d act = some d') :
    d'.pendingCalls = d.pendingCalls ∨
    (∃ pc, d'.pendingCalls = insertPendingCall pc d.pendingCalls ∧
      (d.deref pc.sender).isSome = true ∧ (d.deref pc.target).isSome = true ∧
      (∃ n, d.namedAdapters.lookup n = some pc.target) ∧ Granted act pc d d') ∨
    (∃ p, d'.pendingCalls = d.pendingCalls.eraseP p) ∨
    ∃ expired, d.pendingCalls = expired ++ d'.pendingCalls := by
  cases act with
  | msg caps sender now done =>
    obtain ⟨rfl, -⟩ | ⟨cmd, rest, d₁, ok, -, hh, rfl⟩ := handleMsg_request (step_msg h).2
    · exact .inl rfl
    · have hsame : ({ (if ok then d₁ else d₁.close sender) with handleCmdTp := done } :
          Dispatcher).pendingCalls = d₁.pendingCalls := by cases ok <;> rfl
      rw [hsame]
      rcases pendingCalls_msgHandler hh with hkept | h | h
      · exact .inl hkept
      · obtain rfl | ⟨req, info, pc, d₂, ws, -, -, -, -, -, rfl, -⟩ := handleReplyReq_spec h
        · exact .inl rfl
        · exact .inr (.inr (.inl ⟨_, rfl⟩))
      · obtain ⟨-, rfl, -⟩ | ⟨req, ws, -, -, hws, -⟩ |
          ⟨req, info, target, ws, -, hderef, hfound, hws, -⟩ := handleCallReq_spec h
        · exact .inl rfl
        · exact .inl hws.pendingCalls
        · refine .inr (.inl ⟨⟨BitVec.ofNat 32 (d.reqseq + 1), req.id, sender, target,
            now + grantedInterval req.timeout * 10 ^ 6, d.calls.length⟩, hws.pendingCalls, ?_, ?_,
            ⟨_, named_of_findMethod hfound⟩, caps, now, done,
            ⟨sender, req, some (BitVec.ofNat 32 (d.reqseq + 1), target)⟩, rfl, ?_,
            rfl, rfl⟩)
          · change (d.deref sender).isSome = true
            rw [hderef]
            rfl
          · exact deref_of_findMethod hfound
          · cases ok <;> exact hws.calls
  | erase sender now =>
    obtain ⟨-, rfl⟩ | ⟨info, d₁, ws, -, hws, -, rfl⟩ := doEraseAdapter_spec (step_erase h).2
    · exact .inl rfl
    · left
      have hname : d₁.pendingCalls = d.pendingCalls := by
        rw [hws.pendingCalls, (registryOnly_eraseName info.name d).pendingCalls]
      rw [checkSubscriptions_rest, ← hname]
      split <;> rfl
  | expire tp =>
    obtain ⟨expired, rest, ws, hsplit, hws, -⟩ := discardPendingCalls_spec h
    exact .inr (.inr (.inr ⟨expired, by rw [hsplit, hws.pendingCalls]⟩))
  | close a =>
    cases h
    exact .inl rfl
  | destroy a =>
    obtain ⟨-, -, rfl⟩ := step_destroy h
    exact .inl rfl

theorem mem_pendingCalls_step {pc : PendingCall} (h : step e d act = some d')
    (hpc : pc ∈ d'.pendingCalls) : pc ∈ d.pendingCalls ∨ Granted act pc d d' := by
  obtain hsame | ⟨new, hins, -, -, -, hgranted⟩ | ⟨p, herase⟩ | ⟨expired, hsplit⟩ := step_pendingCalls h
  · rw [hsame] at hpc
    exact .inl hpc
  · rw [hins, (insertPendingCall_perm new d.pendingCalls).mem_iff] at hpc
    obtain rfl | hpc := List.mem_cons.mp hpc
    · exact .inr hgranted
    · exact .inl hpc
  · rw [herase] at hpc
    exact .inl (List.mem_of_mem_eraseP hpc)
  · rw [hsplit]
    exact .inl (List.mem_append_right _ hpc)

def Sorted (d : Dispatcher) : Prop := SortedBy PendingCall.discardTp d.pendingCalls

theorem sorted_insertPendingCall {pc : PendingCall} {pcs : List PendingCall}
    (h : SortedBy PendingCall.discardTp pcs) :
    SortedBy PendingCall.discardTp (insertPendingCall pc pcs) := by
  induction pcs with
  | nil => exact List.pairwise_singleton _ _
  | cons p pcs ih =>
    obtain ⟨hhead, htail⟩ := List.pairwise_cons.mp h
    unfold insertPendingCall
    split
    · rename_i hge
      refine List.pairwise_cons.mpr ⟨fun q hq => ?_, h⟩
      obtain rfl | hq := List.mem_cons.mp hq
      · exact hge
      · exact Nat.le_trans hge (hhead q hq)
    · rename_i hlt
      refine List.pairwise_cons.mpr ⟨fun q hq => ?_, ih htail⟩
      obtain rfl | hq := List.mem_cons.mp ((insertPendingCall_perm pc pcs).mem_iff.mp hq)
      · exact Nat.le_of_lt (Nat.lt_of_not_le hlt)
      · exact hhead q hq

theorem Sorted.step (hs : Sorted d) (h : step e d act = some d') : Sorted d' := by
  unfold Sorted at hs ⊢
  obtain heq | ⟨pc, heq, -⟩ | ⟨p, heq⟩ | ⟨expired, heq⟩ := step_pendingCalls h
  · rw [heq]
    exact hs
  · rw [heq]
    exact sorted_insertPendingCall hs
  · rw [heq]
    exact hs.sublist List.eraseP_sublist
  · rw [heq] at hs
    exact hs.sublist (List.sublist_append_right _ _)

theorem sorted_reachable (h : (system e).Reachable d) : Sorted d := by
  apply h.invariant (P := Sorted)
  · rintro s ⟨adapters, rfl, -⟩
    exact .nil
  · exact fun s act t hs hst => hs.step hst

/-- What `handle_cmds` passes to `wait_until`; without pending calls it waits for a command. -/
def waitUntil (d : Dispatcher) : Option Nat := d.pendingCalls.head?.map PendingCall.discardTp

theorem waitUntil_least (hs : Sorted d) {t : Nat} (h : d.waitUntil = some t) :
    (∃ pc ∈ d.pendingCalls, pc.discardTp = t) ∧ ∀ pc ∈ d.pendingCalls, t ≤ pc.discardTp := by
  obtain ⟨front, hfront, rfl⟩ := Option.map_eq_some_iff.mp h
  exact ⟨⟨front, List.mem_of_head? hfront, rfl⟩, hs.head_le hfront⟩

/-- `discard_pending_calls` at `tp` gets to `pc`, the caller is still open by then and the write of
its answer times out. -/
def TimesOut (e : Env) (tp : Nat) (d : Dispatcher) (pc : PendingCall) : Prop :=
  ∃ pre post, d.pendingCalls = pre ++ pc :: post ∧ (∀ q ∈ pre, q.discardTp ≤ tp) ∧
    pc.discardTp ≤ tp ∧ (d.adapters pc.sender).closed = false ∧
    (∀ i q, pre[i]? = some q → q.sender = pc.sender → e.os (d.out.length + i) = .success) ∧
    e.os (d.out.length + pre.length) = .timeout

theorem write_result (e : Env) (d : Dispatcher) (a : AdapterId) (order : ByteOrder) (caps : Caps)
    (answers : Option Answer) : (d.write e a order caps answers).2 =
      if (d.adapters a).closed then .error else e.os d.out.length := by
  unfold write
  split
  · rfl
  · split
    · rename_i hos
      exact hos.symm
    · rfl

theorem Writes.nameReadable {ws : List Write} (h : Writes d ws d') (a : AdapterId) :
    d'.nameReadable a = d.nameReadable a := by
  simp only [Dispatcher.nameReadable, h.info, h.deref]

theorem writeLogged_of_readable {order : ByteOrder} {answers : Option Answer}
    {readers : List AdapterId}
    (h : (d.adapters a).closed = false → e.os d.out.length = .timeout →
      ∀ r ∈ readers, d.nameReadable r = true) :
    d.writeLogged e a order caps answers readers = some (d.write e a order caps answers).1 := by
  refine if_neg ?_
  rintro ⟨htimeout, hnot⟩
  rw [write_result] at htimeout
  split at htimeout
  · cases htimeout
  · rename_i hopen
    exact hnot (List.all_eq_true.mpr (h (Bool.eq_false_iff.mpr hopen) htimeout))

theorem discardLoop_isSome {pcs : List PendingCall}
    (h : ∀ pre pc post, pcs = pre ++ pc :: post → (∀ q ∈ pre, q.discardTp ≤ tp) →
      pc.discardTp ≤ tp → (d.adapters pc.sender).closed = false →
      (∀ i q, pre[i]? = some q → q.sender = pc.sender → e.os (d.out.length + i) = .success) →
      e.os (d.out.length + pre.length) = .timeout →
      d.nameReadable pc.sender = true ∧ d.nameReadable pc.target = true) :
    (discardLoop e tp pcs d).isSome = true := by
  induction pcs generalizing d with
  | nil => rfl
  | cons pc pcs ih =>
    unfold discardLoop
    split
    · rfl
    · rename_i hdue
      have hdue : pc.discardTp ≤ tp := Nat.le_of_not_lt hdue
      have hlogged : pendingCallTimeout e pc d = some _ :=
        writeLogged_of_readable fun hopen htimeout r hr => by
          obtain ⟨hsender, htarget⟩ := h [] pc pcs rfl (fun q hq => absurd hq List.not_mem_nil) hdue
            hopen (fun i q hq => absurd hq (by simp)) htimeout
          obtain rfl | hr := List.mem_cons.mp hr
          · exact hsender
          · rw [List.mem_singleton.mp hr]
            exact htarget
      rw [hlogged, Option.bind_some]
      have hw := write_writes e d pc.sender (d.adapters pc.sender).serializeFlags
        (ResponseSerializer.serializeReply pc.cliid cliEtimeout none 0) (some ⟨pc.call, .expired⟩)
      have hresult := write_result e d pc.sender (d.adapters pc.sender).serializeFlags
        (ResponseSerializer.serializeReply pc.cliid cliEtimeout none 0) (some ⟨pc.call, .expired⟩)
      generalize d.write e pc.sender _ _ _ = res at hw hresult
      obtain ⟨d₁, r⟩ := res
      have hlength : d₁.out.length = d.out.length + 1 := by rw [hw.out, List.length_append]; rfl
      refine ih fun pre p post hsplit hpre hp hopen hearlier htimeout => ?_
      have hopen : (d₁.adapters p.sender).closed = false := hopen
      have hopen' : (d.adapters p.sender).closed = false := by
        rw [← Bool.not_eq_true] at hopen ⊢
        exact fun hclosed => hopen (hw.closed_mono hclosed)
      have hread := h (pc :: pre) p post (by rw [hsplit]; rfl) ?_ hp hopen' ?_ ?_
      · change d₁.nameReadable p.sender = true ∧ d₁.nameReadable p.target = true
        rw [hw.nameReadable, hw.nameReadable]
        exact hread
      · intro q hq
        obtain rfl | hq := List.mem_cons.mp hq
        · exact hdue
        · exact hpre q hq
      · intro i q hq heq
        cases i with
        | zero =>
          cases hq
          -- a first write that fails would have closed the caller
          by_contra hfail
          rw [heq, hopen', if_neg Bool.false_ne_true] at hresult
          have hclosed := (hw.closed_iff p.sender).mpr
            (.inr ⟨_, List.mem_singleton_self _, heq, by rw [hresult]; exact hfail⟩)
          rw [hclosed] at hopen
          cases hopen
        | succ i =>
          have hsuccess : e.os (d₁.out.length + i) = .success := hearlier i q hq heq
          rw [hlength] at hsuccess
          rw [← hsuccess]
          congr 1
          omega
      · have htimeout : e.os (d₁.out.length + pre.length) = .timeout := htimeout
        rw [hlength] at htimeout
        rw [← htimeout, List.length_cons]
        congr 1
        omega

theorem discardPendingCalls_isSome (h : ∀ pc, TimesOut e tp d pc →
      d.nameReadable pc.sender = true ∧ d.nameReadable pc.target = true) :
    (discardPendingCalls e tp d).isSome = true :=
  discardLoop_isSome fun pre pc post hsplit hpre hdue hopen hearlier htimeout =>
    h pc ⟨pre, post, hsplit, hpre, hdue, hopen, hearlier, htimeout⟩

/-- In every reachable state the calls are sorted by deadline and stand for the requests of their
callers. A pass at `tp` whose log lines can be written answers the calls that are due, each with its
own id, in order and nobody else, keeps the others in order, and the next wait ends at the least
deadline left. -/
theorem expires_when_due (h : (system e).Reachable d) : Sorted d ∧
    (∀ pc ∈ d.pendingCalls, ∃ c, d.calls[pc.call]? = some c ∧ pc.Represents c) ∧
    (∀ tp, (∀ pc, TimesOut e tp d pc →
      d.nameReadable pc.sender = true ∧ d.nameReadable pc.target = true) →
      ∃ d', step e d (.expire tp) = some d') ∧
    ∀ tp d', step e d (.expire tp) = some d' →
      d'.pendingCalls = d.pendingCalls.filter (fun pc => tp < pc.discardTp) ∧
      (∃ ws, d'.out = d.out ++ ws ∧ ws.map Write.request =
        (d.pendingCalls.filter fun pc => pc.discardTp ≤ tp).map fun pc =>
          (pc.sender, (d.adapters pc.sender).serializeFlags,
            ResponseSerializer.serializeReply pc.cliid cliEtimeout none 0,
            some ⟨pc.call, .expired⟩)) ∧
      (d'.waitUntil = none ↔ d'.pendingCalls = []) ∧
      ∀ t, d'.waitUntil = some t → tp < t ∧ (∃ pc ∈ d'.pendingCalls, pc.discardTp = t) ∧
        ∀ pc ∈ d'.pendingCalls, t ≤ pc.discardTp := by
  have hs := sorted_reachable h
  refine ⟨hs, (accounts_reachable h).pending, fun tp hread =>
    Option.isSome_iff_exists.mp (discardPendingCalls_isSome hread), fun tp d' hst => ?_⟩
  have hs' := sorted_reachable (h.next hst)
  obtain ⟨expired, rest, ws, hsplit, hws, hreqs, hexpired, hrest⟩ := discardPendingCalls_spec hst
  have hsorted : SortedBy PendingCall.discardTp (expired ++ rest) := hsplit ▸ hs
  obtain ⟨hdue, hlater⟩ := hsorted.split hexpired hrest
  have hkept : d'.pendingCalls = rest := hws.pendingCalls
  refine ⟨?_, ⟨ws, hws.out, ?_⟩, ?_, fun t ht => ?_⟩
  · rw [hkept, hsplit, hlater]
  · rw [hsplit, hdue, hreqs]
    rfl
  · simp [waitUntil]
  · obtain ⟨⟨pc, hmem, rfl⟩, hleast⟩ := waitUntil_least hs' ht
    refine ⟨?_, ⟨pc, hmem, rfl⟩, hleast⟩
    rw [hkept, ← hlater] at hmem
    exact of_decide_eq_true (List.mem_filter.mp hmem).2

/-- The second call is due before the first. -/
theorem expires_when_due_late :
    ∃ d d', execute (step sampleEnv) {} [sampleAuth 0 "c" 0, sampleAuth 1 "s" 0,
        .msg (RequestSerializer.serializeDeclareMethod "m") 1 0 0,
        .msg (RequestSerializer.serializeCall "m" none "s" 7 1000) 0 0 0,
        .msg (RequestSerializer.serializeCall "m" none "s" 8 0) 0 0 0] = some d ∧
      d.pendingCalls.map (·.cliid) = [8, 7] ∧ step sampleEnv d (.expire (5 * 10 ^ 8)) = some d' ∧
      d'.pendingCalls.map (·.cliid) = [7] ∧ d'.waitUntil = some (10 ^ 9) := by
  have hrun : execute (step sampleEnv) {} [sampleAuth 0 "c" 0, sampleAuth 1 "s" 0,
    .msg (RequestSerializer.serializeDeclareMethod "m") 1 0 0,
    .msg (RequestSerializer.serializeCall "m" none "s" 7 1000) 0 0 0,
    .msg (RequestSerializer.serializeCall "m" none "s" 8 0) 0 0 0] = some _ := rfl
  obtain ⟨-, -, hdefined, hexpire⟩ := expires_when_due (execute_reachable initial_default hrun)
  obtain ⟨d', hst⟩ := hdefined (5 * 10 ^ 8) fun pc hout => by
    obtain ⟨pre, post, -, -, -, -, -, htimeout⟩ := hout
    cases htimeout
  have hkept := (hexpire (5 * 10 ^ 8) d' hst).1
  refine ⟨_, d', hrun, rfl, hst, ?_, ?_⟩
  · rw [hkept]
    rfl
  · rw [waitUntil, hkept]
    rfl

end Dispatcher

end Flora
