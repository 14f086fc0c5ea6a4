import Flora.Client.State
import Mathlib.Data.List.Nodup

/-! # Pending requests and what is recorded for them

An entry of `pending_requests` carries the id of its call until a reply is recorded for it, and 0
from then on. It shows that reply as long as no reply with the id 0 is written over it. This holds
whatever the calls return. -/

namespace Flora

open TransitionSystem

/-- The entry as a reply leaves it. -/
def PendingRequest.answer (p : PendingRequest) (rescode : Word) (response : Option Response) :
    PendingRequest :=
  { p with id := 0, rcode := rescode,
           result := if rescode = cliSuccess then response else p.result }

namespace Client

variable {c c' : Client} {key : Nat}

def recorded (c : Client) (key : Nat) : Option Completion := c.completions.find? (·.key == key)

/-- The entry shows what was recorded for its call. -/
def Shows (x : Option Completion) (p : PendingRequest) : Prop :=
  match x with
  | none => p.id = BitVec.ofNat 32 p.key ∧ p.result = none
  | some x => p.id = 0 ∧ p.rcode = x.rescode ∧ (p.result.isSome = true ↔ x.rescode = cliSuccess) ∧
    (x.rescode = cliSuccess → p.result = x.response)

/-- The entry carries the id of its call until something is recorded for it. -/
def Marked (x : Option Completion) (p : PendingRequest) : Prop :=
  p.id = if x.isSome then 0 else BitVec.ofNat 32 p.key

structure Wf (c : Client) : Prop where
  seq : c.reqseq < 2 ^ 31
  keys : (c.pendingRequests.map PendingRequest.key).Nodup
  pending : ∀ p ∈ c.pendingRequests, 0 < p.key ∧ p.key ≤ c.reqseq ∧ Marked (c.recorded p.key) p
  calls : ∀ key pc, c.calls key = some pc → key ≤ c.reqseq
  gone : ∀ key retcode reply, c.calls key = some (.returned retcode reply) →
    ∀ p ∈ c.pendingRequests, p.key ≠ key
  completed : ∀ x ∈ c.completions, x.key ≤ c.reqseq
  reason : c.closeReason = 0 ∨ c.closeReason ∈ closeReasons
  reasons : ∀ err, err ∈ c.closers ∨ err ∈ c.reporters → err ∈ closeReasons

/-- Every entry shows what was recorded for its call. -/
def Kept (c : Client) : Prop := ∀ p ∈ c.pendingRequests, Shows (c.recorded p.key) p

theorem entry_mem {p : PendingRequest} (h : c.entry key = some p) :
    p ∈ c.pendingRequests ∧ p.key = key := by
  have hkey := List.find?_some h
  exact ⟨List.mem_of_find?_eq_some h, beq_iff_eq.mp hkey⟩

theorem recorded_mem {x : Completion} (h : c.recorded key = some x) :
    x ∈ c.completions ∧ x.key = key := by
  have hkey := List.find?_some h
  exact ⟨List.mem_of_find?_eq_some h, beq_iff_eq.mp hkey⟩

theorem Wf.id_zero_iff (h : Wf c) {p : PendingRequest} (hp : p ∈ c.pendingRequests) :
    p.id = 0 ↔ c.recorded p.key ≠ none := by
  obtain ⟨hpos, hle, hmarked⟩ := h.pending p hp
  have hseq := h.seq
  cases hrec : c.recorded p.key with
  | none =>
    rw [hrec] at hmarked
    constructor
    · intro hid
      have hmarked : p.id = BitVec.ofNat 32 p.key := hmarked
      rw [hmarked] at hid
      exact absurd hid (Word.ofNat_ne_zero hpos (by omega))
    · exact fun hne => absurd rfl hne
  | some x =>
    rw [hrec] at hmarked
    exact ⟨fun _ => nofun, fun _ => hmarked⟩

theorem Wf.id_of_unrecorded (h : Wf c) {p : PendingRequest} (hp : p ∈ c.pendingRequests)
    (hnone : c.recorded p.key = none) : p.id = BitVec.ofNat 32 p.key := by
  have hmarked := (h.pending p hp).2.2
  rw [hnone] at hmarked
  exact hmarked

theorem Wf.setCall (h : Wf c) {pc : CallPc} (hkey : key ≤ c.reqseq)
    (hpc : ∀ retcode reply, pc ≠ .returned retcode reply) : Wf (c.setCall key pc) := by
  refine ⟨h.seq, h.keys, h.pending, ?_, ?_, h.completed, h.reason, h.reasons⟩
  · intro k pc' hk
    by_cases heq : k = key
    · rw [heq]
      exact hkey
    · exact h.calls k pc' (by simpa [Client.setCall, heq] using hk)
  · intro k retcode reply hk
    by_cases heq : k = key
    · subst heq
      exact absurd (by simpa [Client.setCall] using hk) (hpc retcode reply)
    · exact h.gone k retcode reply (by simpa [Client.setCall, heq] using hk)

theorem Wf.leave (h : Wf c) {retcode : Word} {reply : Option Response} (hkey : key ≤ c.reqseq) :
    Wf (c.leave key retcode reply) := by
  refine ⟨h.seq, ?_, ?_, ?_, ?_, h.completed, h.reason, h.reasons⟩
  · exact h.keys.sublist (List.filter_sublist.map _)
  · intro p hp
    exact h.pending p (List.mem_filter.mp hp).1
  · intro k pc hk
    by_cases heq : k = key
    · rw [heq]
      exact hkey
    · exact h.calls k pc (by simpa [Client.leave, Client.setCall, heq] using hk)
  · intro k retcode' reply' hk p hp
    obtain ⟨hmem, hne⟩ := List.mem_filter.mp hp
    by_cases heq : k = key
    · subst heq
      exact bne_iff_ne.mp hne
    · exact h.gone k retcode' reply' (by simpa [Client.leave, Client.setCall, heq] using hk) p hmem

theorem recorded_append {x : Completion} (c : Client) (key : Nat)
    (h : c.completions = c'.completions ++ [x]) (hnone : c'.recorded x.key = none) :
    c.recorded key = if key = x.key then some x else c'.recorded key := by
  unfold recorded
  rw [h, List.find?_append]
  by_cases hkey : key = x.key
  · subst hkey
    rw [if_pos rfl, show c'.completions.find? (·.key == x.key) = none from hnone]
    simp
  · rw [if_neg hkey]
    have hx : (x.key == key) = false := beq_false_of_ne (Ne.symm hkey)
    simp [hx]

theorem Wf.recorded_fresh (h : Wf c) (hkey : c.reqseq < key) : c.recorded key = none := by
  refine List.find?_eq_none.mpr fun x hx heq => ?_
  have hle := h.completed x hx
  rw [beq_iff_eq.mp heq] at hle
  omega

theorem Wf.calls_fresh (h : Wf c) (hkey : c.reqseq < key) : c.calls key = none := by
  cases hcall : c.calls key with
  | none => rfl
  | some pc =>
    have hle := h.calls key pc hcall
    omega

theorem Wf.ask (h : Wf c) {name target : String} {args : CapsPtr} {timeout : Word}
    (hseq : c.reqseq + 1 < 2 ^ 31) : Wf (c.ask name args target timeout) := by
  refine ⟨hseq, h.keys, ?_, ?_, h.gone, ?_, h.reason, h.reasons⟩
  · intro p hp
    obtain ⟨hpos, hle, hmarked⟩ := h.pending p hp
    exact ⟨hpos, Nat.le_succ_of_le hle, hmarked⟩
  · exact fun k pc hk => Nat.le_succ_of_le (h.calls k pc hk)
  · exact fun x hx => Nat.le_succ_of_le (h.completed x hx)

theorem Wf.enlist (h : Wf c) {blocking : Bool} (hpos : 0 < c.reqseq)
    (hfresh : ∀ p ∈ c.pendingRequests, p.key ≠ c.reqseq) (hnone : c.recorded c.reqseq = none)
    (hcall : c.calls c.reqseq = none) : Wf (c.enlist blocking) := by
  refine ⟨h.seq, ?_, ?_, h.calls, ?_, h.completed, h.reason, h.reasons⟩
  · change ((c.pendingRequests ++ [_]).map PendingRequest.key).Nodup
    rw [List.map_append, List.nodup_append]
    refine ⟨h.keys, List.nodup_singleton _, ?_⟩
    intro k hk k' hk'
    obtain ⟨p, hp, rfl⟩ := List.mem_map.mp hk
    rw [List.mem_singleton.mp hk']
    exact hfresh p hp
  · intro p hp
    obtain hp | hp := List.mem_append.mp hp
    · exact h.pending p hp
    · rw [List.mem_singleton.mp hp]
      refine ⟨hpos, Nat.le_refl _, ?_⟩
      change Marked (c.recorded c.reqseq) _
      rw [hnone]
      rfl
  · intro k retcode reply hk p hp
    obtain hp | hp := List.mem_append.mp hp
    · exact h.gone k retcode reply hk p hp
    · rw [List.mem_singleton.mp hp]
      rintro rfl
      cases hcall.symm.trans hk

theorem beginCall_cases {blocking fits : Bool} {name target : String} {args : CapsPtr}
    {timeout : Word} (hc : c.beginCall blocking name args target timeout fits = some c') :
    c.sender = none ∧ c.reqseq + 1 < 2 ^ 31 ∧
    ((fits = false ∧ c' = c.ask name args target timeout) ∨
      (blocking = false ∧ c' = (c.ask name args target timeout).enlist false) ∨
      (blocking = true ∧ fits = true ∧
        c' = ((c.ask name args target timeout).enlist true).setCall (c.reqseq + 1) .sending)) := by
  unfold beginCall at hc
  split at hc
  · cases hc
  · rename_i hbound
    rw [not_or, not_not, ge_iff_le, Nat.not_le] at hbound
    refine ⟨hbound.1, hbound.2, ?_⟩
    dsimp only at hc
    split at hc
    · rename_i hfits
      cases blocking with
      | false =>
        cases hc
        exact .inr (.inl ⟨rfl, rfl⟩)
      | true =>
        cases hc
        exact .inr (.inr ⟨rfl, hfits, rfl⟩)
    · rename_i hfits
      cases hc
      exact .inl ⟨Bool.eq_false_iff.mpr hfits, rfl⟩

theorem send_cases {ok : Bool} (hc : c.send ok = some c') : ∃ k, c.sender = some k ∧
    ((c.calls k = some .sending ∧
        c' = ({ c with sender := none } : Client).setCall k (if ok then .checking else .unsent)) ∨
      c' = { c with sender := none }) := by
  unfold send at hc
  split at hc
  · cases hc
  · rename_i k hk
    refine ⟨k, hk, ?_⟩
    split at hc
    · cases hc
    · dsimp only at hc
      split at hc
      · rename_i hsending
        cases hc
        exact .inl ⟨hsending, rfl⟩
      · cases hc
        exact .inr rfl

theorem check_cases (hc : c.check key = some c') : ∃ p, c.calls key = some .checking ∧
    c.entry key = some p ∧
    ((p.id = 0 ∧ c' = c.leave key p.rcode p.result) ∨
      (p.id ≠ 0 ∧ c.connClosed = true ∧ c' = c.leave key c.closeReason p.result) ∨
      (p.id ≠ 0 ∧ c.connClosed = false ∧ c' = c.setCall key .waiting)) := by
  unfold check at hc
  split at hc
  · rename_i p hcall hentry
    refine ⟨p, hcall, hentry, ?_⟩
    split at hc
    · rename_i hid
      cases hc
      exact .inl ⟨hid, rfl⟩
    · rename_i hid
      split at hc
      · rename_i hclosed
        cases hc
        exact .inr (.inl ⟨hid, hclosed, rfl⟩)
      · rename_i hclosed
        cases hc
        exact .inr (.inr ⟨hid, Bool.eq_false_iff.mpr hclosed, rfl⟩)
  · cases hc

theorem timeout_cases (hc : c.timeout key = some c') : ∃ p, c.calls key = some .expired ∧
    c.entry key = some p ∧ c' = c.leave key cliEtimeout p.result := by
  unfold timeout at hc
  split at hc
  · rename_i p hcall hentry
    cases hc
    exact ⟨p, hcall, hentry, rfl⟩
  · cases hc

theorem wake_cases (hc : c.step (.wake key) = some c') :
    c.calls key = some .waiting ∧ c' = c.setCall key .checking := by
  simp only [Client.step] at hc
  split at hc
  · cases hc
    exact ⟨‹_›, rfl⟩
  · cases hc

theorem expire_cases (hc : c.step (.expire key) = some c') :
    c.calls key = some .waiting ∧ c' = c.setCall key .expired := by
  simp only [Client.step] at hc
  split at hc
  · cases hc
    exact ⟨‹_›, rfl⟩
  · cases hc

theorem beginClose_cases {err : Word} (hc : c.step (.beginClose err) = some c') :
    err ∈ closeReasons ∧ c' = { c with closers := c.closers ++ [err] } := by
  simp only [Client.step] at hc
  split at hc
  · cases hc
  · rename_i hok
    cases hc
    exact ⟨not_not.mp fun hne => hok (.inr hne), rfl⟩

theorem recvReply_cases {caps : Caps} {frame : Nat} (hc : c.recvReply caps frame = some c') :
    ∃ id rescode response, ResponseParser.parseReply caps = some (id, rescode, response) ∧
      c' = c.recordReply id rescode response frame := by
  obtain ⟨⟨id, rescode, response⟩, hparse, rfl⟩ := Option.map_eq_some_iff.mp hc
  exact ⟨id, rescode, response, hparse, rfl⟩

theorem Wf.beginCall {blocking fits : Bool} {name target : String} {args : CapsPtr} {timeout : Word}
    (h : Wf c) (hc : c.beginCall blocking name args target timeout fits = some c') : Wf c' := by
  obtain ⟨-, hseq, hcases⟩ := beginCall_cases hc
  have hask := (h.ask hseq : Wf (c.ask name args target timeout))
  have hnew (b : Bool) : Wf ((c.ask name args target timeout).enlist b) := by
    refine hask.enlist (Nat.succ_pos _) ?_ (h.recorded_fresh (Nat.lt_succ_self _)) ?_
    · intro p hp
      have hle := (h.pending p hp).2.1
      change p.key ≠ c.reqseq + 1
      omega
    · exact h.calls_fresh (Nat.lt_succ_self _)
  obtain ⟨-, rfl⟩ | ⟨-, rfl⟩ | ⟨-, -, rfl⟩ := hcases
  · exact hask
  · exact hnew false
  · exact (hnew true).setCall (Nat.le_refl _) nofun

theorem sent_ne_returned {ok : Bool} (retcode : Word) (reply : Option Response) :
    (if ok then CallPc.checking else .unsent) ≠ .returned retcode reply := by
  cases ok <;> nofun

theorem Wf.send {ok : Bool} (h : Wf c) (hc : c.send ok = some c') : Wf c' := by
  have hsame : Wf { c with sender := none } :=
    ⟨h.seq, h.keys, h.pending, h.calls, h.gone, h.completed, h.reason, h.reasons⟩
  obtain ⟨k, hk, ⟨hsending, rfl⟩ | rfl⟩ := send_cases hc
  · exact hsame.setCall (h.calls k _ hsending) sent_ne_returned
  · exact hsame

/-- A reply finds no entry, or the entry of the call it is for, or, with the id 0, an entry that has
its reply already. -/
theorem recordReply_cases (h : Wf c) (id rescode : Word) (response : Option Response)
    (frame : Nat) :
    c.recordReply id rescode response frame = c ∨
    ∃ p ∈ c.pendingRequests, ∃ l, p.id = id ∧ (l.map PendingRequest.key).Nodup ∧
      (∀ q ∈ l, (q ∈ c.pendingRequests ∧ q.key ≠ p.key) ∨
        (q.key = p.key ∧ ∃ q' ∈ c.pendingRequests, q'.key = p.key ∧
          q = q'.answer rescode response)) ∧
      ((id = 0 ∧ c.recorded p.key ≠ none ∧
          c.recordReply id rescode response frame = { c with pendingRequests := l }) ∨
        (id ≠ 0 ∧ c.recorded p.key = none ∧
          c.recordReply id rescode response frame = { c with
            completions := c.completions ++ [⟨p.key, rescode, response, frame⟩]
            pendingRequests := l })) := by
  unfold recordReply
  split
  · exact .inl rfl
  · rename_i p hfind
    have hp := List.mem_of_find?_eq_some hfind
    have hmatch := List.find?_some hfind
    have hpid : p.id = id := beq_iff_eq.mp hmatch
    right
    -- whether the entry is changed or erased
    obtain ⟨l, hl, hkeys, hentries⟩ : ∃ l, (∀ d : Client, d.pendingRequests = c.pendingRequests →
        (if p.blocking then
          { d with pendingRequests := d.pendingRequests.map fun q =>
              if q.key = p.key then
                { q with id := 0, rcode := rescode,
                         result := if rescode = cliSuccess then response else q.result }
              else q }
        else { d with pendingRequests := d.pendingRequests.filter (·.key != p.key) }) =
          { d with pendingRequests := l }) ∧ (l.map PendingRequest.key).Nodup ∧
        ∀ q ∈ l, (q ∈ c.pendingRequests ∧ q.key ≠ p.key) ∨
          (q.key = p.key ∧ ∃ q' ∈ c.pendingRequests, q'.key = p.key ∧
            q = q'.answer rescode response) := by
      by_cases hblocking : p.blocking = true
      · refine ⟨c.pendingRequests.map fun q => if q.key = p.key then
          q.answer rescode response else q, ?_, ?_, ?_⟩
        · intro d hd
          rw [if_pos hblocking, hd]
          rfl
        · have hmap : (c.pendingRequests.map fun q => if q.key = p.key then
              q.answer rescode response else q).map PendingRequest.key =
                c.pendingRequests.map PendingRequest.key := by
            rw [List.map_map]
            apply List.map_congr_left
            intro q _
            simp only [Function.comp]
            split <;> rfl
          rw [hmap]
          exact h.keys
        · intro q hq
          obtain ⟨q', hq', rfl⟩ := List.mem_map.mp hq
          by_cases hkey : q'.key = p.key
          · rw [if_pos hkey]
            exact .inr ⟨hkey, q', hq', hkey, rfl⟩
          · rw [if_neg hkey]
            exact .inl ⟨hq', hkey⟩
      · refine ⟨c.pendingRequests.filter (·.key != p.key), ?_, ?_, ?_⟩
        · intro d hd
          rw [if_neg hblocking, hd]
        · exact h.keys.sublist (List.filter_sublist.map _)
        · intro q hq
          obtain ⟨hq, hne⟩ := List.mem_filter.mp hq
          exact .inl ⟨hq, bne_iff_ne.mp hne⟩
    refine ⟨p, hp, l, hpid, hkeys, hentries, ?_⟩
    have hstep := hl { c with completions := c.completions ++
      if id = 0 then [] else [⟨p.key, rescode, response, frame⟩] } rfl
    by_cases hid : id = 0
    · refine .inl ⟨hid, (h.id_zero_iff hp).mp (hpid.trans hid), ?_⟩
      refine hstep.trans ?_
      simp only [if_pos hid, List.append_nil]
    · -- an entry with a nonzero id has no reply yet
      refine .inr ⟨hid, not_not.mp fun hne => hid (hpid.symm.trans ((h.id_zero_iff hp).mpr hne)), ?_⟩
      refine hstep.trans ?_
      simp only [if_neg hid]

theorem Wf.recordReply (h : Wf c) (id rescode : Word) (response : Option Response) (frame : Nat) :
    Wf (c.recordReply id rescode response frame) := by
  obtain heq | ⟨p, hp, l, hpid, hkeys, hl, hcases⟩ := recordReply_cases h id rescode response frame
  · rw [heq]
    exact h
  obtain ⟨hpos, hle, -⟩ := h.pending p hp
  have hgone (k : Nat) (retcode : Word) (reply : Option Response)
      (hk : c.calls k = some (.returned retcode reply)) : ∀ q ∈ l, q.key ≠ k := by
    intro q hq
    obtain ⟨hmem, -⟩ | ⟨heq, -⟩ := hl q hq
    · exact h.gone k retcode reply hk q hmem
    · rw [heq]
      exact h.gone k retcode reply hk p hp
  obtain ⟨-, hrec, heq⟩ | ⟨-, hnone, heq⟩ := hcases
  · rw [heq]
    refine ⟨h.seq, hkeys, ?_, h.calls, hgone, h.completed, h.reason, h.reasons⟩
    intro q hq
    obtain ⟨hmem, -⟩ | ⟨hkey, q', -, -, rfl⟩ := hl q hq
    · exact h.pending q hmem
    · obtain ⟨x, hx⟩ := Option.ne_none_iff_exists'.mp hrec
      refine ⟨?_, ?_, ?_⟩
      · rw [hkey]
        exact hpos
      · rw [hkey]
        exact hle
      · change Marked (c.recorded _) _
        rw [hkey, hx]
        rfl
  · rw [heq]
    refine ⟨h.seq, hkeys, ?_, h.calls, hgone, ?_, h.reason, h.reasons⟩
    · intro q hq
      rw [recorded_append _ q.key rfl hnone]
      obtain ⟨hmem, hne⟩ | ⟨hkey, q', -, -, rfl⟩ := hl q hq
      · rw [if_neg hne]
        exact h.pending q hmem
      · rw [if_pos hkey]
        refine ⟨?_, ?_, rfl⟩
        · rw [hkey]
          exact hpos
        · rw [hkey]
          exact hle
    · intro y hy
      obtain hy | hy := List.mem_append.mp hy
      · exact h.completed y hy
      · rw [List.mem_singleton.mp hy]
        exact hle

theorem Wf.closeSection (h : Wf c) {err : Word} (herr : err ∈ closeReasons) :
    Wf (c.closeSection err) := by
  refine ⟨h.seq, h.keys.sublist (List.filter_sublist.map _), ?_, h.calls, ?_, h.completed,
    .inr herr, h.reasons⟩
  · exact fun p hp => h.pending p (List.mem_filter.mp hp).1
  · exact fun k retcode reply hk p hp => h.gone k retcode reply hk p (List.mem_filter.mp hp).1

theorem Wf.step {act : Action} (h : Wf c) (hc : c.step act = some c') : Wf c' := by
  cases act with
  | beginCall blocking name args target timeout fits => exact h.beginCall hc
  | send ok => exact h.send hc
  | check key =>
    obtain ⟨p, hcall, _, ⟨_, rfl⟩ | ⟨_, _, rfl⟩ | ⟨_, _, rfl⟩⟩ := check_cases hc
    · exact h.leave (h.calls key _ hcall)
    · exact h.leave (h.calls key _ hcall)
    · exact h.setCall (h.calls key _ hcall) nofun
  | wake key =>
    obtain ⟨hcall, rfl⟩ := wake_cases hc
    exact h.setCall (h.calls key _ hcall) nofun
  | expire key =>
    obtain ⟨hcall, rfl⟩ := expire_cases hc
    exact h.setCall (h.calls key _ hcall) nofun
  | timeout key =>
    obtain ⟨p, hcall, _, rfl⟩ := timeout_cases hc
    exact h.leave (h.calls key _ hcall)
  | recvReply caps frame =>
    obtain ⟨id, rescode, response, hparse, rfl⟩ := recvReply_cases hc
    exact h.recordReply id rescode response frame
  | beginClose err =>
    obtain ⟨herr, rfl⟩ := beginClose_cases hc
    refine ⟨h.seq, h.keys, h.pending, h.calls, h.gone, h.completed, h.reason, ?_⟩
    rintro x (hx | hx)
    · obtain hx | hx := List.mem_append.mp hx
      · exact h.reasons x (.inl hx)
      · rw [List.mem_singleton.mp hx]
        exact herr
    · exact h.reasons x (.inr hx)
  | closeConn n =>
    obtain ⟨err, herr, rfl⟩ := Option.map_eq_some_iff.mp hc
    have hmem : err ∈ c.closers := List.mem_of_getElem? herr
    refine ⟨h.seq, h.keys, h.pending, h.calls, h.gone, h.completed, h.reason, ?_⟩
    rintro x (hx | hx)
    · exact h.reasons x (.inl (List.mem_of_mem_eraseIdx hx))
    · obtain hx | hx := List.mem_append.mp hx
      · exact h.reasons x (.inr hx)
      · rw [List.mem_singleton.mp hx]
        exact h.reasons err (.inl hmem)
  | closeSection n =>
    obtain ⟨err, herr, rfl⟩ := Option.map_eq_some_iff.mp hc
    have hmem : err ∈ c.reporters := List.mem_of_getElem? herr
    have hsec := h.closeSection (h.reasons err (.inr hmem))
    refine ⟨hsec.seq, hsec.keys, hsec.pending, hsec.calls, hsec.gone, hsec.completed, hsec.reason, ?_⟩
    rintro x (hx | hx)
    · exact h.reasons x (.inl hx)
    · exact h.reasons x (.inr (List.mem_of_mem_eraseIdx hx))

theorem wf_initial : Wf {} :=
  ⟨by decide, List.nodup_nil, nofun, nofun, nofun, nofun, .inl rfl, nofun⟩

/-- The actions that neither send nor receive. -/
def Action.inner : Action → Bool
  | .send _ => false
  | .recvReply _ _ => false
  | _ => true

theorem step_inner {act : Action} (hin : act.inner = true) (hc : c.step act = some c') :
    c'.completions = c.completions ∧
    ((c'.asked = c.asked ∧ c'.reqseq = c.reqseq ∧ c'.sender = c.sender) ∨
      ∃ r : CallReq, c.sender = none ∧ r.id = BitVec.ofNat 32 (c.reqseq + 1) ∧
        c'.asked = c.asked ++ [r] ∧ c'.reqseq = c.reqseq + 1 ∧
        (c'.sender = none ∨ c'.sender = some (c.reqseq + 1))) := by
  cases act with
  | beginCall blocking name args target timeout fits =>
    obtain ⟨hsender, -, ⟨-, rfl⟩ | ⟨-, rfl⟩ | ⟨-, -, rfl⟩⟩ := beginCall_cases hc
    · exact ⟨rfl, .inr ⟨_, hsender, rfl, rfl, rfl, .inl hsender⟩⟩
    · exact ⟨rfl, .inr ⟨_, hsender, rfl, rfl, rfl, .inr rfl⟩⟩
    · exact ⟨rfl, .inr ⟨_, hsender, rfl, rfl, rfl, .inr rfl⟩⟩
  | send ok => cases hin
  | check key =>
    obtain ⟨p, _, _, ⟨_, rfl⟩ | ⟨_, _, rfl⟩ | ⟨_, _, rfl⟩⟩ := check_cases hc <;>
      exact ⟨rfl, .inl ⟨rfl, rfl, rfl⟩⟩
  | wake key =>
    obtain ⟨_, rfl⟩ := wake_cases hc
    exact ⟨rfl, .inl ⟨rfl, rfl, rfl⟩⟩
  | expire key =>
    obtain ⟨_, rfl⟩ := expire_cases hc
    exact ⟨rfl, .inl ⟨rfl, rfl, rfl⟩⟩
  | timeout key =>
    obtain ⟨p, _, _, rfl⟩ := timeout_cases hc
    exact ⟨rfl, .inl ⟨rfl, rfl, rfl⟩⟩
  | recvReply caps frame => cases hin
  | beginClose err =>
    obtain ⟨_, rfl⟩ := beginClose_cases hc
    exact ⟨rfl, .inl ⟨rfl, rfl, rfl⟩⟩
  | closeConn n =>
    obtain ⟨err, _, rfl⟩ := Option.map_eq_some_iff.mp hc
    exact ⟨rfl, .inl ⟨rfl, rfl, rfl⟩⟩
  | closeSection n =>
    obtain ⟨err, _, rfl⟩ := Option.map_eq_some_iff.mp hc
    exact ⟨rfl, .inl ⟨rfl, rfl, rfl⟩⟩

/-- The ways in which a call gets on. -/
inductive Moves (c : Client) : Action → Nat → CallPc → Prop
  | beginCall {name target : String} {args : CapsPtr} {timeout : Word} :
    Moves c (.beginCall true name args target timeout true) (c.reqseq + 1) .sending
  | send {key : Nat} {ok : Bool} : c.calls key = some .sending →
    Moves c (.send ok) key (if ok then .checking else .unsent)
  | wait {key : Nat} : c.calls key = some .checking → Moves c (.check key) key .waiting
  | replied {key : Nat} {p : PendingRequest} : c.calls key = some .checking →
    c.entry key = some p → p.id = 0 → Moves c (.check key) key (.returned p.rcode p.result)
  | closed {key : Nat} {p : PendingRequest} : c.calls key = some .checking →
    c.entry key = some p → p.id ≠ 0 → c.connClosed = true →
    Moves c (.check key) key (.returned c.closeReason p.result)
  | wake {key : Nat} : c.calls key = some .waiting → Moves c (.wake key) key .checking
  | expire {key : Nat} : c.calls key = some .waiting → Moves c (.expire key) key .expired
  | timeout {key : Nat} {reply : Option Response} : c.calls key = some .expired →
    Moves c (.timeout key) key (.returned cliEtimeout reply)

theorem setCall_calls (c : Client) (key k : Nat) (pc : CallPc) :
    (c.setCall key pc).calls k = if k = key then some pc else c.calls k := by
  simp [setCall, Function.update_apply]

theorem recordReply_calls (c : Client) (id rescode : Word) (response : Option Response)
    (frame : Nat) : (c.recordReply id rescode response frame).calls = c.calls := by
  unfold recordReply
  split
  · rfl
  · dsimp only
    split <;> rfl

theorem moves_of_setCall {act : Action} {k : Nat} {pc : CallPc}
    (hcalls : c'.calls = (c.setCall k pc).calls) (hmove : Moves c act k pc) (key : Nat) :
    c'.calls key = c.calls key ∨ ∃ pc, Moves c act key pc ∧ c'.calls key = some pc := by
  rw [hcalls, setCall_calls]
  by_cases hkey : key = k
  · subst hkey
    rw [if_pos rfl]
    exact .inr ⟨pc, hmove, rfl⟩
  · rw [if_neg hkey]
    exact .inl rfl

/-- An action leaves a call alone, or the call gets on. -/
theorem step_moves {act : Action} (hc : c.step act = some c') (key : Nat) :
    c'.calls key = c.calls key ∨ ∃ pc, Moves c act key pc ∧ c'.calls key = some pc := by
  cases act with
  | beginCall blocking name args target timeout fits =>
    obtain ⟨-, -, ⟨-, rfl⟩ | ⟨-, rfl⟩ | ⟨rfl, rfl, rfl⟩⟩ := beginCall_cases hc
    · exact .inl rfl
    · exact .inl rfl
    · exact moves_of_setCall rfl .beginCall key
  | send ok =>
    obtain ⟨k, -, ⟨hsending, rfl⟩ | rfl⟩ := send_cases hc
    · exact moves_of_setCall rfl (.send hsending) key
    · exact .inl rfl
  | check k =>
    obtain ⟨p, hcall, hentry, ⟨hid, rfl⟩ | ⟨hid, hclosed, rfl⟩ | ⟨-, -, rfl⟩⟩ := check_cases hc
    · exact moves_of_setCall rfl (.replied hcall hentry hid) key
    · exact moves_of_setCall rfl (.closed hcall hentry hid hclosed) key
    · exact moves_of_setCall rfl (.wait hcall) key
  | wake k =>
    obtain ⟨hcall, rfl⟩ := wake_cases hc
    exact moves_of_setCall rfl (.wake hcall) key
  | expire k =>
    obtain ⟨hcall, rfl⟩ := expire_cases hc
    exact moves_of_setCall rfl (.expire hcall) key
  | timeout k =>
    obtain ⟨p, hcall, -, rfl⟩ := timeout_cases hc
    exact moves_of_setCall rfl (.timeout hcall) key
  | recvReply caps frame =>
    obtain ⟨id, rescode, response, -, rfl⟩ := recvReply_cases hc
    rw [recordReply_calls]
    exact .inl rfl
  | beginClose err =>
    obtain ⟨-, rfl⟩ := beginClose_cases hc
    exact .inl rfl
  | closeConn n =>
    obtain ⟨err, -, rfl⟩ := Option.map_eq_some_iff.mp hc
    exact .inl rfl
  | closeSection n =>
    obtain ⟨err, -, rfl⟩ := Option.map_eq_some_iff.mp hc
    exact .inl rfl

theorem Moves.not_returned {act : Action} {pc : CallPc} {retcode : Word} {reply : Option Response}
    (hmove : Moves c act key pc) (h : Wf c) : c.calls key ≠ some (.returned retcode reply) := by
  intro hret
  cases hmove with
  | beginCall =>
    have hle := h.calls _ _ hret
    omega
  | send hold | wait hold | replied hold | closed hold | wake hold | expire hold | timeout hold =>
    cases hret.symm.trans hold

theorem returned_step {act : Action} {k : Nat} {retcode : Word} {reply : Option Response} (h : Wf c)
    (hc : c.step act = some c') (hk : c.calls k = some (.returned retcode reply)) :
    c'.calls k = some (.returned retcode reply) := by
  obtain hsame | ⟨pc, hmove, -⟩ := step_moves hc k
  · rw [hsame]
    exact hk
  · exact absurd hk (hmove.not_returned h)

theorem send_rest {ok : Bool} (hc : c.step (.send ok) = some c') : c'.asked = c.asked ∧
    c'.reqseq = c.reqseq ∧ c'.sender = none ∧ c'.completions = c.completions := by
  obtain ⟨k, _, ⟨_, rfl⟩ | rfl⟩ := send_cases hc
  · exact ⟨rfl, rfl, rfl, rfl⟩
  · exact ⟨rfl, rfl, rfl, rfl⟩

theorem recvReply_rest {caps : Caps} {frame : Nat} (h : Wf c)
    (hc : c.step (.recvReply caps frame) = some c') :
    c'.asked = c.asked ∧ c'.reqseq = c.reqseq ∧ c'.sender = c.sender ∧
    (c'.completions = c.completions ∨
      ∃ x, c'.completions = c.completions ++ [x] ∧ x.frame = frame ∧
        ResponseParser.parseReply caps = some (BitVec.ofNat 32 x.key, x.rescode, x.response) ∧
        ∀ retcode reply, c.calls x.key ≠ some (.returned retcode reply)) := by
  obtain ⟨id, rescode, response, hparse, rfl⟩ := recvReply_cases hc
  obtain heq | ⟨p, hp, l, hpid, -, -, ⟨-, -, heq⟩ | ⟨-, hnone, heq⟩⟩ :=
    recordReply_cases h id rescode response frame <;> rw [heq]
  · exact ⟨rfl, rfl, rfl, .inl rfl⟩
  · exact ⟨rfl, rfl, rfl, .inl rfl⟩
  · refine ⟨rfl, rfl, rfl, .inr ⟨_, rfl, rfl, ?_, ?_⟩⟩
    · rw [hparse, ← hpid, h.id_of_unrecorded hp hnone]
    · intro retcode reply hk
      exact h.gone p.key retcode reply hk p hp rfl

/-- No reply with the id 0 arrives while an entry has its reply and its call has not left. -/
def Untouched (c : Client) : Action → Prop
  | .recvReply caps _ => ∀ rescode response,
    ResponseParser.parseReply caps = some (0, rescode, response) → ∀ p ∈ c.pendingRequests, p.id ≠ 0
  | _ => True

theorem untouched_of_inner {act : Action} (hin : act.inner = true) : Untouched c act := by
  cases act with
  | recvReply caps frame => cases hin
  | _ => trivial

theorem Kept.of_subset (h : Kept c) (hsub : ∀ p ∈ c'.pendingRequests, p ∈ c.pendingRequests)
    (hrec : c'.completions = c.completions) : Kept c' := by
  intro p hp
  rw [recorded, hrec]
  exact h p (hsub p hp)

theorem Kept.enlist (h : Kept c) {blocking : Bool} (hnone : c.recorded c.reqseq = none) :
    Kept (c.enlist blocking) := by
  intro p hp
  obtain hp | hp := List.mem_append.mp hp
  · exact h p hp
  · rw [List.mem_singleton.mp hp]
    change Shows (c.recorded c.reqseq) _
    rw [hnone]
    exact ⟨rfl, rfl⟩

theorem Kept.recvReply {caps : Caps} {frame : Nat} (h : Kept c) (hwf : Wf c)
    (hc : c.step (.recvReply caps frame) = some c') (huntouched : Untouched c (.recvReply caps frame)) :
    Kept c' := by
  obtain ⟨id, rescode, response, hparse, rfl⟩ := recvReply_cases hc
  obtain heq | ⟨p, hp, l, hpid, -, hl, ⟨rfl, -, -⟩ | ⟨-, hnone, heq⟩⟩ :=
    recordReply_cases hwf id rescode response frame
  · rw [heq]
    exact h
  · exact absurd hpid (huntouched rescode response hparse p hp)
  · rw [heq]
    intro q hq
    rw [recorded_append _ q.key rfl hnone]
    obtain ⟨hmem, hne⟩ | ⟨hkey, q', hq', hkey', rfl⟩ := hl q hq
    · rw [if_neg hne]
      exact h q hmem
    · have hshows := h q' hq'
      rw [hkey', hnone] at hshows
      rw [if_pos hkey]
      refine ⟨rfl, rfl, ?_, fun hcode => if_pos hcode⟩
      change (if rescode = cliSuccess then response else q'.result).isSome = true ↔ _
      split
      · exact ResponseParser.parseReply_response hparse
      · rename_i hcode
        rw [hshows.2]
        exact ⟨nofun, fun heq => absurd heq hcode⟩

theorem Kept.step {act : Action} (h : Kept c) (hwf : Wf c) (hc : c.step act = some c')
    (huntouched : Untouched c act) : Kept c' := by
  cases act with
  | beginCall blocking name args target timeout fits =>
    have hnew (b : Bool) : Kept ((c.ask name args target timeout).enlist b) :=
      Kept.enlist (c := c.ask name args target timeout) h
        (hwf.recorded_fresh (Nat.lt_succ_self _))
    obtain ⟨-, -, ⟨-, rfl⟩ | ⟨-, rfl⟩ | ⟨-, -, rfl⟩⟩ := beginCall_cases hc
    · exact h
    · exact hnew false
    · exact hnew true
  | send ok =>
    obtain ⟨k, -, ⟨-, rfl⟩ | rfl⟩ := send_cases hc
    · exact h
    · exact h
  | check k =>
    obtain ⟨p, -, -, ⟨-, rfl⟩ | ⟨-, -, rfl⟩ | ⟨-, -, rfl⟩⟩ := check_cases hc
    · exact h.of_subset (fun q hq => (List.mem_filter.mp hq).1) rfl
    · exact h.of_subset (fun q hq => (List.mem_filter.mp hq).1) rfl
    · exact h
  | wake k =>
    obtain ⟨-, rfl⟩ := wake_cases hc
    exact h
  | expire k =>
    obtain ⟨-, rfl⟩ := expire_cases hc
    exact h
  | timeout k =>
    obtain ⟨p, -, -, rfl⟩ := timeout_cases hc
    exact h.of_subset (fun q hq => (List.mem_filter.mp hq).1) rfl
  | recvReply caps frame => exact h.recvReply hwf hc huntouched
  | beginClose err =>
    obtain ⟨-, rfl⟩ := beginClose_cases hc
    exact h
  | closeConn n =>
    obtain ⟨err, -, rfl⟩ := Option.map_eq_some_iff.mp hc
    exact h
  | closeSection n =>
    obtain ⟨err, -, rfl⟩ := Option.map_eq_some_iff.mp hc
    exact h.of_subset (fun q hq => (List.mem_filter.mp hq).1) rfl

end Client

end Flora
