import Flora.Client.BlockingCall

/-! # Entries of blocking calls

A blocking call puts an entry with a pointer to its caller's `Response` into `pending_requests` and
erases it where its loop is left. The return between the two, after a send that failed, leaves the
entry behind. -/

namespace Flora

open TransitionSystem

def CallPc.active : CallPc → Bool
  | .returned _ _ => false
  | .unsent => false
  | _ => true

namespace Client

variable {c c' : Client} {key : Nat}

/-- `key` is a blocking call that has made its entry and has not returned. -/
def active (c : Client) (key : Nat) : Bool := (c.calls key).any CallPc.active

def pointers (c : Client) : List Nat :=
  (c.pendingRequests.filter (·.blocking)).map PendingRequest.key

/-- The entries with a `result` are those of the blocking calls that have not returned, one each. -/
def Traceless (c : Client) : Prop := ∀ key, c.pointers.count key = if c.active key then 1 else 0

theorem active_setCall (c : Client) (key : Nat) (pc : CallPc) (k : Nat) :
    (c.setCall key pc).active k = if k = key then pc.active else c.active k := by
  unfold active Client.setCall
  dsimp only
  by_cases hk : k = key
  · subst hk
    rw [Function.update_self, if_pos rfl]
    rfl
  · rw [Function.update_of_ne hk, if_neg hk]

theorem active_of_calls {pc : CallPc} (h : c.calls key = some pc) : c.active key = pc.active := by
  rw [active, h]
  rfl

theorem pointers_leave (c : Client) (key : Nat) (retcode : Word) (reply : Option Response) :
    (c.leave key retcode reply).pointers = c.pointers.filter (· != key) := by
  change ((c.pendingRequests.filter (·.key != key)).filter (·.blocking)).map _ = _
  rw [pointers, List.filter_map, List.filter_filter, List.filter_filter]
  simp only [Function.comp_def, Bool.and_comm]

/-- Replies change no pointer: an entry that is erased has none. -/
theorem pointers_recordReply (h : Wf c) (id rescode : Word) (response : Option Response)
    (frame : Nat) : (c.recordReply id rescode response frame).pointers = c.pointers := by
  unfold recordReply
  split
  · rfl
  · rename_i p hfind
    have hp := List.mem_of_find?_eq_some hfind
    dsimp only
    split
    · unfold pointers
      rw [List.filter_map, List.map_map]
      congr 1
      · funext q
        dsimp only [Function.comp]
        split <;> rfl
      · congr 1
        funext q
        dsimp only [Function.comp]
        split <;> rfl
    · rename_i hasync
      unfold pointers
      rw [List.filter_filter]
      congr 1
      refine List.filter_congr fun q hq => ?_
      by_cases hkey : q.key = p.key
      · have heq : q = p := List.inj_on_of_nodup_map h.keys hq hp hkey
        rw [heq, Bool.eq_false_iff.mpr hasync, Bool.false_and]
      · rw [bne_iff_ne.mpr hkey, Bool.and_true]

theorem Traceless.setCall (h : Traceless c) {pc pc' : CallPc} (hcall : c.calls key = some pc)
    (hpc : pc'.active = pc.active) : Traceless (c.setCall key pc') := by
  intro k
  rw [active_setCall, hpc, ← active_of_calls hcall]
  split
  · rename_i heq
    subst heq
    exact h k
  · exact h k

theorem Traceless.leave (h : Traceless c) (retcode : Word) (reply : Option Response) :
    Traceless (c.leave key retcode reply) := by
  intro k
  have hactive : (c.leave key retcode reply).active k =
      if k = key then false else c.active k := active_setCall c key (.returned retcode reply) k
  rw [pointers_leave, hactive]
  by_cases hk : k = key
  · subst hk
    rw [if_pos rfl, if_neg Bool.false_ne_true, List.count_eq_zero]
    exact fun hmem => absurd rfl (bne_iff_ne.mp (List.mem_filter.mp hmem).2)
  · rw [if_neg hk, List.count_filter (p := (· != key)) (bne_iff_ne.mpr hk)]
    exact h k

/-- A new blocking call: its key is fresh, so it has no entry yet. -/
theorem Traceless.begin (h : Traceless c) (hwf : Wf c) (name : String) (args : CapsPtr)
    (target : String) (timeout : Word) : Traceless
      (((c.ask name args target timeout).enlist true).setCall (c.reqseq + 1) .sending) := by
  intro k
  have hpointers : (((c.ask name args target timeout).enlist true).setCall (c.reqseq + 1)
      .sending).pointers = c.pointers ++ [c.reqseq + 1] := by
    change ((c.pendingRequests ++ [_]).filter _).map _ = _
    rw [List.filter_append, List.map_append]
    rfl
  have hfresh := h (c.reqseq + 1)
  rw [active, hwf.calls_fresh (Nat.lt_succ_self _)] at hfresh
  have hk := h k
  rw [active_setCall, hpointers, List.count_append, List.count_singleton]
  by_cases heq : k = c.reqseq + 1
  · subst heq
    rw [hfresh, if_pos rfl, beq_self_eq_true]
    rfl
  · rw [if_neg heq, beq_false_of_ne (Ne.symm heq)]
    exact hk

/-- No blocking call returns because its request was not sent. -/
def Sends (c : Client) : Action → Prop
  | .send ok => ok = false → ∀ key, c.sender = some key → c.calls key ≠ some .sending
  | _ => True

theorem traceless_send_iff {ok : Bool} (h : Traceless c) (hc : c.send ok = some c') :
    Traceless c' ↔ Sends c (.send ok) := by
  have hsame : Traceless { c with sender := none } := h
  obtain ⟨k, hk⟩ : ∃ k, c.sender = some k := by
    obtain ⟨k, hk, -⟩ := send_cases hc
    exact ⟨k, hk⟩
  by_cases hsending : c.calls k = some .sending
  · have hc' : c' = ({ c with sender := none } : Client).setCall k
        (if ok then .checking else .unsent) := by
      unfold send at hc
      simp only [hk] at hc
      split at hc
      · cases hc
      · simp only [hsending] at hc
        exact (Option.some.inj hc).symm
    subst hc'
    cases ok with
    | true => exact ⟨fun _ => nofun, fun _ => hsame.setCall hsending rfl⟩
    | false =>
      constructor
      · intro hleft
        have hold := h k
        have hnew := hleft k
        rw [active_setCall, if_pos rfl] at hnew
        rw [active_of_calls hsending] at hold
        exact absurd (hold.symm.trans hnew) (by decide)
      · exact fun hsends => absurd hsending (hsends rfl k hk)
  · obtain ⟨k', hk', ⟨hbad, -⟩ | rfl⟩ := send_cases hc
    · cases hk.symm.trans hk'
      exact absurd hbad hsending
    · refine ⟨fun _ _ key hkey => ?_, fun _ => hsame⟩
      cases hk.symm.trans hkey
      exact hsending

theorem traceless_step_iff {act : Action} (hwf : Wf c) (h : Traceless c)
    (hc : c.step act = some c') : Traceless c' ↔ Sends c act := by
  cases act with
  | beginCall blocking name args target timeout fits =>
    refine iff_of_true ?_ trivial
    obtain ⟨-, -, ⟨-, rfl⟩ | ⟨-, rfl⟩ | ⟨-, -, rfl⟩⟩ := beginCall_cases hc
    · exact h
    · intro k
      have hpointers : ((c.ask name args target timeout).enlist false).pointers = c.pointers := by
        change ((c.pendingRequests ++ [_]).filter _).map _ = _
        rw [List.filter_append, List.map_append]
        exact List.append_nil _
      rw [hpointers]
      exact h k
    · exact h.begin hwf name args target timeout
  | send ok => exact traceless_send_iff h hc
  | check key =>
    refine iff_of_true ?_ trivial
    obtain ⟨p, hcall, _, ⟨_, rfl⟩ | ⟨_, _, rfl⟩ | ⟨_, _, rfl⟩⟩ := check_cases hc
    · exact h.leave _ _
    · exact h.leave _ _
    · exact h.setCall hcall rfl
  | wake key =>
    obtain ⟨hcall, rfl⟩ := wake_cases hc
    exact iff_of_true (h.setCall hcall rfl) trivial
  | expire key =>
    obtain ⟨hcall, rfl⟩ := expire_cases hc
    exact iff_of_true (h.setCall hcall rfl) trivial
  | timeout key =>
    obtain ⟨p, _, _, rfl⟩ := timeout_cases hc
    exact iff_of_true (h.leave _ _) trivial
  | recvReply caps frame =>
    obtain ⟨id, rescode, response, -, rfl⟩ := recvReply_cases hc
    refine iff_of_true (fun k => ?_) trivial
    rw [pointers_recordReply hwf, active, recordReply_calls]
    exact h k
  | beginClose err =>
    obtain ⟨_, rfl⟩ := beginClose_cases hc
    exact iff_of_true h trivial
  | closeConn n =>
    obtain ⟨err, _, rfl⟩ := Option.map_eq_some_iff.mp hc
    exact iff_of_true h trivial
  | closeSection n =>
    obtain ⟨err, _, rfl⟩ := Option.map_eq_some_iff.mp hc
    refine iff_of_true (fun k => ?_) trivial
    have hpointers : (c.closeSection err).pointers = c.pointers := by
      change ((c.pendingRequests.filter _).filter _).map _ = _
      rw [List.filter_filter]
      simp only [Bool.and_self]
      rfl
    change (c.closeSection err).pointers.count k = _
    rw [hpointers]
    exact h k

/-- Along a run the entries with a `result` are exactly those of the unreturned blocking calls, as
long as no blocking call fails to send its request, and only so long. -/
theorem traceless_run_iff {as : List Action} (h : execute step {} as = some c) :
    (∀ bs c', bs <+: as → execute step {} bs = some c' → Traceless c') ↔
      (system.guard Sends).Run {} as c := by
  apply execute_guard_iff (I := fun c => Wf c ∧ Traceless c)
  · exact fun s hs => hs.2
  · rintro s t act - ⟨hwf, hs⟩ hst hsends
    exact ⟨hwf.step hst, (traceless_step_iff hwf hs hst).mpr hsends⟩
  · rintro s t act - ⟨hwf, hs⟩ hst ht
    exact (traceless_step_iff hwf hs hst).mp ht
  · exact ⟨wf_initial, fun _ => rfl⟩
  · exact h

theorem traceless_run_answered : (execute step {} sampleCall).isSome = true ∧
    ∀ bs c', bs <+: sampleCall → execute step {} bs = some c' → Traceless c' := by
  refine ⟨rfl, (traceless_run_iff rfl).mpr (.cons ⟨trivial, rfl⟩ (.cons ⟨nofun, rfl⟩
    (.cons ⟨trivial, rfl⟩ (.cons ⟨trivial, rfl⟩ (.cons ⟨trivial, rfl⟩ (.cons ⟨trivial, rfl⟩
      (.nil _)))))))⟩

/-- A call whose request is not sent returns `FLORA_CLI_ECONN` and leaves its entry. -/
theorem traceless_fails_unsent : ¬ ∀ c, system.Reachable c → Traceless c := by
  intro h
  have hrun : execute step {} [.beginCall true "m" none "s" 0 true, .send false] = some _ := rfl
  have hleft := h _ (execute_reachable rfl hrun) 1
  exact absurd hleft (by decide)

end Client

end Flora
