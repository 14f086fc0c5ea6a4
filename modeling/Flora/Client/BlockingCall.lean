import Flora.Client.Requests

/-! # What a blocking call reports

A blocking call returns the code of the reply that was recorded for it, and otherwise a timeout or
the reason of the close. Two windows break this: between `connection->close()` and the section
that sets `close_reason`, and between the expiry of the wait and the return of the lock. So does a
reply with the id 0, which is written over an entry that has its reply. -/

namespace Flora

open TransitionSystem

namespace Client

variable {c c' : Client} {key : Nat}

/-- The call ended as its record says. -/
def Reports (x : Option Completion) (retcode : Word) (reply : Option Response) : Prop :=
  match x with
  | none => (retcode = cliEtimeout ∨ retcode ∈ closeReasons) ∧ reply = none
  | some x => retcode = x.rescode ∧ (reply.isSome = true ↔ x.rescode = cliSuccess) ∧
    (x.rescode = cliSuccess → reply = x.response)

def Reported (c : Client) : Prop := ∀ key retcode reply,
  c.calls key = some (.returned retcode reply) → Reports (c.recorded key) retcode reply

theorem Reported.setCall (h : Reported c) {pc : CallPc}
    (hpc : ∀ retcode reply, pc ≠ .returned retcode reply) : Reported (c.setCall key pc) := by
  intro k retcode reply hk
  by_cases heq : k = key
  · subst heq
    exact absurd (by simpa [Client.setCall] using hk) (hpc retcode reply)
  · exact h k retcode reply (by simpa [Client.setCall, heq] using hk)

theorem Reported.leave (h : Reported c) {retcode : Word} {reply : Option Response} :
    Reported (c.leave key retcode reply) ↔ Reports (c.recorded key) retcode reply := by
  constructor
  · intro hall
    exact hall key retcode reply (by simp [Client.leave, Client.setCall])
  · intro hrep k retcode' reply' hk
    by_cases heq : k = key
    · subst heq
      have hsame : CallPc.returned retcode reply = .returned retcode' reply' := by
        simpa [Client.leave, Client.setCall] using hk
      cases hsame
      exact hrep
    · exact h k retcode' reply' (by simpa [Client.leave, Client.setCall, heq] using hk)

theorem Reported.recordReply (hr : Reported c) (h : Wf c) (id rescode : Word)
    (response : Option Response) (frame : Nat) :
    Reported (c.recordReply id rescode response frame) := by
  obtain heq | ⟨p, hp, l, -, -, -, ⟨-, -, heq⟩ | ⟨-, hnone, heq⟩⟩ :=
    recordReply_cases h id rescode response frame
  · rw [heq]
    exact hr
  · rw [heq]
    exact hr
  · rw [heq]
    intro k retcode reply hk
    have hne : k ≠ p.key := (h.gone k retcode reply hk p hp).symm
    rw [recorded_append _ k rfl hnone, if_neg hne]
    exact hr k retcode reply hk

/-- The steps at which a blocking call does not run into one of the two windows: it does not find
the connection closed without a reason, and its wait does not expire under a reply. -/
def LeavesInTime (c : Client) : Action → Prop
  | .check key => ∀ p, c.entry key = some p → p.id ≠ 0 → c.connClosed = true → c.closeReason ≠ 0
  | .timeout key => ∀ p, c.entry key = some p → p.id = 0 → p.rcode = cliEtimeout
  | _ => True

theorem check_leave_iff (h : Wf c) (hk : Kept c) (hr : Reported c) {p : PendingRequest}
    (hentry : c.entry key = some p) (hid : p.id ≠ 0) :
    Reported (c.leave key c.closeReason p.result) ↔ c.closeReason ≠ 0 := by
  obtain ⟨hp, rfl⟩ := entry_mem hentry
  have hnone : c.recorded p.key = none :=
    not_not.mp fun hne => hid ((h.id_zero_iff hp).mpr hne)
  have hshows := hk p hp
  rw [hnone] at hshows
  rw [hr.leave, hnone]
  constructor
  · rintro ⟨hreason, -⟩ hzero
    rw [hzero] at hreason
    exact absurd hreason (by decide)
  · intro hne
    exact ⟨.inr (h.reason.resolve_left hne), hshows.2⟩

theorem replied_reports (h : Wf c) (hk : Kept c) {p : PendingRequest} (hentry : c.entry key = some p)
    (hid : p.id = 0) : ∃ x, c.recorded key = some x ∧ Reports (some x) p.rcode p.result := by
  obtain ⟨hp, rfl⟩ := entry_mem hentry
  obtain ⟨x, hx⟩ := Option.ne_none_iff_exists'.mp ((h.id_zero_iff hp).mp hid)
  have hshows := hk p hp
  rw [hx] at hshows
  exact ⟨x, hx, hshows.2⟩

theorem replied_leave (h : Wf c) (hk : Kept c) (hr : Reported c) {p : PendingRequest}
    (hentry : c.entry key = some p) (hid : p.id = 0) :
    Reported (c.leave key p.rcode p.result) := by
  obtain ⟨x, hx, hrep⟩ := replied_reports h hk hentry hid
  rw [hr.leave, hx]
  exact hrep

theorem timeout_leave_iff (h : Wf c) (hk : Kept c) (hr : Reported c) {p : PendingRequest}
    (hentry : c.entry key = some p) :
    Reported (c.leave key cliEtimeout p.result) ↔ (p.id = 0 → p.rcode = cliEtimeout) := by
  by_cases hid : p.id = 0
  · have hreplied := replied_leave h hk hr hentry hid
    obtain ⟨hp, rfl⟩ := entry_mem hentry
    obtain ⟨x, hx⟩ := Option.ne_none_iff_exists'.mp ((h.id_zero_iff hp).mp hid)
    rw [hr.leave, hx] at hreplied
    rw [hr.leave, hx]
    constructor
    · intro hrep _
      exact hreplied.1.trans hrep.1.symm
    · intro hcode
      exact ⟨(hcode hid).symm.trans hreplied.1, hreplied.2⟩
  · obtain ⟨hp, rfl⟩ := entry_mem hentry
    have hnone : c.recorded p.key = none :=
      not_not.mp fun hne => hid ((h.id_zero_iff hp).mpr hne)
    have hshows := hk p hp
    rw [hnone] at hshows
    rw [hr.leave, hnone]
    exact ⟨fun _ hzero => absurd hzero hid, fun _ => ⟨.inl rfl, hshows.2⟩⟩

theorem reported_step_iff {act : Action} (h : Wf c) (hk : Kept c) (hr : Reported c)
    (hc : c.step act = some c') : Reported c' ↔ LeavesInTime c act := by
  cases act with
  | beginCall blocking name args target timeout fits =>
    obtain ⟨-, -, ⟨-, rfl⟩ | ⟨-, rfl⟩ | ⟨-, -, rfl⟩⟩ := beginCall_cases hc
    · exact ⟨fun _ => trivial, fun _ => hr⟩
    · exact ⟨fun _ => trivial, fun _ => hr⟩
    · have hnew : Reported ((c.ask name args target timeout).enlist true) := hr
      exact ⟨fun _ => trivial, fun _ => hnew.setCall nofun⟩
  | send ok =>
    have hsame : Reported { c with sender := none } := hr
    obtain ⟨k, _, ⟨_, rfl⟩ | rfl⟩ := send_cases hc
    · exact ⟨fun _ => trivial, fun _ => hsame.setCall sent_ne_returned⟩
    · exact ⟨fun _ => trivial, fun _ => hsame⟩
  | check key =>
    obtain ⟨p, _, hentry, ⟨hid, rfl⟩ | ⟨hid, hclosed, rfl⟩ | ⟨hid, hclosed, rfl⟩⟩ := check_cases hc
    · refine ⟨fun _ q hq hne => ?_, fun _ => replied_leave h hk hr hentry hid⟩
      cases hentry.symm.trans hq
      exact absurd hid hne
    · rw [check_leave_iff h hk hr hentry hid]
      constructor
      · exact fun hreason _ _ _ _ => hreason
      · exact fun hin => hin p hentry hid hclosed
    · refine ⟨fun _ q _ _ hcl => ?_, fun _ => hr.setCall nofun⟩
      rw [hclosed] at hcl
      cases hcl
  | wake key =>
    obtain ⟨_, rfl⟩ := wake_cases hc
    exact ⟨fun _ => trivial, fun _ => hr.setCall nofun⟩
  | expire key =>
    obtain ⟨_, rfl⟩ := expire_cases hc
    exact ⟨fun _ => trivial, fun _ => hr.setCall nofun⟩
  | timeout key =>
    obtain ⟨p, _, hentry, rfl⟩ := timeout_cases hc
    rw [timeout_leave_iff h hk hr hentry]
    constructor
    · intro hcode q hq
      cases hentry.symm.trans hq
      exact hcode
    · exact fun hin => hin p hentry
  | recvReply caps frame =>
    obtain ⟨id, rescode, response, -, rfl⟩ := recvReply_cases hc
    exact ⟨fun _ => trivial, fun _ => hr.recordReply h id rescode response frame⟩
  | beginClose err =>
    obtain ⟨_, rfl⟩ := beginClose_cases hc
    exact ⟨fun _ => trivial, fun _ => hr⟩
  | closeConn n =>
    obtain ⟨err, _, rfl⟩ := Option.map_eq_some_iff.mp hc
    exact ⟨fun _ => trivial, fun _ => hr⟩
  | closeSection n =>
    obtain ⟨err, _, rfl⟩ := Option.map_eq_some_iff.mp hc
    exact ⟨fun _ => trivial, fun _ => hr⟩

/-- Along a run in which no reply with the id 0 meets an entry that has its reply, every blocking
call reports what was recorded for it exactly when all calls leave their loop in time. -/
theorem reported_run_iff {as : List Action} (h : (system.guard Untouched).Run {} as c) :
    (∀ bs c', bs <+: as → execute step {} bs = some c' → Reported c') ↔
      (system.guard LeavesInTime).Run {} as c := by
  apply execute_guard_iff_of (I := fun c => Wf c ∧ Kept c ∧ Reported c)
  · exact fun s hs => hs.2.2
  · rintro s t act - ⟨hwf, hkept, hrep⟩ huntouched hst hin
    exact ⟨hwf.step hst, hkept.step hwf hst huntouched,
      (reported_step_iff hwf hkept hrep hst).mpr hin⟩
  · rintro s t act - ⟨hwf, hkept, hrep⟩ - hst hrep'
    exact (reported_step_iff hwf hkept hrep hst).mp hrep'
  · exact ⟨wf_initial, nofun, nofun⟩
  · exact h

/-- A call that waits, is answered and returns. -/
def sampleCall : List Action :=
  [.beginCall true "m" none "s" 0 true, .send true, .check 1,
    .recvReply (ResponseSerializer.serializeReply 1 cliSuccess (some ⟨5, none, "s"⟩) 0).tail 0,
    .wake 1, .check 1]

theorem sampleCall_untouched : (system.guard Untouched).Run {} sampleCall
    ((execute step {} sampleCall).getD {}) := by
  refine .cons ⟨trivial, rfl⟩ (.cons ⟨trivial, rfl⟩ (.cons ⟨trivial, rfl⟩ (.cons ⟨?_, rfl⟩
    (.cons ⟨trivial, rfl⟩ (.cons ⟨trivial, rfl⟩ (.nil _))))))
  intro rescode response hparse
  cases hparse

theorem reported_run_answered : (execute step {} sampleCall).isSome = true ∧
    ∀ bs c', bs <+: sampleCall → execute step {} bs = some c' → Reported c' := by
  refine ⟨rfl, (reported_run_iff sampleCall_untouched).mpr (.cons ⟨trivial, rfl⟩
    (.cons ⟨trivial, rfl⟩ (.cons ⟨?_, rfl⟩ (.cons ⟨trivial, rfl⟩ (.cons ⟨trivial, rfl⟩
      (.cons ⟨?_, rfl⟩ (.nil _)))))))⟩
  · intro p _ _ hclosed
    cases hclosed
  · intro p _ _ hclosed
    cases hclosed

/-- A reply with the id 0 behind the one to the call changes what the call returns. -/
example : ((execute step {} [.beginCall true "m" none "s" 0 true, .send true,
    .recvReply (ResponseSerializer.serializeReply 1 cliSuccess (some ⟨5, none, "s"⟩) 0).tail 0,
    .recvReply (ResponseSerializer.serializeReply 0 cliEtimeout none 0).tail 1,
    .check 1]).map fun c => c.calls 1) =
      some (some (.returned cliEtimeout (some ⟨5, none, "s"⟩))) := rfl

/-- A call that looks at the connection between `connection->close()` and the section that sets
`close_reason` returns `FLORA_CLI_SUCCESS` without a reply. -/
theorem reported_fails_closing : ¬ ∀ c, system.Reachable c → Reported c := by
  intro h
  have hrun : execute step {} [.beginCall true "m" none "s" 0 true, .send true,
    .beginClose cliEclosed, .closeConn 0, .check 1] = some _ := rfl
  have hrep := h _ (execute_reachable rfl hrun) 1 cliSuccess none rfl
  exact absurd hrep.1 (by decide)

end Client

end Flora
