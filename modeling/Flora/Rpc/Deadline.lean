import Flora.Client.Waits
import Flora.Dispatcher.Expiry
import Flora.Rpc.Matching

/-! # Who waits longer

The dispatcher grants a call the time it asks for, or the default if it asks for none; the caller
itself waits 200 milliseconds longer than it has asked for. The clients and the service read one
clock. -/

namespace Flora

open TransitionSystem

/-- The caller outwaits the service by the time that was set aside for the transfer. -/
def Outwaits (timeout : Word) : Prop :=
  Dispatcher.grantedInterval timeout + 200 ≤ Client.waitInterval timeout

/-- A timeout is given, and the sum does not wrap around. -/
def PlainTimeout (timeout : Word) : Prop := timeout ≠ 0 ∧ timeout.toNat + 200 < 2 ^ 32

theorem waitInterval_eq (timeout : Word) :
    Client.waitInterval timeout = (timeout.toNat + 200) % 2 ^ 32 := by
  rw [Client.waitInterval, BitVec.toNat_add]
  rfl

theorem outwaits_iff (timeout : Word) : Outwaits timeout ↔ PlainTimeout timeout := by
  have hlt := timeout.isLt
  unfold Outwaits PlainTimeout Dispatcher.grantedInterval
  rw [waitInterval_eq]
  by_cases hzero : timeout = 0
  · subst hzero
    simp [defaultCallTimeout]
  · rw [if_neg hzero]
    refine ⟨fun h => ⟨hzero, by omega⟩, ?_⟩
    rintro ⟨-, hsum⟩
    rw [Nat.mod_eq_of_lt hsum]

theorem waitInterval_of_not_plain {timeout : Word} (h : ¬ PlainTimeout timeout) :
    Client.waitInterval timeout ≤ 200 ∧ 200 ≤ Dispatcher.grantedInterval timeout := by
  have hlt := timeout.isLt
  unfold Dispatcher.grantedInterval
  rw [waitInterval_eq]
  by_cases hzero : timeout = 0
  · subst hzero
    simp [defaultCallTimeout]
  · rw [if_neg hzero]
    have hwrap : ¬ timeout.toNat + 200 < 2 ^ 32 := fun hsum => h ⟨hzero, hsum⟩
    omega

structure TimedNet where
  net : Net := {}
  now : Nat := 0
  waits : AdapterId → Nat → Client.Wait := fun _ _ => {}
  /-- History: when the dispatcher handled each of its calls. -/
  entered : Nat → Nat := fun _ => 0
  /-- History: when the service wrote each of its frames. -/
  written : Nat → Nat := fun _ => 0

namespace TimedNet

structure Action where
  act : Net.Action
  now : Nat

/-- What an action of the service reads from the clock. -/
def clock : Net.Action → Option Nat
  | .service (.loop tp) => some tp
  | .service (.handle now _) => some now
  | _ => none

/-- The first `n` keep their times, and what is new gets the present time. -/
def stamp (times : Nat → Nat) (n now : Nat) : Nat → Nat := fun i => if i < n then times i else now

variable (e : Env) (lib : AdapterId → Bool) (s : TimedNet)

def waitsAfter (now : Nat) : Net.Action → AdapterId → Nat → Client.Wait
  | .client a act =>
    Function.update s.waits a ((s.net.clients a).waitsAfter (s.waits a) now act)
  | _ => s.waits

def due (now : Nat) : Net.Action → Bool
  | .client a act => Client.due (s.waits a) now act
  | act => (clock act).all (· == now)

def after (x : Action) (net : Net) : TimedNet where
  net := net
  now := x.now
  waits := s.waitsAfter x.now x.act
  entered := stamp s.entered s.net.service.disp.calls.length x.now
  written := stamp s.written s.net.service.disp.out.length x.now

def step (x : Action) : Option TimedNet :=
  if s.now ≤ x.now ∧ s.due x.now x.act = true then (Net.step e lib s.net x.act).map (s.after x)
  else none

def Initial : Prop := ∃ net, Net.Initial net ∧ s = { net := net }

def system : System TimedNet Action := System.ofStep Initial (step e lib)

variable {e : Env} {lib : AdapterId → Bool} {s s' : TimedNet} {x : Action} {a : AdapterId}

theorem step_cases (h : step e lib s x = some s') : s.now ≤ x.now ∧ s.due x.now x.act = true ∧
    ∃ net, Net.step e lib s.net x.act = some net ∧ s' = s.after x net := by
  unfold step at h
  split at h
  · rename_i hcond
    obtain ⟨net, hnet, rfl⟩ := Option.map_eq_some_iff.mp h
    exact ⟨hcond.1, hcond.2, net, hnet, rfl⟩
  · cases h

theorem net_reachable (h : (system e lib).Reachable s) : (Net.system e lib).Reachable s.net := by
  apply h.invariant (P := fun s => (Net.system e lib).Reachable s.net)
  · rintro s ⟨net, hnet, rfl⟩
    exact .start hnet
  · intro s x t hs hst
    obtain ⟨-, -, net, hnet, rfl⟩ := step_cases hst
    exact hs.next hnet

theorem timely_step (hr : (Net.system e lib).Reachable s.net) (hlib : lib a = true)
    (h : Client.Timely (s.net.clients a) (s.waits a)) (hst : step e lib s x = some s') :
    Client.Timely (s'.net.clients a) (s'.waits a) := by
  obtain ⟨-, hdue, net, hnet, rfl⟩ := step_cases hst
  obtain ⟨act, now⟩ := x
  have ht := Net.transit_reachable hr hlib
  have hkept := Net.kept_reachable hr hlib
  change Client.Timely (net.clients a) (s.waitsAfter now act a)
  by_cases hact : ∃ b cact, act = .client b cact
  · obtain ⟨b, cact, rfl⟩ := hact
    obtain ⟨-, -, c, hc, rfl⟩ := Net.step_client hnet
    rw [Net.setClient_clients]
    by_cases heq : a = b
    · subst heq
      rw [if_pos rfl, waitsAfter, Function.update_self]
      exact h.step ht.wf hkept ht.length hc now hdue
    · rw [if_neg heq, waitsAfter, Function.update_of_ne heq]
      exact h
  · have hwaits : s.waitsAfter now act = s.waits := by
      cases act with
      | client b cact => exact absurd ⟨b, cact, rfl⟩ hact
      | _ => rfl
    rw [hwaits]
    obtain ⟨-, hsame | ⟨cact, hc, -, ⟨rfl, -⟩ | ⟨ok, rfl⟩ | ⟨rest, n, w, rfl, -⟩⟩⟩ :=
      Net.step_clients ht (Net.service_reachable hr) hnet
    · rw [hsame]
      exact h
    · exact absurd ⟨a, cact, rfl⟩ hact
    · exact h.step ht.wf hkept ht.length hc now rfl
    · exact h.step ht.wf hkept ht.length hc now rfl

theorem timely_reachable (h : (system e lib).Reachable s) (hlib : lib a = true) :
    Client.Timely (s.net.clients a) (s.waits a) := by
  apply h.invariant_of (P := fun s => Client.Timely (s.net.clients a) (s.waits a))
  · rintro s ⟨net, ⟨service, -, rfl⟩, rfl⟩ key
    exact ⟨nofun, nofun, nofun⟩
  · exact fun s x t hr ht hst => timely_step (net_reachable hr) hlib ht hst

/-- Every entry expires when the time that is granted to its call is over, counted from the time
at which the call was handled. -/
def Granted (s : TimedNet) : Prop := ∀ pc ∈ s.net.service.disp.pendingCalls,
  ∃ c, s.net.service.disp.calls[pc.call]? = some c ∧
    pc.discardTp = s.entered pc.call + Dispatcher.grantedInterval c.req.timeout * 10 ^ 6

theorem stamp_of_getElem? {α : Type} {l : List α} {times : Nat → Nat} {i now : Nat} {y : α}
    (h : l[i]? = some y) : stamp times l.length now i = times i :=
  if_pos (List.getElem?_eq_some_iff.mp h).1

theorem handled_at {sact : Service.Action} {now done : Nat}
    (hdue : s.due x.now x.act = true) (hact : x.act = .service sact ∨ ∃ a caps, sact = .put a caps)
    (hhandle : sact = .handle now done) : now = x.now := by
  subst hhandle
  obtain hact | ⟨a, caps, hput⟩ := hact
  · rw [hact] at hdue
    exact beq_iff_eq.mp hdue
  · cases hput

theorem Granted.step (h : Granted s) (hst : step e lib s x = some s') : Granted s' := by
  obtain ⟨-, hdue, net, hnet, rfl⟩ := step_cases hst
  intro pc hpc
  change pc ∈ net.service.disp.pendingCalls at hpc
  change ∃ c, net.service.disp.calls[pc.call]? = some c ∧
    pc.discardTp = stamp s.entered s.net.service.disp.calls.length x.now pc.call + _
  have hold (hpc : pc ∈ s.net.service.disp.pendingCalls)
      (hmono : s.net.service.disp.calls <+: net.service.disp.calls) :
      ∃ c, net.service.disp.calls[pc.call]? = some c ∧
        pc.discardTp = stamp s.entered s.net.service.disp.calls.length x.now pc.call +
          Dispatcher.grantedInterval c.req.timeout * 10 ^ 6 := by
    obtain ⟨c, hc, htp⟩ := h pc hpc
    obtain ⟨later, hlater⟩ := hmono
    rw [stamp_of_getElem? hc, ← hlater]
    exact ⟨c, Dispatcher.getElem?_append_of_some hc later, htp⟩
  obtain hservice | ⟨sact, hservice, hact⟩ := Net.step_serviceStep hnet
  · rw [hservice] at hpc
    exact hold hpc (hservice ▸ List.prefix_refl _)
  · obtain hdisp | ⟨y, hy, htime⟩ := Service.step_disp hservice
    · rw [hdisp] at hpc
      exact hold hpc (hdisp ▸ List.prefix_refl _)
    · have hmono := (Dispatcher.step_callStep hy).calls_mono
      obtain hpc | ⟨caps, now, done, c, hmsg, hcalls, hcall, htp⟩ :=
        Dispatcher.mem_pendingCalls_step hy hpc
      · exact hold hpc hmono
      · refine ⟨c, ?_, ?_⟩
        · rw [hcalls, hcall]
          exact List.getElem?_concat_length
        · rw [stamp, if_neg (by omega), htp, handled_at hdue hact (htime _ _ _ _ hmsg)]

theorem granted_reachable (h : (system e lib).Reachable s) : Granted s := by
  apply h.invariant (P := Granted)
  · rintro s ⟨net, ⟨service, ⟨d, ⟨adapters, rfl, -⟩, rfl⟩, rfl⟩, rfl⟩ pc hpc
    cases hpc
  · exact fun s x t hs hst => hs.step hst

/-- The 200 milliseconds for the transfer. -/
def transferTime : Nat := 200000000

/-- Number `n` of the frames answers the `i`-th call, which is the request `r` of `a`. It was
written within the time the dispatcher grants, and the ways of request and answer together took less
than 200 milliseconds: the first ends when the dispatcher takes the time for its deadline, the second
when the call comes back from its last wait. -/
structure Prompt (s : TimedNet) (a : AdapterId) (r : CallReq) (wait : Client.Wait) (i n : Nat) :
    Prop where
  call : ∃ c, s.net.service.disp.calls[i]? = some c ∧ c.sender = a ∧ c.req = r
  answer : ∃ w cause, s.net.service.disp.out[n]? = some w ∧ w.answers = some ⟨i, cause⟩
  within : s.written n ≤ s.entered i + Dispatcher.grantedInterval r.timeout * 10 ^ 6
  transfer : (s.entered i - wait.began : Int) + (wait.resumed - s.written n) < transferTime

/-- In every run, a blocking call with this timeout that has returned has returned the prompt answer
to it, if there is one, unless its connection was closed before the answer was recorded. -/
def SeesPrompt (timeout : Word) : Prop :=
  ∀ (e : Env) (lib : AdapterId → Bool) (s : TimedNet), (system e lib).Reachable s →
    ∀ a key r i n retcode reply, lib a = true →
      ((s.net.clients a).connClosed = true → (s.net.clients a).recorded key ≠ none) →
      (s.net.clients a).asked[key - 1]? = some r → r.timeout = timeout →
      (s.net.clients a).calls key = some (.returned retcode reply) →
      Prompt s a r (s.waits a key) i n →
      ∃ x, (s.net.clients a).recorded key = some x ∧ x.frame = n ∧
        Client.Reports (some x) retcode reply

theorem Prompt.not_late {r : CallReq} {wait : Client.Wait} {i n : Nat} (h : Prompt s a r wait i n)
    (hout : Outwaits r.timeout)
    (htp : wait.tp = wait.began + Client.waitInterval r.timeout * 10 ^ 6) :
    wait.resumed < wait.tp := by
  have hwithin := h.within
  have htransfer := h.transfer
  unfold Outwaits at hout
  unfold transferTime at htransfer
  omega

theorem answer_unique {d : Dispatcher} (h : (Dispatcher.system e).Reachable d) {w w' : Write}
    {i m n : Nat} {cause cause' : Cause} (hm : d.out[m]? = some w) (hn : d.out[n]? = some w')
    (hw : w.answers = some ⟨i, cause⟩) (hw' : w'.answers = some ⟨i, cause'⟩) : m = n := by
  have hfilter := Net.filter_answersCall h (List.mem_of_getElem? hm) hw
  have hpairs : (d.out.filter (Dispatcher.answersCall i)).Pairwise fun _ _ => False := by
    rw [hfilter]
    exact List.pairwise_singleton _ _
  rw [List.pairwise_filter] at hpairs
  have hanswers {v : Write} {c : Cause} (hv : v.answers = some ⟨i, c⟩) :
      Dispatcher.answersCall i v = true := by
    simp [Dispatcher.answersCall, hv]
  refine Dispatcher.index_unique hpairs hm hn ?_ ?_
  · exact fun hne => hne (hanswers hw) (hanswers hw')
  · exact fun hne => hne (hanswers hw') (hanswers hw)

theorem frame_of_recorded (hr : (Net.system e lib).Reachable s.net) (hlib : lib a = true)
    {key i n : Nat} {y : Completion} {r : CallReq} {wait : Client.Wait}
    (hy : (s.net.clients a).recorded key = some y)
    (hasked : (s.net.clients a).asked[key - 1]? = some r) (hp : Prompt s a r wait i n) :
    y.frame = n := by
  have hs := Net.service_reachable hr
  have ht := Net.transit_reachable hr hlib
  obtain ⟨hmem, hkey⟩ := Client.recorded_mem hy
  obtain ⟨-, w, rest, hw, hdest, hread, hparse⟩ := (Net.recorded_reachable hr hlib).frames y hmem
  obtain ⟨i', c', cause', hans', hc', hsender', hanswered⟩ :=
    Net.reply_answers hs (List.mem_of_getElem? hw) hdest hread
  obtain ⟨j, hj, hlt, hid⟩ := ht.asked_of_call hs (List.mem_of_getElem? hc') hsender'
  obtain ⟨c, hc, hsender, rfl⟩ := hp.call
  obtain ⟨v, cause, hv, hans⟩ := hp.answer
  have hjkey : y.key = j + 1 := by
    have hle := ht.wf.completed y hmem
    have hseq := ht.wf.seq
    exact Word.ofNat_inj (by omega) (by omega) ((hanswered.parse hread hparse).1.trans hid)
  have hreq : c'.req = c.req := by
    rw [← hkey, hjkey] at hasked
    exact Option.some.inj (hj.symm.trans hasked)
  have heq : i' = i := ht.call_unique hs hc' hc hsender' hsender (congrArg CallReq.id hreq)
  subst heq
  exact answer_unique (Service.disp_reachable hs) hw hv hans' hans

theorem seesPrompt_of_outwaits {timeout : Word} (hout : Outwaits timeout) : SeesPrompt timeout := by
  intro e lib s hr a key r i n retcode reply hlib hopen hasked htimeout hret hp
  have hnet := net_reachable hr
  have hcall := timely_reachable hr hlib key
  obtain ⟨r', hr', htp⟩ := hcall.tp _ hret
  cases hasked.symm.trans hr'
  have hearly := hp.not_late (htimeout ▸ hout) htp
  obtain ⟨y, hy, hrep⟩ | hlate | ⟨hclosed, hnone⟩ := hcall.returned retcode reply hret
  · exact ⟨y, hy, frame_of_recorded hnet hlib hy hasked hp, hrep⟩
  · omega
  · exact absurd hnone (hopen hclosed)

/-- A client calls a method with this timeout and waits. Everything takes no time. -/
def callRun (timeout : Word) : List Net.Action :=
  [.service (.accept 0), .service (.accept 1),
    .request 0 (RequestSerializer.serializeAuth floraVersion "c" 1 0), .deliver 0,
    .service (.put 1 (RequestSerializer.serializeAuth floraVersion "s" 1 0)),
    .service (.put 1 (RequestSerializer.serializeDeclareMethod "m")),
    .service (.loop 0), .service (.handle 0 0), .service (.handle 0 0), .service (.handle 0 0),
    .service (.handle 0 0), .client 0 (.beginCall true "m" none "s" timeout true), .transmit 0 true,
    .deliver 0, .service (.loop 0), .service (.handle 0 0), .service (.handle 0 0),
    .client 0 (.check 1)]

/-- The method replies 200 milliseconds later, and the caller, whose wait has just timed out, records
the reply before it returns. -/
def replyRun : List Net.Action :=
  [.service (.put 1 (RequestSerializer.serializeReply 1 5 none)), .service (.loop transferTime),
    .service (.handle transferTime transferTime), .receive 0, .receive 0, .client 0 (.timeout 1)]

theorem reachable_after (x : Action) {net : Net} (h : (system e lib).Reachable s)
    (hnow : s.now ≤ x.now) (hdue : s.due x.now x.act = true)
    (hnet : Net.step e lib s.net x.act = some net) : (system e lib).Reachable (s.after x net) := by
  apply h.next
  change step e lib s x = some (s.after x net)
  rw [step, if_pos ⟨hnow, hdue⟩, hnet]
  rfl

theorem reachable_execute (as : List Action) (h : (system e lib).Reachable s)
    (hx : execute (step e lib) s as = some s') : (system e lib).Reachable s' :=
  h.run (execute_run hx)

/-- The run with a caller that waits for 200 milliseconds or less: it returns a timeout, although the
reply was written when the wait ended and has been recorded. -/
theorem reply_missed {timeout : Word} (h : Client.waitInterval timeout ≤ 200) :
    ∃ s : TimedNet, (system Dispatcher.sampleEnv (· == 0)).Reachable s ∧
      (s.net.clients 0).asked[0]? = some ⟨"m", none, "s", 1, timeout⟩ ∧
      (s.net.clients 0).calls 1 = some (.returned cliEtimeout (some ⟨5, none, "s"⟩)) ∧
      (s.net.clients 0).recorded 1 = some ⟨1, cliSuccess, some ⟨5, none, "s"⟩, 3⟩ ∧
      (∃ c, s.net.service.disp.calls[0]? = some c ∧ c.sender = 0 ∧
        c.req = ⟨"m", none, "s", 1, timeout⟩) ∧
      (∃ w cause, s.net.service.disp.out[3]? = some w ∧ w.answers = some ⟨0, cause⟩) ∧
      (s.waits 0 1).began = 0 ∧ (s.waits 0 1).resumed = transferTime ∧ s.entered 0 = 0 ∧
      s.written 3 = transferTime := by
  have hstart : (system Dispatcher.sampleEnv (· == 0)).Reachable {} :=
    .start ⟨{}, ⟨{}, Service.initial_default, rfl⟩, rfl⟩
  have hwaiting := reachable_execute ((callRun timeout).map fun act => ⟨act, 0⟩) hstart rfl
  have hdue : 0 + Client.waitInterval timeout * 10 ^ 6 ≤ transferTime := by
    unfold transferTime
    omega
  have hexpired := reachable_after ⟨.client 0 (.expire 1), transferTime⟩ hwaiting (Nat.zero_le _)
    (decide_eq_true hdue) rfl
  have hreply := reachable_execute (replyRun.map fun act => ⟨act, transferTime⟩) hexpired rfl
  exact ⟨_, hreply, rfl, rfl, rfl, ⟨_, rfl, rfl, rfl⟩, ⟨_, _, rfl, rfl⟩, rfl, rfl, rfl, rfl⟩

theorem not_seesPrompt {timeout : Word} (h : ¬ PlainTimeout timeout) : ¬ SeesPrompt timeout := by
  intro hsees
  obtain ⟨hwait, hgranted⟩ := waitInterval_of_not_plain h
  obtain ⟨s, hr, hasked, hret, hrec, hcall, hanswer, hbegan, hresumed, hentered, hwritten⟩ :=
    reply_missed hwait
  have hprompt : Prompt s 0 ⟨"m", none, "s", 1, timeout⟩ (s.waits 0 1) 0 3 := by
    refine ⟨hcall, hanswer, ?_, ?_⟩
    · rw [hentered, hwritten]
      change 200000000 ≤ 0 + Dispatcher.grantedInterval timeout * 10 ^ 6
      omega
    · rw [hentered, hwritten, hbegan, hresumed]
      unfold transferTime
      omega
  have hrecorded : (s.net.clients 0).recorded 1 ≠ none := by
    rw [hrec]
    exact Option.some_ne_none _
  obtain ⟨x, hx, -, hcode, -⟩ := hsees _ _ s hr 0 1 _ 0 3 cliEtimeout _ rfl (fun _ => hrecorded)
    hasked rfl hret hprompt
  cases hrec.symm.trans hx
  exact absurd hcode (by decide)

/-- The caller outwaits the service, and therefore sees every answer that comes in time, exactly if
it asks for a timeout that is not 0 and at least 200 milliseconds below the largest one. -/
theorem caller_outwaits_iff (timeout : Word) :
    (Outwaits timeout ↔ timeout ≠ 0 ∧ timeout.toNat + 200 < 2 ^ 32) ∧
    (SeesPrompt timeout ↔ timeout ≠ 0 ∧ timeout.toNat + 200 < 2 ^ 32) := by
  refine ⟨outwaits_iff timeout, fun hsees => ?_, fun hplain => ?_⟩
  · exact not_not.mp fun hnot => not_seesPrompt hnot hsees
  · exact seesPrompt_of_outwaits ((outwaits_iff timeout).mpr hplain)

/-- Without a timeout, which is the default, both caller and service give up after 200
milliseconds. -/
theorem caller_outwaits_fails_default : ¬ ∀ timeout, Outwaits timeout ∧ SeesPrompt timeout := by
  intro h
  exact absurd ((outwaits_iff 0).mp (h 0).1).1 (by decide)

end TimedNet

end Flora
