import Flora.Poll.Timeout
import Flora.Service.Queue
import Flora.Dispatcher.Records
import Flora.Dispatcher.Rejections

/-! # Keepalive

The service with a TCP poll, and a client that sends nothing but the pings of its keepalive thread.
The poll hears of it with every read, and the dispatcher answers every ping, provided that the
client is not a monitor: the gate of `handle_cmd` closes a monitor at its first message, and
`Client::ping` is the one sender of the library that does not ask for the monitor flag. A `select`
that fails ends the thread of the poll, which then deletes every adapter it has. -/

namespace Flora

open TransitionSystem

namespace Dispatcher

variable {e : Env} {d d' : Dispatcher} {a : AdapterId} {info : AdapterInfo}

/-- What another adapter's command can do to `a` is a write that fails. -/
theorem stays_of_other {act : Action} (hact : ¬ act.isOf a) (hclose : act ≠ .close a)
    (hdestroy : act ≠ .destroy a) (h : step e d act = some d') (hlive : d.live a = true)
    (haccepts : ∀ w ∈ d'.out.drop d.out.length, w.dest = a → w.result = .success) :
    d'.live a = true ∧ d'.deref a = d.deref a := by
  refine ⟨?_, deref_step hact h⟩
  obtain ⟨ws, hout, -, hstays⟩ := (step_effect h).writes
  rw [hout, List.drop_left] at haccepts
  refine hstays a hlive ?_ haccepts
  rintro (rfl | rfl | ⟨caps, now, done, rfl⟩)
  · exact hclose rfl
  · exact hdestroy rfl
  · exact hact rfl

/-- A ping of an ordinary client is answered by a pong and does nothing else. -/
theorem step_ping {now done : Nat} (hderef : d.deref a = some info)
    (hflag : hasMonitorFlag info.flags = false)
    (hfits : e.fits (d.adapters a).serializeFlags ResponseSerializer.serializePong = true)
    (h : step e d (.msg RequestSerializer.serializePing a now done) = some d') :
    ∃ r d₁, Writes d [⟨a, (d.adapters a).serializeFlags, ResponseSerializer.serializePong, r, none⟩]
      d₁ ∧ d' = { d₁ with handleCmdTp := done } := by
  have hgate : isMonitor a d = some false := by
    rw [isMonitor, if_neg (info_of_deref hderef), hderef, Option.map_some, hflag]
  have hrequest : d.request cmdPingReq RequestSerializer.serializePing a = some [] := by
    rw [request, if_pos hgate]
    rfl
  obtain ⟨_, hnone⟩ | ⟨cmd, rest, d₁, ok, hcmd, hh, rfl⟩ := handleMsg_request (step_msg h).2
  · rw [hnone cmdPingReq (by decide)] at hrequest
    cases hrequest
  · cases (readWord_of_request hrequest).symm.trans (readWord_of_request hcmd)
    change handlePingReq e a d = some (d₁, ok) at hh
    rw [handlePingReq, if_neg (info_of_deref hderef), hderef, Option.bind_some] at hh
    dsimp only at hh
    rw [if_pos hfits] at hh
    obtain ⟨d₂, hlogged, heq⟩ := Option.map_eq_some_iff.mp hh
    cases heq
    obtain ⟨r, hw⟩ := writeLogged_writes hlogged
    exact ⟨r, d₁, hw, rfl⟩

end Dispatcher

namespace Service

variable {e : Env} {s s' : Service} {a : AdapterId} {info : AdapterInfo}

/-- The client of `a` is registered with the record `info`, its connection is open, and what it has
in the queue are pings. -/
structure Connected (a : AdapterId) (info : AdapterInfo) (s : Service) : Prop where
  phase : s.phase a = .reading
  live : s.disp.live a = true
  record : s.disp.deref a = some info
  queued : ∀ p ∈ s.pendingCmds ++ s.cmdPackets, p.2 = a →
    p.1 = some RequestSerializer.serializePing

/-- Every write to `a` that was made between `s` and `s'` succeeded. -/
def Accepts (a : AdapterId) (s s' : Service) : Prop :=
  ∀ w ∈ s'.disp.out.drop s.disp.out.length, w.dest = a → w.result = .success

/-- Every command of `a` that was handled between `s` and `s'` was answered by one pong. -/
def Answers (a : AdapterId) (s s' : Service) : Prop :=
  ∃ js, s'.journal = s.journal ++ js ∧ ∀ j ∈ js, ∀ caps, j.cmd = some (caps, a) →
    j.writes = [⟨a, (s.disp.adapters a).serializeFlags, ResponseSerializer.serializePong, .success,
      none⟩]

theorem Answers.of_journal (h : s'.journal = s.journal) : Answers a s s' :=
  ⟨[], by rw [h, List.append_nil], fun _ hj => absurd hj List.not_mem_nil⟩

theorem Answers.trans {s'' : Service} (h : Answers a s s') (h' : Answers a s' s'')
    (horder : (s'.disp.adapters a).serializeFlags = (s.disp.adapters a).serializeFlags) :
    Answers a s s'' := by
  obtain ⟨js, hjs, hans⟩ := h
  obtain ⟨ks, hks, hans'⟩ := h'
  refine ⟨js ++ ks, by rw [hks, hjs, List.append_assoc], fun j hj => ?_⟩
  obtain hj | hj := List.mem_append.mp hj
  · exact hans j hj
  · rw [← horder]
    exact hans' j hj

theorem Connected.ping {now done : Nat} {d : Dispatcher} (h : Connected a info s)
    (hflag : hasMonitorFlag info.flags = false)
    (hfits : ∀ order, e.fits order ResponseSerializer.serializePong = true)
    (hd : Dispatcher.step e s.disp (.msg RequestSerializer.serializePing a now done) = some d)
    (haccepts : ∀ w ∈ d.out.drop s.disp.out.length, w.dest = a → w.result = .success) :
    d.live a = true ∧ d.deref a = some info ∧ d.out.drop s.disp.out.length =
      [⟨a, (s.disp.adapters a).serializeFlags, ResponseSerializer.serializePong, .success, none⟩] := by
  obtain ⟨r, d₁, hw, rfl⟩ := Dispatcher.step_ping h.record hflag (hfits _) hd
  have hout := congrArg (List.drop s.disp.out.length) hw.out
  rw [List.drop_left] at hout
  have hr : r = .success := haccepts _ (hout ▸ List.mem_cons_self) rfl
  subst hr
  refine ⟨?_, (hw.deref a).trans h.record, hout⟩
  have hlive := h.live
  have hclosed : (d₁.adapters a).closed = (s.disp.adapters a).closed := by
    rw [Bool.eq_iff_iff, hw.closed_iff a]
    simp
  change d₁.live a = true
  rw [Dispatcher.live, hclosed, hw.destroyed a]
  exact hlive

theorem Connected.other {x : Dispatcher.Action} {d : Dispatcher} (h : Connected a info s)
    (hd : Dispatcher.step e s.disp x = some d) (hx : ¬ x.isOf a) (hclose : x ≠ .close a)
    (hdestroy : x ≠ .destroy a)
    (haccepts : ∀ w ∈ d.out.drop s.disp.out.length, w.dest = a → w.result = .success) :
    d.live a = true ∧ d.deref a = some info := by
  obtain ⟨hlive, hderef⟩ := Dispatcher.stays_of_other hx hclose hdestroy hd h.live haccepts
  exact ⟨hlive, hderef.trans h.record⟩

theorem Connected.push {caps : CapsPtr} {b : AdapterId} (h : Connected a info s)
    (hping : b = a → caps = some RequestSerializer.serializePing) :
    Connected a info (s.push (caps, b)) := by
  refine ⟨h.phase, h.live, h.record, fun p hp hpa => ?_⟩
  change p ∈ s.pendingCmds ++ (s.cmdPackets ++ [(caps, b)]) at hp
  rw [← List.append_assoc] at hp
  obtain hp | hp := List.mem_append.mp hp
  · exact h.queued p hp hpa
  · rw [List.mem_singleton.mp hp] at hpa ⊢
    exact hping hpa

theorem Connected.ne_of_phase {b : AdapterId} {phase : Phase} (h : Connected a info s)
    (hb : s.phase b = phase) (hphase : phase ≠ .reading) : b ≠ a := by
  rintro rfl
  exact hphase (hb.symm.trans h.phase)

theorem Connected.setPhase {b : AdapterId} {phase : Phase} (h : Connected a info s) (hne : b ≠ a) :
    Connected a info (s.setPhase b phase) := by
  refine ⟨?_, h.live, h.record, h.queued⟩
  exact (Function.update_of_ne hne.symm ..).trans h.phase

theorem Connected.handle {now done : Nat} (h : Connected a info s)
    (hflag : hasMonitorFlag info.flags = false)
    (hfits : ∀ order, e.fits order ResponseSerializer.serializePong = true)
    (hs : Service.step e s (.handle now done) = some s') (haccepts : Accepts a s s') :
    Connected a info s' ∧ Answers a s s' := by
  obtain ⟨-, ⟨hnil, rfl⟩ | ⟨⟨caps, b⟩, rest, d, hcons, hd, rfl⟩⟩ := step_handle hs
  · exact ⟨⟨h.phase, h.live, h.record, h.queued⟩, .of_journal rfl⟩
  · have hrest : ∀ p ∈ rest ++ s.cmdPackets, p.2 = a →
        p.1 = some RequestSerializer.serializePing := by
      intro p hp
      exact h.queued p (hcons ▸ List.mem_cons_of_mem _ hp)
    by_cases hb : b = a
    · subst hb
      have hcaps : caps = some RequestSerializer.serializePing :=
        h.queued (caps, b) (hcons ▸ List.mem_cons_self) rfl
      subst hcaps
      obtain ⟨hlive, hrecord, hwrites⟩ := h.ping hflag hfits hd haccepts
      refine ⟨⟨h.phase, hlive, hrecord, hrest⟩, [_], rfl, fun j hj _ _ => ?_⟩
      rw [List.mem_singleton.mp hj]
      exact hwrites
    · have hother : ¬ (command now done (caps, b)).isOf a := by
        cases caps with
        | none => exact hb
        | some caps => exact hb
      have hclose : command now done (caps, b) ≠ .close a ∧
          command now done (caps, b) ≠ .destroy a := by
        cases caps with
        | none => exact ⟨nofun, nofun⟩
        | some caps => exact ⟨nofun, nofun⟩
      obtain ⟨hlive, hrecord⟩ := h.other hd hother hclose.1 hclose.2 haccepts
      refine ⟨⟨h.phase, hlive, hrecord, hrest⟩, [_], rfl, fun j hj caps' hcmd => ?_⟩
      rw [List.mem_singleton.mp hj] at hcmd
      cases hcmd
      exact absurd rfl hb

theorem Connected.step {act : Action} (h : Connected a info s)
    (hflag : hasMonitorFlag info.flags = false)
    (hfits : ∀ order, e.fits order ResponseSerializer.serializePong = true)
    (hs : Service.step e s act = some s')
    (hping : ∀ caps, act = .put a caps → caps = RequestSerializer.serializePing)
    (hclose : act ≠ .closeAdapter a) (haccepts : Accepts a s s') :
    Connected a info s' ∧ Answers a s s' := by
  cases act with
  | accept b =>
    obtain ⟨habsent, -, rfl⟩ := step_accept hs
    have hne := h.ne_of_phase habsent (by decide)
    exact ⟨h.setPhase hne, .of_journal rfl⟩
  | put b caps =>
    obtain ⟨-, rfl⟩ := step_put hs
    refine ⟨h.push ?_, .of_journal rfl⟩
    rintro rfl
    rw [hping caps rfl]
  | closeAdapter b =>
    obtain ⟨-, rfl⟩ := step_closeAdapter hs
    have hne : b ≠ a := fun heq => hclose (heq ▸ rfl)
    have hd : Dispatcher.step e s.disp (.close b) = some (s.disp.close b) := rfl
    obtain ⟨hlive, hrecord⟩ := h.other hd (fun hof => hof) (fun heq => hne (by cases heq; rfl)) nofun
      haccepts
    have hphase : Connected a info (s.setPhase b .closed) := h.setPhase hne
    exact ⟨⟨hphase.phase, hlive, hrecord, h.queued⟩, .of_journal rfl⟩
  | checkInfo b =>
    obtain ⟨hclosed, rfl⟩ := step_checkInfo hs
    have hne := h.ne_of_phase hclosed (by decide)
    exact ⟨h.setPhase hne, .of_journal rfl⟩
  | pushErase b =>
    obtain ⟨herasing, rfl⟩ := step_pushErase hs
    have hne := h.ne_of_phase herasing (by decide)
    exact ⟨(h.push fun heq => absurd heq hne).setPhase hne, .of_journal rfl⟩
  | destroy b =>
    obtain ⟨hdeleted, -, d, hd, rfl⟩ := step_destroy hs
    have hne := h.ne_of_phase hdeleted (by decide)
    obtain ⟨hlive, hrecord⟩ := h.other hd (fun hof => hof) nofun (fun heq => hne (by cases heq; rfl))
      haccepts
    exact ⟨⟨h.phase, hlive, hrecord, h.queued⟩, .of_journal rfl⟩
  | loop tp =>
    obtain ⟨-, ⟨-, rfl⟩ | ⟨-, -, d, hd, rfl⟩ | rfl⟩ := step_loop hs
    · exact ⟨⟨h.phase, h.live, h.record, h.queued⟩, .of_journal rfl⟩
    · obtain ⟨hlive, hrecord⟩ := h.other hd (fun hof => hof) nofun nofun haccepts
      refine ⟨⟨h.phase, hlive, hrecord, h.queued⟩, [_], rfl, fun j hj caps hcmd => ?_⟩
      rw [List.mem_singleton.mp hj] at hcmd
      cases hcmd
    · refine ⟨⟨h.phase, h.live, h.record, fun p hp => h.queued p ?_⟩, .of_journal rfl⟩
      rw [List.mem_append] at hp ⊢
      obtain hp | hp := hp
      · exact (List.mem_append.mp hp).symm
      · exact absurd hp List.not_mem_nil
  | handle now done => exact h.handle hflag hfits hs haccepts
  | wake =>
    obtain ⟨-, rfl⟩ := step_wake hs
    exact ⟨⟨h.phase, h.live, h.record, h.queued⟩, .of_journal rfl⟩
  | close =>
    cases hs
    exact ⟨⟨h.phase, h.live, h.record, h.queued⟩, .of_journal rfl⟩

end Service

namespace TcpService

/-- Where the thread of `SocketPoll::run` is: before its first `select`, behind a `select` that
returned an error or not, among the descriptors of `rfds`, or behind its loop. -/
inductive Thread where
  | started
  | selected (r : Bool)
  | serving
  | releasing
  deriving DecidableEq, Repr

/-- `do_poll` ends with the timeouts. Then an error of `select` or a poll that was stopped ends the
loop. -/
def Thread.next (listening : Bool) : Thread → BeepSocketPoll.Action → Option Thread
  | .selected r, .poll _ => some (if r && listening then .serving else .releasing)
  | .serving, .accept _ _ => some .serving
  | .serving, .read _ _ _ => some .serving
  | thread, .config _ => some thread
  | _, _ => none

end TcpService

/-- The service and its TCP poll. -/
structure TcpService where
  svc : Service := {}
  poll : BeepSocketPoll := {}
  thread : TcpService.Thread := .started
  /-- `listen_fd` is not -1. -/
  listening : Bool := true

namespace TcpService

/-- `select` is `obtain_timeout` at `now` and a call of `select` that returned an error or not. -/
inductive Action where
  | select (now : Nat) (r : Bool)
  | poll (act : BeepSocketPoll.Action)
  | stop
  | release (a : AdapterId)
  | svc (act : Service.Action)

variable (e : Env) (s : TcpService)

/-- What a step of the poll thread does to the service: a new connection will be read from, and
after a failing read `delete_adapter` begins. -/
def serve : BeepSocketPoll.Action → Option Service
  | .accept a _ => Service.step e s.svc (.accept a)
  | .read a false _ => Service.step e s.svc (.closeAdapter a)
  | _ => some s.svc

/-- The connections of this poll are deleted by its own thread only. -/
def allows : Service.Action → Bool
  | .closeAdapter a => a ∉ s.poll.adapters
  | _ => true

/-- A timeout that is out of range makes `select` fail with `EINVAL`. -/
def select (now : Nat) (r : Bool) : Option TcpService :=
  if (s.thread = .started ∨ s.thread = .serving) ∧ s.poll.clock ≤ now ∧
      (r = true → ∀ tv ∈ s.poll.pollTimeout now, tv.Valid) then
    some { s with thread := .selected r, poll := { s.poll with clock := now } }
  else none

/-- One turn of the loop behind the loop, which deletes what is left in `adapters`. -/
def release (a : AdapterId) : Option TcpService :=
  if s.thread = .releasing ∧ a ∈ s.poll.adapters then
    (Service.step e s.svc (.closeAdapter a)).map fun svc => { s with
      svc := svc, poll := { s.poll with adapters := s.poll.adapters.filter (· ≠ a) } }
  else none

def step : Action → Option TcpService
  | .select now r => s.select now r
  | .poll act =>
    (s.thread.next s.listening act).bind fun thread => (s.poll.step act).bind fun poll =>
      (serve e s act).map fun svc => { s with svc := svc, poll := poll, thread := thread }
  | .stop => some { s with listening := false }
  | .release a => release e s a
  | .svc act =>
    if s.allows act then (Service.step e s.svc act).map fun svc => { s with svc := svc } else none

def Initial : Prop := ∃ svc, Service.Initial svc ∧ s = { svc := svc }

def system : System TcpService Action := System.ofStep Initial (step e)

variable {e} {s} {s' t : TcpService} {a : AdapterId} {info : AdapterInfo}

theorem step_select {now : Nat} {r : Bool} (h : step e s (.select now r) = some s') :
    s' = { s with thread := .selected r, poll := { s.poll with clock := now } } := by
  simp only [step, select, Option.ite_none_right_eq_some, Option.some.injEq] at h
  exact h.2.symm

theorem step_poll {act : BeepSocketPoll.Action} (h : step e s (.poll act) = some s') :
    ∃ thread poll svc, s.thread.next s.listening act = some thread ∧ s.poll.step act = some poll ∧
      serve e s act = some svc ∧ s' = { s with svc := svc, poll := poll, thread := thread } := by
  obtain ⟨thread, hthread, h⟩ := Option.bind_eq_some_iff.mp h
  obtain ⟨poll, hpoll, h⟩ := Option.bind_eq_some_iff.mp h
  obtain ⟨svc, hsvc, rfl⟩ := Option.map_eq_some_iff.mp h
  exact ⟨thread, poll, svc, hthread, hpoll, hsvc, rfl⟩

theorem step_release (h : step e s (.release a) = some s') : s.thread = .releasing ∧
    ∃ svc, Service.step e s.svc (.closeAdapter a) = some svc ∧ s' = { s with
      svc := svc, poll := { s.poll with adapters := s.poll.adapters.filter (· ≠ a) } } := by
  simp only [step, release, Option.ite_none_right_eq_some] at h
  obtain ⟨svc, hsvc, rfl⟩ := Option.map_eq_some_iff.mp h.2
  exact ⟨h.1.1, svc, hsvc, rfl⟩

theorem step_svc {act : Action} (h : step e s act = some s') :
    s'.svc = s.svc ∨ ∃ x, Service.step e s.svc x = some s'.svc := by
  cases act with
  | select now r =>
    rw [step_select h]
    exact .inl rfl
  | poll act =>
    obtain ⟨thread, poll, svc, -, -, hsvc, rfl⟩ := step_poll h
    unfold serve at hsvc
    split at hsvc
    · exact .inr ⟨_, hsvc⟩
    · exact .inr ⟨_, hsvc⟩
    · cases hsvc
      exact .inl rfl
  | stop =>
    cases h
    exact .inl rfl
  | release a =>
    obtain ⟨-, svc, hsvc, rfl⟩ := step_release h
    exact .inr ⟨_, hsvc⟩
  | svc act =>
    simp only [step, Option.ite_none_right_eq_some] at h
    obtain ⟨svc, hsvc, rfl⟩ := Option.map_eq_some_iff.mp h.2
    exact .inr ⟨act, hsvc⟩

theorem stamped_reachable (h : (system e).Reachable s) : s.poll.Stamped := by
  apply h.invariant (P := fun s => s.poll.Stamped)
  · rintro s ⟨svc, -, rfl⟩
    exact ⟨List.nodup_nil, fun _ hx => absurd hx List.not_mem_nil⟩
  · intro s act t hs hst
    cases act with
    | select now r =>
      rw [step_select hst]
      exact ⟨hs.nodup, hs.stamp⟩
    | poll act =>
      obtain ⟨thread, poll, svc, -, hpoll, -, rfl⟩ := step_poll hst
      exact hs.step hpoll
    | stop =>
      cases hst
      exact hs
    | release a =>
      obtain ⟨-, svc, -, rfl⟩ := step_release hst
      exact ⟨hs.nodup, hs.stamp⟩
    | svc act =>
      simp only [system, System.ofStep, step, Option.ite_none_right_eq_some] at hst
      obtain ⟨svc, -, rfl⟩ := Option.map_eq_some_iff.mp hst.2
      exact hs

/-- The client of `a` has been registered over this poll, with the record `info`, and the poll is in
its loop. -/
structure Joined (e : Env) (a : AdapterId) (info : AdapterInfo) (s : TcpService) : Prop where
  reachable : (system e).Reachable s
  running : s.thread ≠ .selected false ∧ s.thread ≠ .releasing
  listening : s.listening = true
  listed : a ∈ s.poll.adapters
  kept : a ∉ s.poll.shut
  connected : s.svc.Connected a info

/-- The client and what lies between it and the service. -/
structure Pinging (e : Env) (a : AdapterId) (s : TcpService) (act : Action) : Prop where
  /-- The client sends nothing but pings. -/
  pings : ∀ caps, act = .svc (.put a caps) → caps = RequestSerializer.serializePing
  /-- Whenever the poll looks at its clock, `beep_timeout` has not passed since the last read. -/
  inTime : ∀ x now tp, act = .poll x → x.clock = some now → s.poll.lastAction a = some tp →
    (now : Int) - tp < s.poll.beepTimeout.toNat * 1000000
  /-- A read fails only when the service itself has closed the adapter or shut the socket down. -/
  reads : ∀ now, act = .poll (.read a false now) →
    (s.svc.disp.adapters a).closed = true ∨ a ∈ s.poll.shut
  /-- No `select` fails; so its timeout has been in range. -/
  selects : ∀ now, act ≠ .select now false
  runs : act ≠ .stop
  /-- What is written to the client succeeds. -/
  accepts : ∀ s', step e s act = some s' → s.svc.Accepts a s'.svc

theorem Joined.not_read_false {act : Action} (h : Joined e a info s) (hguard : Pinging e a s act)
    (now : Nat) : act ≠ .poll (.read a false now) := by
  intro hact
  obtain hclosed | hshut := hguard.reads now hact
  · have hlive := h.connected.live
    rw [Dispatcher.live, hclosed, Bool.not_true, Bool.and_false] at hlive
    cases hlive
  · exact h.kept hshut

theorem Joined.next {act : BeepSocketPoll.Action} {thread : Thread} (h : Joined e a info s)
    (hthread : s.thread.next s.listening act = some thread) :
    thread ≠ .selected false ∧ thread ≠ .releasing := by
  rw [h.listening] at hthread
  obtain ⟨hfailed, hleft⟩ := h.running
  unfold Thread.next at hthread
  split at hthread <;> cases hthread
  · rename_i r now heq
    cases r with
    | false => exact absurd heq hfailed
    | true => exact ⟨nofun, nofun⟩
  · exact ⟨nofun, nofun⟩
  · exact ⟨nofun, nofun⟩
  · exact ⟨hfailed, hleft⟩

theorem Joined.step {act : Action} (h : Joined e a info s)
    (hflag : hasMonitorFlag info.flags = false)
    (hfits : ∀ order, e.fits order ResponseSerializer.serializePong = true)
    (hguard : Pinging e a s act) (hs : TcpService.step e s act = some s') :
    Joined e a info s' ∧ s.svc.Answers a s'.svc := by
  have hreachable : (system e).Reachable s' := h.reachable.next hs
  have haccepts := hguard.accepts s' hs
  cases act with
  | select now r =>
    rw [step_select hs] at hreachable ⊢
    cases r with
    | false => exact absurd rfl (hguard.selects now)
    | true => exact ⟨⟨hreachable, ⟨nofun, nofun⟩, h.listening, h.listed, h.kept, h.connected⟩,
        .of_journal rfl⟩
  | stop => exact absurd rfl hguard.runs
  | release b => exact absurd (step_release hs).1 h.running.2
  | poll act =>
    obtain ⟨thread, poll, svc, hthread, hpoll, hsvc, rfl⟩ := step_poll hs
    have hrunning := h.next hthread
    have hread (now : Nat) : act ≠ .read a false now :=
      fun hact => h.not_read_false hguard now (hact ▸ rfl)
    have hkept : a ∉ poll.shut := by
      intro ha
      obtain ha | ⟨now, tp, hnow, htp, hsilent⟩ :=
        BeepSocketPoll.shut_step (stamped_reachable h.reachable) hpoll ha
      · exact h.kept ha
      · have hlt := hguard.inTime act now tp rfl hnow htp
        omega
    have hlisted := BeepSocketPoll.adapters_step hpoll h.listed hread
    have hservice : svc.Connected a info ∧ s.svc.Answers a svc := by
      unfold serve at hsvc
      split at hsvc
      · exact h.connected.step hflag hfits hsvc (fun _ hput => by cases hput)
          (fun hclose => by cases hclose) haccepts
      · rename_i b now
        refine h.connected.step hflag hfits hsvc (fun _ hput => by cases hput) ?_ haccepts
        intro hclose
        cases hclose
        exact hread now rfl
      · cases hsvc
        exact ⟨h.connected, .of_journal rfl⟩
    exact ⟨⟨hreachable, hrunning, h.listening, hlisted, hkept, hservice.1⟩, hservice.2⟩
  | svc act =>
    simp only [TcpService.step, Option.ite_none_right_eq_some] at hs
    obtain ⟨hallows, hs⟩ := hs
    obtain ⟨svc, hsvc, rfl⟩ := Option.map_eq_some_iff.mp hs
    have hclose : act ≠ .closeAdapter a := by
      rintro rfl
      exact of_decide_eq_true hallows h.listed
    obtain ⟨hconnected, hanswers⟩ := h.connected.step hflag hfits hsvc
      (fun caps hput => hguard.pings caps (hput ▸ rfl)) hclose haccepts
    exact ⟨⟨hreachable, h.running, h.listening, h.listed, h.kept, hconnected⟩, hanswers⟩

theorem order_step {act : Action} (h : TcpService.step e s act = some s') :
    (s'.svc.disp.adapters a).serializeFlags = (s.svc.disp.adapters a).serializeFlags := by
  obtain heq | ⟨x, hx⟩ := step_svc h
  · rw [heq]
  · obtain heq | ⟨y, hy, -⟩ := Service.step_disp hx
    · rw [heq]
    · exact (Dispatcher.step_effect hy).order a

theorem Joined.run {as : List Action} (h : Joined e a info s)
    (hflag : hasMonitorFlag info.flags = false)
    (hfits : ∀ order, e.fits order ResponseSerializer.serializePong = true)
    (hrun : ((system e).guard (Pinging e a)).Run s as t) :
    Joined e a info t ∧ s.svc.Answers a t.svc := by
  induction hrun with
  | nil s => exact ⟨h, .of_journal rfl⟩
  | cons hst _ ih =>
    obtain ⟨hnext, hanswers⟩ := h.step hflag hfits hst.1 hst.2
    obtain ⟨hlast, hanswers'⟩ := ih hnext
    exact ⟨hlast, hanswers.trans hanswers' (order_step hst.2)⟩

/-- A client that connects and registers with the given flags. -/
def sampleJoin (flags : Word) : List Action :=
  [.select 0 true, .poll (.poll 0), .poll (.accept 0 0),
    .svc (.put 0 (RequestSerializer.serializeAuth floraVersion "c" 1 flags)),
    .poll (.read 0 true 1), .svc (.loop 0), .svc (.handle 0 0), .svc (.handle 0 0)]

theorem initial_default : Initial {} := ⟨{}, Service.initial_default, rfl⟩

/-- Two clients, of which one pings and the other is silent. The read of the second ping lasts until
a millisecond after the other client is due. -/
def sampleSlowRead : List Action := sampleJoin 0 ++
  [.poll (.accept 1 1), .select 1 true, .poll (.poll 30000000000),
    .svc (.put 0 RequestSerializer.serializePing), .poll (.read 0 true 30000000000),
    .select 30000000000 true, .poll (.poll 59999000000),
    .svc (.put 0 RequestSerializer.serializePing), .poll (.read 0 true 60001000001)]

/-- Then `select` can only fail, and the client that pings is dropped. -/
example : execute (step Dispatcher.sampleEnv) {} (sampleSlowRead ++ [.select 60001000001 true]) =
    none := rfl

example : (execute (step Dispatcher.sampleEnv) {} (sampleSlowRead ++ [.select 60001000001 false,
    .poll (.poll 60001000001), .release 0])).map (fun s => s.svc.disp.live 0) = some false := rfl

end TcpService

end Flora
