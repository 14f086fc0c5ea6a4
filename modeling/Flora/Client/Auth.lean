import Flora.Client.Receive
import Flora.Client.Commands

/-! # Waiting for the auth response

`Client::connect` starts the receive thread and then runs `auth`, which sends the request and waits
on `acond` without a predicate. The two threads meet in `auth_result`: `auth` stores it while it
holds `amutex` and gives the mutex up only to wait, so whoever finds `auth_result` set and gets the
mutex finds `auth` waiting. What the handler does after `auth` is left open. -/

namespace Flora

open TransitionSystem

universe u

/-- How far `auth` is: before `auth_result` is stored, between the store and the end of `send`
(with `amutex`), in `acond.wait`, or behind it with its result. -/
inductive AuthPc where
  | start
  | sending
  | waiting
  | returned (result : Word)
  deriving DecidableEq, Repr

/-- How far the receive thread is with leaving `recv_loop`: it is still in the loop, has left it
over a failed read or a rejected frame and tests `auth_result` next, has found it set and locks
`amutex` next, has notified and clears `auth_result` next, calls `iclose` next, has closed the
connection there, or has ended. -/
inductive ExitPc where
  | looping
  | failed
  | locking
  | clearing
  | leaving
  | closed
  | terminated
  deriving DecidableEq, Repr

/-- What the command handlers and `auth` share; `rest` is what else `handle_cmd_after_auth` uses. -/
structure Handshake (τ : Type u) where
  /-- `cmd_handler` is `handle_cmd_after_auth`. -/
  afterAuth : Bool := false
  /-- `auth_result` is not null. -/
  authResult : Bool := false
  auth : AuthPc := .start
  /-- `ares.result`. -/
  result : Word := cliEauth
  /-- The waiting `auth` has been notified. -/
  notified : Bool := false
  rest : τ

structure Connect (τ : Type u) where
  thread : RecvThread (Handshake τ)
  exit : ExitPc := .looping

namespace Connect

variable {τ : Type u}

/-- `begin` goes up to the store of `auth_result`, unless the request does not fit; `send` tells
whether the request was written. -/
inductive Action where
  | begin (fits : Bool)
  | send (ok : Bool)
  | wake
  | recv (received : Option (List Byte))
  | handle
  | test
  | notify
  | clear
  | iclose
  | terminate
  deriving DecidableEq, Repr

/-- The handlers. `handle_cmd_before_auth` notifies `auth` of a response that can be read. -/
def cmdHandler (afterAuth : CmdHandler τ) : CmdHandler (Handshake τ) := fun h cmd resp =>
  if h.afterAuth then
    let (rest, ok) := afterAuth h.rest cmd resp
    ({ h with rest }, ok)
  else
    match Client.handleCmdBeforeAuth cmd resp with
    | .ok (.auth result _) => ({ h with result, notified := true, afterAuth := true }, true)
    | _ => (h, false)

variable (f : CapsFormat) (afterAuth : CmdHandler τ) (c : Connect τ)

def setHandshake (h : Handshake τ) : Connect τ := { c with thread := { c.thread with state := h } }

/-- The step from `c.thread` to `t` hands an auth response to `handle_cmd_before_auth`, which locks
`auth_result->amutex`. -/
def LocksAuth (t : RecvThread (Handshake τ)) : Prop :=
  c.thread.state.afterAuth = false ∧ cmdAuthResp ∈ (t.handed.drop c.thread.handed.length).map Prod.fst

instance (t : RecvThread (Handshake τ)) : Decidable (c.LocksAuth t) :=
  inferInstanceAs (Decidable (_ ∧ _))

/-- The receive thread has gone on to `t`. A full buffer leads to `iclose` at once, every other way
out of the loop to the test of `auth_result` (which decides on the error). -/
def ofThread (t : RecvThread (Handshake τ)) : Connect τ where
  thread := t
  exit := match t.pc with
    | .stopped err => if err = cliEinsuffBuf then .leaving else .failed
    | _ => .looping

/-- `amutex` can be locked through `auth_result` only while `auth` waits: before, `auth` holds it or
`auth_result` is null; afterwards `auth_result` is null and the mutex gone. -/
def step : Action → Option (Connect τ)
  | .begin fits =>
    let h := c.thread.state
    if h.auth = .start then some (c.setHandshake (if fits then
      { h with auth := .sending, authResult := true } else { h with auth := .returned cliEauth }))
    else none
  | .send ok =>
    let h := c.thread.state
    if h.auth = .sending then
      if ok then
        if c.exit = .closed ∨ c.exit = .terminated then none
        else some (c.setHandshake { h with auth := .waiting })
      else some (c.setHandshake { h with auth := .returned cliEauth, authResult := false })
    else none
  | .wake =>
    let h := c.thread.state
    if h.auth = .waiting then
      some (c.setHandshake { h with auth := .returned h.result, authResult := false })
    else none
  | .recv received =>
    if c.exit = .looping then (c.thread.recv received false).map ofThread else none
  | .handle =>
    if c.exit = .looping then
      (c.thread.handle f (cmdHandler afterAuth) false).bind fun t =>
        if c.LocksAuth t → c.thread.state.auth = .waiting then some (ofThread t) else none
    else none
  | .test =>
    if c.exit = .failed then
      some { c with exit := if c.thread.state.authResult then .locking else .leaving }
    else none
  | .notify =>
    let h := c.thread.state
    if c.exit = .locking ∧ h.auth = .waiting then
      some { c.setHandshake { h with notified := true } with exit := .clearing }
    else none
  | .clear =>
    if c.exit = .clearing then
      some { c.setHandshake { c.thread.state with authResult := false } with exit := .leaving }
    else none
  | .iclose => if c.exit = .leaving then some { c with exit := .closed } else none
  | .terminate => if c.exit = .closed then some { c with exit := .terminated } else none

/-- `connect` has started the receive thread and calls `auth`. -/
def Initial (bufsize : Word) (rest : τ) : Prop :=
  ∃ thread, RecvThread.Initial thread bufsize { rest } ∧ c = { thread }

def system (bufsize : Word) (rest : τ) : System (Connect τ) Action :=
  System.ofStep (Initial · bufsize rest) (step f afterAuth)

def Waits : Prop := c.thread.state.auth = .waiting ∧ c.thread.state.notified = false

instance : Decidable c.Waits := inferInstanceAs (Decidable (_ ∧ _))

/-- Nobody is left to release `auth`. -/
def Stuck : Prop := c.exit = .terminated ∧ c.Waits

/-- The request is not sent when the receive thread has already decided to leave without a
notification, and this thread does not leave over a full buffer while `auth` waits. -/
def InTime : Action → Prop
  | .send true => c.exit ≠ .leaving
  | .recv _ => c.thread.pc = .receiving → c.thread.rbufOff = c.thread.bufsize → ¬ c.Waits
  | _ => True

/-- As long as `auth` waits unnotified, `auth_result` is set and the receive thread has not got to
its last notification. -/
structure Released (c : Connect τ) : Prop where
  fresh : c.thread.state.auth = .start ∨ c.thread.state.auth = .sending →
    c.thread.state.notified = false ∧ c.exit ≠ .clearing
  sending : c.thread.state.auth = .sending → c.thread.state.authResult = true
  waiting : c.Waits → c.thread.state.authResult = true ∧
    (c.exit = .looping ∨ c.exit = .failed ∨ c.exit = .locking)

variable {f : CapsFormat} {afterAuth : CmdHandler τ} {c c' : Connect τ}

theorem exit_ofThread {t : RecvThread (Handshake τ)} (h : t.pc ≠ .stopped cliEinsuffBuf) :
    (ofThread t).exit = .looping ∨ (ofThread t).exit = .failed := by
  unfold ofThread
  dsimp only
  split
  · rename_i err hpc
    refine .inr (if_neg ?_)
    rintro rfl
    exact h hpc
  · exact .inl rfl

theorem recv_cases {σ : Type u} {r t : RecvThread σ} {received : Option (List Byte)}
    {authWaiting : Bool} (h : r.recv received authWaiting = some t) :
    r.pc = .receiving ∧ t.state = r.state ∧
      (r.rbufOff = r.bufsize ∨ t.pc ≠ .stopped cliEinsuffBuf) := by
  simp only [RecvThread.recv, Option.ite_none_right_eq_some] at h
  obtain ⟨hpc, h⟩ := h
  split at h
  · rename_i hfull
    cases h
    exact ⟨hpc, rfl, .inl hfull⟩
  · simp only [Option.ite_none_right_eq_some] at h
    obtain ⟨-, h⟩ := h
    split at h
    · cases h
      exact ⟨hpc, rfl, .inr (by simp)⟩
    · cases h
      refine ⟨hpc, rfl, .inr ?_⟩
      cases authWaiting <;> simp [RecvThread.stop, RecvThread.failure] <;> decide

/-- A turn of `handle_received` hands at most one message over, and does not stop over a full
buffer. -/
theorem handle_cases {σ : Type u} {handler : CmdHandler σ} {r t : RecvThread σ}
    (h : r.handle f handler false = some t) : t.pc ≠ .stopped cliEinsuffBuf ∧
      (t.state = r.state ∨ ∃ cmd resp, t.handed = r.handed ++ [(cmd, resp)] ∧
        t.state = (handler r.state cmd resp).1) := by
  have hfailure : (RecvPc.stopped (RecvThread.failure false)) ≠ .stopped cliEinsuffBuf := by decide
  unfold RecvThread.handle at h
  split at h
  · rename_i size off _
    split at h
    · split at h
      · cases h
        exact ⟨nofun, .inl rfl⟩
      · split at h
        · cases h
          exact ⟨hfailure, .inl rfl⟩
        · rename_i length _
          split at h
          · cases h
            exact ⟨nofun, .inl rfl⟩
          · cases h
            unfold RecvThread.handleFrame
            split
            · exact ⟨hfailure, .inl rfl⟩
            · split
              · exact ⟨hfailure, .inl rfl⟩
              · rename_i cmd resp _
                refine ⟨?_, .inr ⟨cmd, resp, rfl, rfl⟩⟩
                dsimp only
                split
                · nofun
                · exact hfailure
    · cases h
      exact ⟨nofun, .inl rfl⟩
  · cases h

/-- A handler leaves `auth` where it is; only an auth response that `handle_cmd_before_auth` gets
notifies it. -/
theorem cmdHandler_cases (afterAuth : CmdHandler τ) (h : Handshake τ) (cmd : Word) (resp : Caps) :
    let h' := (cmdHandler afterAuth h cmd resp).1
    h'.auth = h.auth ∧ h'.authResult = h.authResult ∧
      (h'.notified = h.notified ∨ h'.notified = true ∧ h.afterAuth = false ∧ cmd = cmdAuthResp) := by
  unfold cmdHandler
  split
  · exact ⟨rfl, rfl, .inl rfl⟩
  · rename_i hbefore
    split
    · rename_i result version hauth
      refine ⟨rfl, rfl, .inr ⟨rfl, Bool.eq_false_iff.mpr hbefore, ?_⟩⟩
      unfold Client.handleCmdBeforeAuth at hauth
      split at hauth
      · assumption
      · cases hauth
    · exact ⟨rfl, rfl, .inl rfl⟩

theorem Released.move (h : Released c) {x : Handshake τ} (hfresh : x.auth ≠ .start)
    (hnotified : x.notified = c.thread.state.notified)
    (hsending : x.auth = .sending → c.thread.state.auth = .start ∧ x.authResult = true)
    (hwaiting : x.auth ≠ .waiting) : Released (c.setHandshake x) where
  fresh hauth := by
    obtain hauth | hauth := hauth
    · exact absurd hauth hfresh
    · obtain ⟨hnot, hexit⟩ := h.fresh (.inl (hsending hauth).1)
      exact ⟨hnotified.trans hnot, hexit⟩
  sending hauth := (hsending hauth).2
  waiting hwaits := absurd hwaits.1 hwaiting

theorem Released.loop (h : Released c) {t : RecvThread (Handshake τ)}
    (hauth : t.state.auth = c.thread.state.auth)
    (hresult : t.state.authResult = c.thread.state.authResult)
    (hnotified : t.state.notified = c.thread.state.notified ∨
      t.state.notified = true ∧ c.thread.state.auth = .waiting)
    (hfull : t.pc ≠ .stopped cliEinsuffBuf) : Released (ofThread t) where
  fresh hstart := by
    have hstart : t.state.auth = .start ∨ t.state.auth = .sending := hstart
    rw [hauth] at hstart
    obtain heq | ⟨-, hwait⟩ := hnotified
    · refine ⟨heq.trans (h.fresh hstart).1, ?_⟩
      obtain hloop | hfail := exit_ofThread hfull
      · rw [hloop]
        nofun
      · rw [hfail]
        nofun
    · rw [hwait] at hstart
      cases hstart <;> contradiction
  sending hsend := by
    have hsend : t.state.auth = .sending := hsend
    rw [hauth] at hsend
    exact hresult.trans (h.sending hsend)
  waiting hwaits := by
    obtain ⟨hwait, hnot⟩ : t.state.auth = .waiting ∧ t.state.notified = false := hwaits
    rw [hauth] at hwait
    obtain heq | ⟨htrue, -⟩ := hnotified
    · rw [heq] at hnot
      refine ⟨hresult.trans (h.waiting ⟨hwait, hnot⟩).1, ?_⟩
      obtain hloop | hfail := exit_ofThread hfull
      · exact .inl hloop
      · exact .inr (.inl hfail)
    · rw [htrue] at hnot
      cases hnot

theorem step_handle (h : step f afterAuth c .handle = some c') : ∃ t,
    c.thread.handle f (cmdHandler afterAuth) false = some t ∧
      (c.LocksAuth t → c.thread.state.auth = .waiting) ∧ c' = ofThread t := by
  simp only [step, Option.ite_none_right_eq_some] at h
  obtain ⟨t, ht, h⟩ := Option.bind_eq_some_iff.mp h.2
  rw [Option.ite_none_right_eq_some] at h
  exact ⟨t, ht, h.1, (Option.some.inj h.2).symm⟩

theorem Released.handle (hc : Released c) (h : step f afterAuth c .handle = some c') :
    Released c' := by
  obtain ⟨t, ht, hlock, rfl⟩ := step_handle h
  obtain ⟨hfull, hstate | ⟨cmd, resp, hhanded, hstate⟩⟩ := handle_cases ht
  · exact hc.loop (by rw [hstate]) (by rw [hstate]) (.inl (by rw [hstate])) hfull
  · obtain ⟨hauth, hresult, hnotified⟩ := cmdHandler_cases afterAuth c.thread.state cmd resp
    rw [← hstate] at hauth hresult hnotified
    refine hc.loop hauth hresult (hnotified.imp_right fun ⟨htrue, hbefore, hcmd⟩ => ⟨htrue, ?_⟩) hfull
    apply hlock
    refine ⟨hbefore, ?_⟩
    rw [hhanded, List.drop_left, hcmd]
    exact List.mem_singleton_self _

theorem Released.recv (hc : Released c) {received : Option (List Byte)}
    (h : step f afterAuth c (.recv received) = some c') (hguard : c.InTime (.recv received)) :
    Released c' := by
  simp only [step, Option.ite_none_right_eq_some] at h
  obtain ⟨hexit, h⟩ := h
  obtain ⟨t, ht, rfl⟩ := Option.map_eq_some_iff.mp h
  obtain ⟨hpc, hstate, hroom⟩ := recv_cases ht
  by_cases hfull : t.pc = .stopped cliEinsuffBuf
  · have hidle : ¬ c.Waits := hguard hpc (hroom.resolve_right (not_not.mpr hfull))
    have hleaving : (ofThread t).exit = .leaving := by simp [ofThread, hfull]
    refine ⟨fun hstart => ⟨?_, by rw [hleaving]; nofun⟩, fun hsend => ?_, fun hwaits => ?_⟩
    · change t.state.notified = false
      rw [hstate]
      exact (hc.fresh (hstate ▸ hstart)).1
    · change t.state.authResult = true
      rw [hstate]
      exact hc.sending (hstate ▸ hsend)
    · have hwaits : t.state.auth = .waiting ∧ t.state.notified = false := hwaits
      rw [hstate] at hwaits
      exact absurd hwaits hidle
  · exact hc.loop (by rw [hstate]) (by rw [hstate]) (.inl (by rw [hstate])) hfull

theorem released_step {act : Action} (hc : Released c) (h : step f afterAuth c act = some c')
    (hguard : c.InTime act) : Released c' := by
  cases act with
  | begin fits =>
    simp only [step, Option.ite_none_right_eq_some, Option.some.injEq] at h
    obtain ⟨hstart, rfl⟩ := h
    cases fits with
    | true => exact hc.move nofun rfl (fun _ => ⟨hstart, rfl⟩) nofun
    | false => exact hc.move nofun rfl nofun nofun
  | send ok =>
    simp only [step, Option.ite_none_right_eq_some] at h
    obtain ⟨hsending, h⟩ := h
    cases ok with
    | true =>
      simp only [if_true, Option.ite_none_left_eq_some, Option.some.injEq] at h
      obtain ⟨hopen, rfl⟩ := h
      refine ⟨fun hstart => ?_, nofun, fun _ => ⟨hc.sending hsending, ?_⟩⟩
      · cases hstart <;> contradiction
      · have hclearing := (hc.fresh (.inr hsending)).2
        have hleaving : c.exit ≠ .leaving := hguard
        change c.exit = .looping ∨ c.exit = .failed ∨ c.exit = .locking
        cases hexit : c.exit <;> simp_all
    | false =>
      cases h
      exact hc.move nofun rfl nofun nofun
  | wake =>
    simp only [step, Option.ite_none_right_eq_some, Option.some.injEq] at h
    obtain ⟨-, rfl⟩ := h
    exact hc.move nofun rfl nofun nofun
  | recv received => exact hc.recv h hguard
  | handle => exact hc.handle h
  | test =>
    simp only [step, Option.ite_none_right_eq_some, Option.some.injEq] at h
    obtain ⟨hexit, rfl⟩ := h
    refine ⟨fun hstart => ⟨(hc.fresh hstart).1, ?_⟩, hc.sending, fun hwaits => ?_⟩
    · dsimp only
      split <;> nofun
    · obtain ⟨hset, -⟩ := hc.waiting hwaits
      refine ⟨hset, .inr (.inr ?_)⟩
      exact if_pos hset
  | notify =>
    simp only [step, Option.ite_none_right_eq_some, Option.some.injEq] at h
    obtain ⟨⟨-, hwaiting⟩, rfl⟩ := h
    refine ⟨fun hstart => ?_, fun hsend => ?_, nofun⟩
    · have hstart : c.thread.state.auth = .start ∨ c.thread.state.auth = .sending := hstart
      rw [hwaiting] at hstart
      cases hstart <;> contradiction
    · exact hc.sending hsend
  | clear =>
    simp only [step, Option.ite_none_right_eq_some, Option.some.injEq] at h
    obtain ⟨hexit, rfl⟩ := h
    refine ⟨fun hstart => ⟨(hc.fresh hstart).1, nofun⟩, fun hsend => ?_, fun hwaits => ?_⟩
    · exact absurd hexit (hc.fresh (.inr hsend)).2
    · have hlate := (hc.waiting hwaits).2
      rw [hexit] at hlate
      simp at hlate
  | iclose =>
    simp only [step, Option.ite_none_right_eq_some, Option.some.injEq] at h
    obtain ⟨hexit, rfl⟩ := h
    refine ⟨fun hstart => ⟨(hc.fresh hstart).1, nofun⟩, hc.sending, fun hwaits => ?_⟩
    have hlate := (hc.waiting hwaits).2
    rw [hexit] at hlate
    simp at hlate
  | terminate =>
    simp only [step, Option.ite_none_right_eq_some, Option.some.injEq] at h
    obtain ⟨hexit, rfl⟩ := h
    refine ⟨fun hstart => ⟨(hc.fresh hstart).1, nofun⟩, hc.sending, fun hwaits => ?_⟩
    have hlate := (hc.waiting hwaits).2
    rw [hexit] at hlate
    simp at hlate

variable {bufsize : Word} {rest : τ}

theorem released_reachable
    (h : ((system f afterAuth bufsize rest).guard InTime).Reachable c) : Released c := by
  apply h.invariant (P := Released)
  · rintro c ⟨thread, ⟨rbuffer, -, rfl⟩, rfl⟩
    exact ⟨fun _ => ⟨rfl, nofun⟩, nofun, nofun⟩
  · exact fun c act c' hc hst => released_step hc hst.2 hst.1

theorem stuck_of_leaving (h : (system f afterAuth bufsize rest).Reachable c)
    (hexit : c.exit = .leaving) (hwaits : c.Waits) :
    ∃ t, (system f afterAuth bufsize rest).Reachable t ∧ t.Stuck := by
  have hclose : step f afterAuth c .iclose = some { c with exit := .closed } := if_pos hexit
  have hend : step f afterAuth { c with exit := .closed } .terminate =
      some { c with exit := .terminated } := rfl
  exact ⟨_, (h.next hclose).next hend, rfl, hwaits⟩

/-- If the steps of a run are in time, no state of it has the receive thread ended and `auth` in its
wait unnotified; and every step that is not in time makes such a state reachable. -/
theorem auth_released (h : ((system f afterAuth bufsize rest).guard InTime).Reachable c) :
    ¬ c.Stuck ∧ ∀ act c', step f afterAuth c act = some c' → ¬ c.InTime act →
      ∃ t, (system f afterAuth bufsize rest).Reachable t ∧ t.Stuck := by
  have hc := released_reachable h
  constructor
  · rintro ⟨hexit, hwaits⟩
    have hlate := (hc.waiting hwaits).2
    rw [hexit] at hlate
    simp at hlate
  · intro act c' hst hlate
    have hreach := h.of_guard.next hst
    cases act with
    | send ok =>
      cases ok with
      | true =>
        have hexit : c.exit = .leaving := not_not.mp hlate
        simp only [step, Option.ite_none_right_eq_some, if_true, Option.ite_none_left_eq_some,
          Option.some.injEq] at hst
        obtain ⟨hsending, -, rfl⟩ := hst
        exact stuck_of_leaving hreach hexit ⟨rfl, (hc.fresh (.inr hsending)).1⟩
      | false => exact absurd trivial hlate
    | recv received =>
      simp only [InTime, Classical.not_imp, not_not] at hlate
      obtain ⟨hpc, hfull, hwaits⟩ := hlate
      simp only [step, Option.ite_none_right_eq_some] at hst
      obtain ⟨t, ht, rfl⟩ := Option.map_eq_some_iff.mp hst.2
      unfold RecvThread.recv at ht
      rw [if_pos hpc, if_pos hfull] at ht
      cases ht
      exact stuck_of_leaving hreach rfl hwaits
    | _ => exact absurd trivial hlate

def sampleConnect : Connect Unit :=
  { thread := { rbuffer := List.replicate 32768 0, bufsize := 32768, state := { rest := () } } }

theorem initial_sampleConnect : Initial sampleConnect 32768 () :=
  ⟨_, ⟨List.replicate 32768 0, List.length_replicate, rfl⟩, rfl⟩

theorem auth_released_after_close : ∃ c : Connect Unit,
    execute (step (.sample []) fun s _ _ => (s, true)) sampleConnect [.begin true, .recv none,
      .send true, .test, .notify, .clear, .iclose, .terminate] = some c ∧
    c.exit = .terminated ∧ c.thread.state.auth = .waiting ∧ ¬ c.Stuck := by
  have hrun : ((system (.sample []) (fun s _ _ => (s, true)) 32768 ()).guard InTime).Run
      sampleConnect [.begin true, .recv none, .send true, .test, .notify, .clear, .iclose,
        .terminate] _ :=
    .cons ⟨trivial, rfl⟩ (.cons ⟨fun _ hfull => absurd hfull (by decide), rfl⟩ (.cons ⟨nofun, rfl⟩
      (.cons ⟨trivial, rfl⟩ (.cons ⟨trivial, rfl⟩ (.cons ⟨trivial, rfl⟩ (.cons ⟨trivial, rfl⟩
        (.cons ⟨trivial, rfl⟩ (.nil _))))))))
  exact ⟨_, rfl, rfl, rfl, (auth_released ⟨_, _, initial_sampleConnect, hrun⟩).1⟩

/-- The beginning of a frame of 32769 bytes, which is one more than the buffer holds. -/
def oversizedFront : List Byte := [0, 0, 0, 0, 0, 0, 128, 1] ++ List.replicate 32760 0

theorem length_oversizedFront : oversizedFront.length = 32768 := by
  rw [oversizedFront, List.length_append, List.length_replicate]
  rfl

theorem recv_fills (rbuffer : List Byte) (state : Handshake Unit) {chunk : List Byte}
    (h : chunk.length = 32768) :
    RecvThread.recv { rbuffer := rbuffer, bufsize := 32768, state := state } (some chunk) false =
      some {
        rbuffer := Buffer.store rbuffer 0 chunk
        bufsize := 32768
        pc := .handling 32768 0
        state := state
        received := chunk } := by
  have hfree : (0 : Word) ≠ 32768 := by decide
  have hroom : chunk.length ≤ (32768 - 0 : Word).toNat := by
    rw [h]
    decide
  cases chunk with
  | nil => cases h
  | cons b bs =>
    rw [RecvThread.recv, if_pos rfl, if_neg hfree, Option.getD_some, if_pos hroom]
    dsimp only
    rw [h]
    rfl

/-- `auth` waits, and the receive thread has read what fills its buffer. -/
def sampleFilled : Connect Unit where
  thread :=
    { rbuffer := Buffer.store (List.replicate 32768 0) 0 oversizedFront
      bufsize := 32768
      pc := .handling 32768 0
      state := { auth := .waiting, authResult := true, rest := () }
      received := oversizedFront }

theorem sampleFilled_reachable (f : CapsFormat) (afterAuth : CmdHandler Unit) :
    (system f afterAuth 32768 ()).Reachable sampleFilled := by
  let waiting : Handshake Unit := { auth := .waiting, authResult := true, rest := () }
  have hwaits : execute (step f afterAuth) sampleConnect [.begin true, .send true] =
      some (sampleConnect.setHandshake waiting) := rfl
  have hreach : (system f afterAuth 32768 ()).Reachable (sampleConnect.setHandshake waiting) :=
    execute_reachable initial_sampleConnect hwaits
  apply hreach.next (a := .recv (some oversizedFront))
  have hrecv := recv_fills (List.replicate 32768 0) waiting length_oversizedFront
  change ((sampleConnect.setHandshake waiting).thread.recv (some oversizedFront) false).map
    ofThread = some sampleFilled
  change (RecvThread.recv { rbuffer := List.replicate 32768 0, bufsize := 32768, state := waiting }
    (some oversizedFront) false).map ofThread = some sampleFilled
  rw [hrecv]
  rfl

/-- A frame that is longer than the buffer: the receive thread leaves over the full buffer and does
not look at `auth_result`. -/
theorem auth_released_fails_oversized :
    ¬ ∀ (f : CapsFormat) (afterAuth : CmdHandler Unit) (bufsize : Word) (c : Connect Unit),
      32768 ≤ bufsize.toNat → (system f afterAuth bufsize ()).Reachable c → ¬ c.Stuck := by
  intro h
  have hrun : execute (step (.sample []) fun s _ _ => (s, true)) sampleFilled
    [.handle, .recv none, .iclose, .terminate] = some _ := rfl
  exact h (.sample []) _ 32768 _ (by decide)
    ((sampleFilled_reachable _ _).run (execute_run hrun)) ⟨rfl, rfl, rfl⟩

end Connect

end Flora
