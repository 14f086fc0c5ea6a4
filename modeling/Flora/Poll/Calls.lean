import Flora.Poll.Loop
import Mathlib.Data.List.Induction

/-! # System calls of a poll

Every call on a descriptor reaches the end it is meant for. For the poll of TCP connections this
needs that it is started once: the list of active adapters is not cleared when the run thread ends,
and after another start its entries would name descriptors that belong to other connections. -/

namespace Flora

open TransitionSystem

/-- The run thread will call `select` again or has not been asked to stop. -/
def PollPc.live : PollPc → Bool
  | .closing _ _ back => back.isSome
  | .closingFd _ _ back => back.isSome
  | .erasing _ _ back => back.isSome
  | .releasing => false
  | .exited => false
  | _ => true

namespace SocketPoll

variable {tcp : Bool} {s s' : SocketPoll} {a b : AdapterId} {fd : Nat} {k : SocketHandle}

theorem sound_reachable (h : (system tcp).Reachable s) : Sound s := by
  apply h.invariant (P := Sound)
  · rintro s ⟨table, beep, htable, -, rfl⟩
    have hforeign {fd : Nat} {c : OpenFile} (hc : c ≠ .foreign) : table fd ≠ some c := by
      intro hfd
      exact hc (Option.some.inj (hfd.symm.trans (htable fd (by rw [hfd]; nofun))))
    refine ⟨⟨fun fd a => ?_, fun fd n => ?_, nofun, fun fd a => ?_, nofun, nofun, nofun⟩,
      ⟨nofun, nofun⟩, ⟨nofun, fun _ => ⟨rfl, rfl, rfl⟩, iff_of_false nofun nofun, nofun,
      fun _ _ => AList.lookup_empty _, nofun⟩, nofun⟩
    · exact iff_of_false (hforeign nofun) (by simp)
    · exact iff_of_false (hforeign nofun) (by simp)
    · simp
  · exact fun s act t hs hst => sound_step hs hst

def Action.starts : Action → Bool
  | .start _ => true
  | _ => false

/-- A poll of TCP connections is started at most once. -/
def StartsOnce (tcp : Bool) (s : SocketPoll) (act : Action) : Prop :=
  tcp = true → act.starts = true → s.started = true ∨ s.starts = 0

instance (s : SocketPoll) (act : Action) : Decidable (StartsOnce tcp s act) :=
  inferInstanceAs (Decidable (_ → _ → _))

/-- The keepalive list is in use: the poll has not been started, or its first run thread polls. -/
def Polls (s : SocketPoll) : Prop := s.run.live = true ∧ (s.starts = 0 ∨ s.run ≠ .absent)

/-- While the run thread polls, the keepalive list is that of `BeepSocketPoll`, and its adapters are
the entries that are not being deleted. -/
structure Refines (s : SocketPoll) : Prop where
  numbered : s.run ≠ .absent → s.starts ≠ 0
  known : ∀ a, s.beep.lastAction a ≠ none → s.sockets a ≠ none
  reachable : Polls s → BeepSocketPoll.system.Reachable s.beep
  adapters : Polls s → ∀ a, a ∈ s.beep.adapters ↔
    ∃ fd, s.adapters.lookup fd = some a ∧ s.run.entry ≠ some (fd, a)

theorem Refines.of_eq (h : Refines s) (hstarts : s'.starts = s.starts)
    (hsockets : ∀ a, s.sockets a ≠ none → s'.sockets a ≠ none) (hbeep : s'.beep = s.beep)
    (hadapters : s'.adapters = s.adapters) (hrun : s'.run ≠ .absent → s.run ≠ .absent)
    (hpolls : Polls s' → Polls s ∧ s'.run.entry = s.run.entry) : Refines s' where
  numbered hr := hstarts ▸ h.numbered (hrun hr)
  known a ha := hsockets a (h.known a (hbeep ▸ ha))
  reachable hp := hbeep ▸ h.reachable (hpolls hp).1
  adapters hp := by
    rw [hbeep, hadapters, (hpolls hp).2]
    exact h.adapters (hpolls hp).1

/-- A step of another thread. -/
theorem Refines.same (h : Refines s) (hstarts : s'.starts = s.starts)
    (hsockets : ∀ a, s.sockets a ≠ none → s'.sockets a ≠ none) (hbeep : s'.beep = s.beep)
    (hadapters : s'.adapters = s.adapters) (hrun : s'.run = s.run) : Refines s' := by
  refine h.of_eq hstarts hsockets hbeep hadapters (hrun ▸ id) fun hp => ⟨?_, congrArg _ hrun⟩
  unfold Polls at hp ⊢
  rw [hrun, hstarts] at hp
  exact hp

/-- The run thread goes on without a look at the keepalive list. -/
theorem Refines.move (h : Refines s) (hstarts : s'.starts = s.starts)
    (hsockets : ∀ a, s.sockets a ≠ none → s'.sockets a ≠ none) (hbeep : s'.beep = s.beep)
    (hadapters : s'.adapters = s.adapters) (hrun : s.run ≠ .absent)
    (hlive : s'.run.live = true → s.run.live = true ∧ s'.run.entry = s.run.entry) : Refines s' :=
  h.of_eq hstarts hsockets hbeep hadapters (fun _ => hrun) fun hp =>
    ⟨⟨(hlive hp.1).1, .inr hrun⟩, (hlive hp.1).2⟩

theorem beep_step {p q : BeepSocketPoll} {act : BeepSocketPoll.Action} {now : Nat}
    (hnow : act.clock = some now) (hclock : p.clock ≤ now) (hp : p.perform act = some q) :
    p.step act = some { q with clock := now } := by
  unfold BeepSocketPoll.step
  rw [hnow]
  simp [Nat.not_lt.mpr hclock, hp]

theorem Tables.lookup_unique (h : Tables s) {x y : Nat} (hx : s.adapters.lookup x = some a)
    (hy : s.adapters.lookup y = some a) : x = y := by
  obtain ⟨k, hk, rfl, -⟩ := (h.listed_iff x a).mp hx
  obtain ⟨k', hk', rfl, -⟩ := (h.listed_iff y a).mp hy
  cases hk.symm.trans hk'
  rfl

theorem Refines.doPoll (h : Refines s) {ready : Option (List Nat)} {now : Nat}
    (hrun : s.run = .polling) (hclock : s.beep.clock ≤ now) :
    Refines (s.doPoll true ready now) := by
  have hpolls : Polls s := by
    rw [Polls, hrun]
    exact ⟨rfl, .inr nofun⟩
  have hentry : s.run.entry = none := by rw [hrun]; rfl
  have hnum : s.starts ≠ 0 := h.numbered (by rw [hrun]; nofun)
  have hreach := h.reachable hpolls
  have hstep : s.beep.step (.poll now) =
      some { s.beep.shutdownTimeoutAdapter now with clock := now } := beep_step rfl hclock rfl
  obtain ⟨calls, beep, -, rfl, ⟨-, heq⟩ | ⟨l, -, heq⟩⟩ := doPoll_eq (s := s) true ready now
  · rw [heq]
    refine ⟨fun _ => hnum, h.known, fun hp => ?_, fun hp => ?_⟩
    · cases hp.1
    · cases hp.1
  · rw [heq]
    refine ⟨fun _ => hnum, h.known, fun _ => hreach.next hstep, fun _ => ?_⟩
    have hadapters := h.adapters hpolls
    rw [hentry] at hadapters
    exact hadapters

theorem Refines.doAccept (hs : Sound s) (h : Refines s) {conn : Option (Nat × AdapterId)} {now : Nat}
    (hst : step true s (.doAccept conn now) = some s') : Refines s' := by
  obtain ⟨scan, t, hrun, -, -, hclock, rfl, hs'⟩ := step_doAccept hst
  have hpolls : Polls s := by
    rw [Polls, hrun]
    exact ⟨rfl, .inr nofun⟩
  have hentry : s.run.entry = none := by rw [hrun]; rfl
  have hnum : s.starts ≠ 0 := h.numbered (by rw [hrun]; nofun)
  have hadapters := h.adapters hpolls
  rw [hentry] at hadapters
  obtain rfl | ⟨fd, a, -, hfree, hnew, haccept⟩ := hs'
  · exact ⟨fun _ => hnum, h.known, fun _ => h.reachable hpolls, fun _ => hadapters⟩
  · have hlookup := lookup_none_of_free hs.toTables hfree (by rw [hrun]; rfl)
    have hs' := accept_eq haccept hlookup
    subst hs'
    have hheard : s.beep.lastAction a = none := by
      by_contra hne
      exact h.known a hne hnew
    have hstep : s.beep.step (.accept a now) = some { s.beep.doAccept a now with clock := now } :=
      beep_step rfl hclock (if_pos hheard)
    refine ⟨fun _ => hnum, ?_, fun _ => (h.reachable hpolls).next hstep, fun _ b => ?_⟩
    · intro b hb
      change Function.update s.beep.lastAction a (some now) b ≠ none at hb
      change Function.update s.sockets a _ b ≠ none
      by_cases hba : b = a
      · subst hba
        rw [Function.update_self]
        nofun
      · rw [Function.update_of_ne hba] at hb ⊢
        exact h.known b hb
    · change b ∈ s.beep.adapters ++ [a] ↔ ∃ x, (s.adapters.insert fd a).lookup x = some b ∧ _
      rw [List.mem_append, List.mem_singleton, hadapters]
      constructor
      · rintro (⟨x, hx, -⟩ | rfl)
        · have hne : x ≠ fd := by
            rintro rfl
            cases hlookup.symm.trans hx
          exact ⟨x, (AList.lookup_insert_ne hne).trans hx, nofun⟩
        · exact ⟨fd, AList.lookup_insert .., nofun⟩
      · rintro ⟨x, hx, -⟩
        by_cases hxfd : x = fd
        · subst hxfd
          rw [AList.lookup_insert] at hx
          exact .inr (Option.some.inj hx).symm
        · rw [AList.lookup_insert_ne hxfd] at hx
          exact .inl ⟨x, hx, nofun⟩

theorem Refines.doRead (hs : Sound s) (h : Refines s) {ok : Bool} {now : Nat}
    (hst : step true s (.doRead ok now) = some s') : Refines s' := by
  obtain ⟨scan, a, t, hrun, -, hclock, ha, ht, rfl⟩ := step_doRead hst
  have hpolls : Polls s := by
    rw [Polls, hrun]
    exact ⟨rfl, .inr nofun⟩
  have hentry : s.run.entry = none := by rw [hrun]; rfl
  have hnum : s.starts ≠ 0 := h.numbered (by rw [hrun]; nofun)
  have hadapters := h.adapters hpolls
  rw [hentry] at hadapters
  obtain ⟨k, beep, hk, hbeep, ht⟩ := readSocket_eq ht
  have ht : t.sockets = s.sockets ∧ t.starts = s.starts ∧ t.adapters = s.adapters ∧
      t.beep = beep := by
    rw [ht]
    split <;> exact ⟨rfl, rfl, rfl, rfl⟩
  obtain ⟨htsockets, htstarts, htadapters, htbeep⟩ := ht
  have hmem : a ∈ s.beep.adapters := (hadapters a).mpr ⟨scan.ifd, ha, nofun⟩
  have hstep : s.beep.step (.read a ok now) = some beep := by
    rw [hbeep]
    exact beep_step rfl hclock (if_pos hmem)
  have hknown (b : AdapterId) (hb : beep.lastAction b ≠ none) : s.sockets b ≠ none := by
    rw [BeepSocketPoll.lastAction_step hstep b] at hb
    by_cases hba : b = a
    · subst hba
      rw [hk]
      nofun
    · refine h.known b ?_
      cases ok with
      | true => simpa [BeepSocketPoll.Action.hears, Ne.symm hba] using hb
      | false => simpa [BeepSocketPoll.Action.hears] using hb
  refine ⟨fun _ => htstarts.symm ▸ hnum, ?_, fun _ => ?_, fun _ b => ?_⟩
  · intro b hb
    rw [htsockets]
    exact hknown b (htbeep ▸ hb)
  · change BeepSocketPoll.system.Reachable t.beep
    rw [htbeep]
    exact (h.reachable hpolls).next hstep
  · change b ∈ t.beep.adapters ↔ ∃ x, t.adapters.lookup x = some b ∧ _
    rw [htbeep, htadapters, hbeep]
    cases ok with
    | true => exact hadapters b
    | false =>
      change b ∈ s.beep.adapters.filter (· ≠ a) ↔
        ∃ x, s.adapters.lookup x = some b ∧ some (scan.ifd, a) ≠ some (x, b)
      rw [List.mem_filter, hadapters, decide_eq_true_iff]
      constructor
      · rintro ⟨⟨x, hx, -⟩, hba⟩
        exact ⟨x, hx, by simp [Ne.symm hba]⟩
      · rintro ⟨x, hx, hne⟩
        refine ⟨⟨x, hx, nofun⟩, ?_⟩
        rintro rfl
        exact hne (by rw [hs.toTables.lookup_unique ha hx])

theorem Refines.eraseAdapter (hs : Sound s) (h : Refines s)
    (hst : step true s .eraseAdapter = some s') : Refines s' := by
  obtain ⟨fd, a, back, hrun, rfl⟩ := step_eraseAdapter hst
  have hnum : s.starts ≠ 0 := h.numbered (by rw [hrun]; nofun)
  have hentry := hs.entry fd a (by rw [hrun]; rfl)
  have hpolls (hp : (resume back).live = true) : Polls s := by
    rw [Polls, hrun]
    cases back with
    | none => cases hp
    | some scan => exact ⟨rfl, .inr nofun⟩
  refine ⟨fun _ => hnum, h.known, fun hp => h.reachable (hpolls hp.1), fun hp b => ?_⟩
  rw [h.adapters (hpolls hp.1) b, hrun]
  change (∃ x, s.adapters.lookup x = some b ∧ some (fd, a) ≠ some (x, b)) ↔
    ∃ x, (s.adapters.erase fd).lookup x = some b ∧ (resume back).entry ≠ some (x, b)
  have hresume : (resume back).entry = none := by cases back <;> rfl
  rw [hresume]
  constructor
  · rintro ⟨x, hx, hne⟩
    have hxfd : x ≠ fd := by
      rintro rfl
      cases hentry.symm.trans hx
      exact hne rfl
    exact ⟨x, (AList.lookup_erase_ne hxfd).trans hx, nofun⟩
  · rintro ⟨x, hx, -⟩
    by_cases hxfd : x = fd
    · subst hxfd
      rw [AList.lookup_erase] at hx
      cases hx
    · rw [AList.lookup_erase_ne hxfd] at hx
      exact ⟨x, hx, by simp [Ne.symm hxfd]⟩

theorem setSocket_ne_none {k : SocketHandle} (hb : s.sockets b ≠ none) :
    (s.setSocket a k).sockets b ≠ none := by
  rw [setSocket_sockets]
  split
  · nofun
  · exact hb

theorem closeSocket_ne_none (hb : s.sockets b ≠ none) : (s.closeSocket a).sockets b ≠ none := by
  obtain heq | ⟨k, -, -, heq⟩ := closeSocket_cases (s := s) a
  · rw [heq]
    exact hb
  · rw [heq]
    exact setSocket_ne_none (s := s.io .shutdown (.peer a) k.socketfd) hb

theorem closeSocket_rest (a : AdapterId) :
    (s.closeSocket a).starts = s.starts ∧ (s.closeSocket a).beep = s.beep := by
  obtain heq | ⟨k, -, -, heq⟩ := closeSocket_cases (s := s) a <;> rw [heq] <;> exact ⟨rfl, rfl⟩

theorem Refines.closeSocket (h : Refines s) (a : AdapterId) : Refines (s.closeSocket a) := by
  obtain ⟨hsame, -⟩ := sameLoop_closeSocket s a
  exact h.same (closeSocket_rest a).1 (fun _ => closeSocket_ne_none) (closeSocket_rest a).2
    hsame.adapters hsame.run

theorem refines_step {act : Action} (hs : Sound s) (hr : Refines s) (hG : StartsOnce true s act)
    (h : step true s act = some s') : Refines s' := by
  have hrunning {pc : PollPc} (hrun : s.run = pc) (hpc : pc ≠ .absent) : s.run ≠ .absent := hrun ▸ hpc
  cases act with
  | start fd =>
    obtain ⟨-, rfl | ⟨lfd, -, hstopped, -, rfl⟩⟩ := step_start h
    · exact hr
    · have hzero : s.starts = 0 := (hG rfl rfl).resolve_left (by simp [hstopped])
      have hrun := (hs.stopped hstopped).2.1
      have hpolls : Polls s := by
        rw [Polls, hrun]
        exact ⟨rfl, .inl hzero⟩
      refine ⟨fun _ => Nat.succ_ne_zero _, hr.known, fun _ => hr.reachable hpolls, fun _ => ?_⟩
      have hadapters := hr.adapters hpolls
      rw [hrun] at hadapters
      exact hadapters
  | begin =>
    obtain ⟨hrun, lfd, -, rfl⟩ := step_begin h
    exact hr.move rfl (fun _ => id) rfl rfl (hrunning hrun nofun) fun _ => hrun ▸ ⟨rfl, rfl⟩
  | returnStart =>
    obtain ⟨-, rfl⟩ := step_returnStart h
    exact hr.same rfl (fun _ => id) rfl rfl rfl
  | doPoll ready now =>
    obtain ⟨hrun, hclock, -, rfl⟩ := step_doPoll h
    exact hr.doPoll hrun hclock
  | getListenFd =>
    obtain ⟨rfds, timeout, hrun, ⟨-, rfl⟩ | rfl | ⟨lfd, -, rfl⟩⟩ := step_getListenFd h
    · exact hr.move rfl (fun _ => id) rfl rfl (hrunning hrun nofun) nofun
    · exact hr.move rfl (fun _ => id) rfl rfl (hrunning hrun nofun) fun _ => hrun ▸ ⟨rfl, rfl⟩
    · exact hr.move rfl (fun _ => id) rfl rfl (hrunning hrun nofun) fun _ => hrun ▸ ⟨rfl, rfl⟩
  | endScan =>
    obtain ⟨scan, hrun, -, rfl⟩ := step_endScan h
    exact hr.move rfl (fun _ => id) rfl rfl (hrunning hrun nofun) fun _ => hrun ▸ ⟨rfl, rfl⟩
  | skip =>
    obtain ⟨scan, hrun, rfl⟩ := step_skip h
    exact hr.move rfl (fun _ => id) rfl rfl (hrunning hrun nofun) fun _ => hrun ▸ ⟨rfl, rfl⟩
  | doAccept conn now => exact Refines.doAccept hs hr h
  | doRead ok now => exact Refines.doRead hs hr h
  | closeAdapter =>
    obtain ⟨fd, a, back, hrun, rfl⟩ := step_closeAdapter h
    obtain ⟨hsame, -⟩ := sameLoop_closeSocket s a
    have hentry : s.run.entry = some (fd, a) := by rw [hrun]; rfl
    obtain ⟨k, hk, -, -⟩ := hs.entry_socket hentry (by rw [hrun]; rfl)
    unfold SocketPoll.clearAdapter
    rw [hk]
    exact hr.move (closeSocket_rest a).1 (fun _ => closeSocket_ne_none) (closeSocket_rest a).2
      hsame.adapters (hrunning hrun nofun) fun hlive => hrun ▸ ⟨hlive, rfl⟩
  | closeFd =>
    obtain ⟨fd, a, back, hrun, rfl⟩ := step_closeFd h
    have hentry : s.run.entry = some (fd, a) := by rw [hrun]; rfl
    obtain ⟨k, hk, -, -⟩ := hs.entry_socket hentry (by rw [hrun]; rfl)
    unfold SocketPoll.releaseSocket
    rw [hk]
    exact hr.move rfl (fun _ => setSocket_ne_none (s := s.io .close (.peer a) k.socketfd)) rfl rfl
      (hrunning hrun nofun) fun hlive => hrun ▸ ⟨hlive, rfl⟩
  | eraseAdapter => exact Refines.eraseAdapter hs hr h
  | release =>
    obtain ⟨hrun, ⟨-, rfl⟩ | ⟨fd, a, -, rfl⟩⟩ := step_release h
    · exact hr.move rfl (fun _ => id) rfl rfl (hrunning hrun nofun) nofun
    · exact hr.move rfl (fun _ => id) rfl rfl (hrunning hrun nofun) nofun
  | stop =>
    obtain ⟨-, ⟨-, rfl⟩ | ⟨-, rfl⟩⟩ := step_stop h
    · exact hr
    · unfold ioListener
      split <;> exact hr.same rfl (fun _ => id) rfl rfl rfl
  | join =>
    obtain ⟨fd, huser, hrun, rfl⟩ := step_join h
    have hnum := hr.numbered (hrunning hrun nofun)
    have hpolls : ¬ (s.starts = 0 ∨ PollPc.absent ≠ .absent) := by simp [hnum]
    unfold ioListener
    split <;> exact ⟨nofun, hr.known, fun hp => absurd hp.2 hpolls, fun hp => absurd hp.2 hpolls⟩
  | config timeout =>
    cases h
    have hstep (p : BeepSocketPoll) : p.step (.config timeout) = some { p with beepTimeout := timeout } :=
      rfl
    exact ⟨hr.numbered, hr.known, fun hp => (hr.reachable hp).next (hstep _), hr.adapters⟩
  | write a ok =>
    obtain ⟨k, -, rfl⟩ := step_write h
    have hio : Refines (s.io .write (.peer a) k.socketfd) := hr.same rfl (fun _ => id) rfl rfl rfl
    split
    · split
      · exact hio
      · exact hio.closeSocket a
    · exact hr
  | close a =>
    rw [step_close h]
    exact hr.closeSocket a
  | openForeign fd =>
    obtain ⟨-, rfl⟩ := step_openForeign h
    exact hr.same rfl (fun _ => id) rfl rfl rfl
  | closeForeign fd =>
    obtain ⟨-, rfl⟩ := step_closeForeign h
    exact hr.same rfl (fun _ => id) rfl rfl rfl

theorem refines_reachable (h : ((system true).guard (StartsOnce true)).Reachable s) : Refines s := by
  apply h.invariant_of (P := Refines)
  · rintro s ⟨table, beep, -, ⟨timeout, clock, rfl⟩, rfl⟩
    refine ⟨nofun, nofun, fun _ => .start ⟨timeout, clock, rfl⟩, fun _ a => ?_⟩
    simp
  · exact fun s act t hs hr hst => refines_step (sound_reachable hs.of_guard) hr hst.1 hst.2

/-- What a step can add to the history of calls. -/
structure NewCall (tcp : Bool) (s : SocketPoll) (act : Action) (c : IoCall) : Prop where
  reported : c.call = .accept ∨ c.call = .read → c.reported = true
  reached : c.reached = some c.owner ∨ tcp = true ∧ s.run = .polling ∧
    ∃ now a k, a ∈ s.timedOut now ∧ s.sockets a = some k ∧ c.owner = .peer a ∧
      c.reached = s.table k.socketfd
  closing : c.call = .close → (∃ n, c.owner = .listener n) ∨ act = .closeFd

/-- A call other than `accept` and `read` on a descriptor of its own end. -/
theorem newCall_of_reached {act : Action} {call : Syscall} {owner : OpenFile}
    (hcall : call = .write ∨ call = .shutdown ∨
      call = .close ∧ ((∃ n, owner = .listener n) ∨ act = .closeFd))
    (howner : s.table fd = some owner) {reported : Bool} :
    NewCall tcp s act ⟨call, owner, s.table fd, reported⟩ := by
  refine ⟨?_, .inl howner, ?_⟩
  · obtain rfl | rfl | ⟨rfl, -⟩ := hcall <;> exact fun h => h.elim nofun nofun
  · obtain rfl | rfl | ⟨-, hclose⟩ := hcall
    · nofun
    · nofun
    · exact fun _ => hclose

/-- A call on a descriptor that the scan has come to. -/
theorem newCall_of_ready (hs : Sound s) {act : Action} {call : Syscall} {owner : OpenFile} {scan : Scan}
    (hcall : call ≠ .close) (hrun : s.run = .scanning scan) (hready : scan.rfds scan.ifd = true)
    (howner : s.table scan.ifd = some owner) : NewCall tcp s act
      ⟨call, owner, s.table scan.ifd, (s.table scan.ifd).any (s.reported.contains ·)⟩ := by
  refine ⟨fun _ => ?_, .inl howner, fun hclose => absurd hclose hcall⟩
  have hpending : s.run.pending scan.ifd = true := by
    rw [hrun]
    simp [PollPc.pending, PollPc.scan, hready]
  obtain ⟨c, hc, htable, -⟩ := hs.fresh scan.ifd hpending
  rw [htable]
  exact List.contains_iff_mem.mpr hc

theorem closeSocket_calls (tcp : Bool) (act : Action) (hs : Tables s) (a : AdapterId) :
    ∃ l, (s.closeSocket a).calls = s.calls ++ l ∧ ∀ c ∈ l, NewCall tcp s act c := by
  obtain heq | ⟨k, hk, hbuffer, heq⟩ := closeSocket_cases (s := s) a
  · exact ⟨[], by rw [heq, List.append_nil], nofun⟩
  · refine ⟨_, by rw [heq]; rfl, ?_⟩
    intro c hc
    rw [List.mem_singleton.mp hc]
    exact newCall_of_reached (.inr (.inl rfl)) (hs.reached hk (hs.buffered a k hk hbuffer))

theorem shutdownAll_calls {act : Action} {now : Nat} (htcp : tcp = true) (hrun : s.run = .polling)
    (as : List AdapterId) (has : ∀ a ∈ as, a ∈ s.timedOut now) :
    ∃ l, (s.shutdownAll as).calls = s.calls ++ l ∧ ∀ c ∈ l, NewCall tcp s act c := by
  induction as using List.reverseRecOn with
  | nil => exact ⟨[], (List.append_nil _).symm, nofun⟩
  | append_singleton as a ih =>
    obtain ⟨l, hl, hnew⟩ := ih fun b hb => has b (List.mem_append_left _ hb)
    have hsame := shutdownAll_eq (s := s) as
    have hsockets : (s.shutdownAll as).sockets = s.sockets := by rw [hsame]
    have htable : (s.shutdownAll as).table = s.table := by rw [hsame]
    have hlast : s.shutdownAll (as ++ [a]) = (s.shutdownAll as).shutdownFd a := by
      simp [SocketPoll.shutdownAll]
    rw [hlast]
    obtain heq | ⟨k, hk, heq⟩ := shutdownFd_cases (s := s.shutdownAll as) a
    · rw [heq]
      exact ⟨l, hl, hnew⟩
    · rw [heq]
      refine ⟨l ++ [_], (congrArg (· ++ _) hl).trans (List.append_assoc ..), ?_⟩
      intro c hc
      obtain hc | hc := List.mem_append.mp hc
      · exact hnew c hc
      · rw [List.mem_singleton.mp hc]
        rw [hsockets] at hk
        refine ⟨fun h => h.elim nofun nofun,
          .inr ⟨htcp, hrun, now, a, k, ?_, hk, rfl, congrFun htable _⟩, nofun⟩
        exact has a (List.mem_append_right _ (List.mem_singleton_self a))

theorem calls_same {act : Action} (h : s'.calls = s.calls) :
    ∃ l, s'.calls = s.calls ++ l ∧ ∀ c ∈ l, NewCall tcp s act c :=
  ⟨[], by rw [h, List.append_nil], nofun⟩

theorem calls_one {act : Action} {c : IoCall} (h : s'.calls = s.calls ++ [c])
    (hc : NewCall tcp s act c) : ∃ l, s'.calls = s.calls ++ l ∧ ∀ c ∈ l, NewCall tcp s act c := by
  refine ⟨[c], h, fun x hx => ?_⟩
  rw [List.mem_singleton.mp hx]
  exact hc

theorem step_calls {act : Action} (hs : Sound s) (h : step tcp s act = some s') :
    ∃ l, s'.calls = s.calls ++ l ∧ ∀ c ∈ l, NewCall tcp s act c := by
  have hlistener {fd : Nat} (hfd : s.listening = some fd) : s.table fd = some (.listener s.starts) :=
    (hs.listener_iff fd s.starts).mpr ⟨hfd, rfl⟩
  cases act with
  | start fd =>
    obtain ⟨-, rfl | ⟨lfd, -, -, -, rfl⟩⟩ := step_start h <;> exact calls_same rfl
  | begin =>
    obtain ⟨-, lfd, -, rfl⟩ := step_begin h
    exact calls_same rfl
  | returnStart =>
    obtain ⟨-, rfl⟩ := step_returnStart h
    exact calls_same rfl
  | doPoll ready now =>
    obtain ⟨hrun, -, -, rfl⟩ := step_doPoll h
    obtain ⟨calls, beep, hcalls, -, heq⟩ := doPoll_eq (s := s) tcp ready now
    have hpoll : (s.doPoll tcp ready now).calls = calls := by
      obtain ⟨-, heq⟩ | ⟨l, -, heq⟩ := heq <;> rw [heq]
    rw [hpoll, hcalls]
    split
    · rename_i htcp
      exact shutdownAll_calls htcp hrun _ fun a ha => ha
    · exact calls_same rfl
  | getListenFd =>
    obtain ⟨rfds, timeout, -, ⟨-, rfl⟩ | rfl | ⟨lfd, -, rfl⟩⟩ := step_getListenFd h <;>
      exact calls_same rfl
  | endScan =>
    obtain ⟨scan, -, -, rfl⟩ := step_endScan h
    exact calls_same rfl
  | skip =>
    obtain ⟨scan, -, rfl⟩ := step_skip h
    exact calls_same rfl
  | doAccept conn now =>
    obtain ⟨scan, t, hrun, hready, hifd, -, rfl, hs'⟩ := step_doAccept h
    have howner : s.table scan.ifd = some (.listener s.starts) :=
      hlistener (hifd ▸ hs.scanned scan (by rw [hrun]; rfl))
    have hcalls : s'.calls = (s.io .accept (.listener s.starts) scan.ifd).calls := by
      rw [hifd]
      obtain rfl | ⟨fd, a, -, -, -, haccept⟩ := hs'
      · rfl
      · simp only [SocketPoll.accept, Option.ite_none_right_eq_some, Option.some.injEq] at haccept
        rw [← haccept.2]
        rfl
    exact calls_one hcalls (newCall_of_ready hs (by simp) hrun hready howner)
  | doRead ok now =>
    obtain ⟨scan, a, t, hrun, hready, -, ha, ht, rfl⟩ := step_doRead h
    obtain ⟨k, beep, hk, -, rfl⟩ := readSocket_eq ht
    obtain ⟨x, hx, hfd, hreleased⟩ := (hs.listed_iff scan.ifd a).mp ha
    cases hk.symm.trans hx
    rw [hrun] at hreleased
    have hpeer := hs.reached hk (hreleased.resolve_right fun h => by cases h)
    rw [hfd] at hpeer
    split
    · refine calls_one (c := ⟨.read, .peer a, s.table scan.ifd, _⟩) ?_
        (newCall_of_ready hs (by simp) hrun hready hpeer)
      rw [← hfd]
      rfl
    · exact calls_same rfl
  | closeAdapter =>
    obtain ⟨fd, a, back, -, rfl⟩ := step_closeAdapter h
    unfold SocketPoll.clearAdapter
    split
    · exact calls_same rfl
    · exact closeSocket_calls _ _ hs.toTables a
  | closeFd =>
    obtain ⟨fd, a, back, hrun, rfl⟩ := step_closeFd h
    have hentry : s.run.entry = some (fd, a) := by rw [hrun]; rfl
    obtain ⟨k, hk, -, hreleased⟩ := hs.entry_socket hentry (by rw [hrun]; rfl)
    unfold SocketPoll.releaseSocket
    rw [hk]
    exact calls_one rfl (newCall_of_reached (.inr (.inr ⟨rfl, .inr rfl⟩)) (hs.reached hk hreleased))
  | eraseAdapter =>
    obtain ⟨fd, a, back, -, rfl⟩ := step_eraseAdapter h
    exact calls_same rfl
  | release =>
    obtain ⟨-, ⟨-, rfl⟩ | ⟨fd, a, -, rfl⟩⟩ := step_release h <;> exact calls_same rfl
  | stop =>
    obtain ⟨-, ⟨-, rfl⟩ | ⟨hstarted, rfl⟩⟩ := step_stop h
    · exact calls_same rfl
    · obtain ⟨-, fd, hlistening, ⟨hfd, -⟩ | ⟨hfd, -⟩⟩ := hs.started hstarted
      · rw [hfd]
        exact calls_one rfl (newCall_of_reached (.inr (.inl rfl)) (hlistener hlistening))
      · rw [hfd]
        exact calls_same rfl
  | join =>
    obtain ⟨fd, huser, -, rfl⟩ := step_join h
    cases fd with
    | none => exact calls_same rfl
    | some fd =>
      have hstarted : s.started = true := by
        rw [← Bool.not_eq_false]
        intro hstopped
        cases huser.symm.trans (hs.stopped hstopped).2.2
      obtain ⟨-, lfd, hlistening, ⟨-, hjoin⟩ | ⟨-, hjoin⟩⟩ := hs.started hstarted
      · exact absurd huser (hjoin _)
      · cases huser.symm.trans hjoin
        exact calls_one rfl (newCall_of_reached (.inr (.inr ⟨rfl, .inl ⟨_, rfl⟩⟩))
          (hlistener hlistening))
  | config timeout =>
    cases h
    exact calls_same rfl
  | write a ok =>
    obtain ⟨k, hk, rfl⟩ := step_write h
    split
    · rename_i hbuffer
      have hpeer := hs.reached hk (hs.buffered a k hk hbuffer)
      have hnew (reported : Bool) : NewCall tcp s (.write a ok)
          ⟨.write, .peer a, s.table k.socketfd, reported⟩ := newCall_of_reached (.inl rfl) hpeer
      split
      · exact calls_one rfl (hnew _)
      · obtain ⟨l, hl, hcalls⟩ := closeSocket_calls tcp (.write a ok)
          (hs.io .write (.peer a) k.socketfd).toTables a
        refine ⟨_ :: l, hl.trans (List.append_assoc ..), ?_⟩
        intro c hc
        obtain rfl | hc := List.mem_cons.mp hc
        · exact hnew _
        · have hold := hcalls c hc
          exact ⟨hold.reported, hold.reached, hold.closing⟩
    · exact calls_same rfl
  | close a =>
    rw [step_close h]
    exact closeSocket_calls _ _ hs.toTables a
  | openForeign fd =>
    obtain ⟨-, rfl⟩ := step_openForeign h
    exact calls_same rfl
  | closeForeign fd =>
    obtain ⟨-, rfl⟩ := step_closeForeign h
    exact calls_same rfl

/-- The connections that a poll at `now` times out: those that are open, were not shut down before
and have been silent for `beep_timeout`. -/
theorem mem_timedOut_iff (hs : Sound s) (hr : Refines s) (hrun : s.run = .polling) (now : Nat) :
    a ∈ s.timedOut now ↔ (∃ fd, s.table fd = some (.peer a)) ∧ a ∉ s.beep.shut ∧
      ∃ tp, s.beep.lastAction a = some tp ∧
        (now : Int) - tp ≥ s.beep.beepTimeout.toNat * 1000000 := by
  have hpolls : Polls s := by
    rw [Polls, hrun]
    exact ⟨rfl, .inr nofun⟩
  have hexact := BeepSocketPoll.exact_reachable (hr.reachable hpolls)
  have hopen : a ∈ s.beep.adapters ↔ ∃ fd, s.table fd = some (.peer a) := by
    rw [hr.adapters hpolls, hrun]
    refine exists_congr fun fd => ?_
    rw [hs.listed_iff, hs.peer_iff, hrun]
    constructor
    · rintro ⟨⟨k, hk, hfd, hreleased⟩, -⟩
      exact ⟨k, hk, hfd, hreleased.resolve_right nofun⟩
    · rintro ⟨k, hk, hfd, hreleased⟩
      exact ⟨⟨k, hk, hfd, .inl hreleased⟩, nofun⟩
  rw [timedOut, (hexact.scan now).1, List.mem_map, ← hopen]
  constructor
  · rintro ⟨⟨tp, b⟩, hx, rfl⟩
    obtain ⟨hx, hdue⟩ := List.mem_filter.mp hx
    obtain ⟨hmem, hshut, htp⟩ := (hexact.mem_iff b tp).mp hx
    have hdue : (now : Int) - s.beep.beepTimeout.toNat * 1000000 ≥ tp := of_decide_eq_true hdue
    exact ⟨hmem, hshut, tp, htp, by omega⟩
  · rintro ⟨hmem, hshut, tp, htp, hidle⟩
    refine ⟨⟨tp, a⟩, List.mem_filter.mpr ⟨(hexact.mem_iff a tp).mpr ⟨hmem, hshut, htp⟩, ?_⟩, rfl⟩
    have hdue : (now : Int) - s.beep.beepTimeout.toNat * 1000000 ≥ tp := by omega
    exact decide_eq_true hdue

theorem timedOut_open (hs : Sound s) (hr : Refines s) (hrun : s.run = .polling) {now : Nat}
    (ha : a ∈ s.timedOut now) (hk : s.sockets a = some k) : k.released = false := by
  obtain ⟨⟨fd, hfd⟩, -⟩ := (mem_timedOut_iff hs hr hrun now).mp ha
  obtain ⟨x, hx, -, hreleased⟩ := (hs.peer_iff fd a).mp hfd
  cases hk.symm.trans hx
  exact hreleased

/-- Every call on a descriptor reaches the end it is meant for: numbers that are used again do not
lead to another connection. -/
theorem calls_reach_owner (h : ((system tcp).guard (StartsOnce tcp)).Reachable s) :
    ∀ c ∈ s.calls, c.reached = some c.owner := by
  apply h.invariant_of (P := fun s => ∀ c ∈ s.calls, c.reached = some c.owner)
  · rintro s ⟨table, beep, -, -, rfl⟩
    nofun
  · intro s act t hreach hold hst
    have hs := sound_reachable hreach.of_guard
    obtain ⟨l, hl, hnew⟩ := step_calls hs hst.2
    intro c hc
    rw [hl] at hc
    obtain hc | hc := List.mem_append.mp hc
    · exact hold c hc
    · obtain hreached | ⟨rfl, hrun, now, a, k, ha, hk, howner, hreached⟩ := (hnew c hc).reached
      · exact hreached
      · rw [hreached, howner]
        exact hs.reached hk (timedOut_open hs (refines_reachable hreach) hrun ha hk)

theorem initial_default : Initial {} := ⟨_, _, fun _ h => absurd rfl h, ⟨60000, 0, rfl⟩, rfl⟩

/-- The second connection gets the number of the first one; later it is timed out. -/
def sampleRun : List Action :=
  [.start (some 3), .begin, .returnStart, .doPoll (some [3]) 0, .getListenFd, .skip, .skip, .skip,
    .doAccept (some (4, 1)) 0, .skip, .endScan, .doPoll (some [4]) 1, .getListenFd, .skip, .skip,
    .skip, .skip, .doRead false 1, .closeAdapter, .closeFd, .eraseAdapter, .endScan,
    .doPoll (some [3]) 2, .getListenFd, .skip, .skip, .skip, .doAccept (some (4, 2)) 2, .skip,
    .endScan, .write 1 true, .write 2 true, .doPoll (some []) 60000000002]

def sampleState : Option SocketPoll :=
  execute (fun s act => if StartsOnce true s act then step true s act else none) {} sampleRun

theorem calls_reach_owner_reused : ∃ s, sampleState = some s ∧ s.calls.map (·.owner) =
      [.listener 1, .peer 1, .peer 1, .peer 1, .listener 1, .peer 2, .peer 2] ∧
    ∀ c ∈ s.calls, c.reached = some c.owner := by
  have howners : sampleState.map (·.calls.map (·.owner)) =
      some [.listener 1, .peer 1, .peer 1, .peer 1, .listener 1, .peer 2, .peer 2] := by decide
  obtain ⟨s, hs, hcalls⟩ := Option.map_eq_some_iff.mp howners
  exact ⟨s, hs, hcalls, calls_reach_owner ⟨{}, sampleRun, initial_default, execute_guarded_run hs⟩⟩

/-- Another start of a TCP poll: adapter 1, which is gone, times out on the connection of 2. -/
example : (execute (step true) {} [.start (some 3), .begin, .returnStart, .doPoll (some [3]) 0,
    .getListenFd, .skip, .skip, .skip, .doAccept (some (4, 1)) 0, .skip, .endScan, .stop,
    .doPoll (some [3]) 1, .getListenFd, .release, .closeAdapter, .closeFd, .eraseAdapter, .release,
    .join, .start (some 3), .begin, .returnStart, .doPoll (some [3]) 2, .getListenFd, .skip, .skip,
    .skip, .doAccept (some (4, 2)) 2, .skip, .endScan, .doPoll (some []) 60000000001]).map
      (·.calls.getLast?) = some (some ⟨.shutdown, .peer 1, some (.peer 2), false⟩) := by decide

theorem shutdownAll_ends (as : List AdapterId)
    (has : ∀ a ∈ as, ∃ k, s.sockets a = some k ∧ s.table k.socketfd = some (.peer a)) :
    (s.shutdownAll as).calls.map IoCall.ends =
      s.calls.map IoCall.ends ++ as.map fun a => (.shutdown, .peer a, some (.peer a)) := by
  induction as generalizing s with
  | nil => exact (List.append_nil _).symm
  | cons a as ih =>
    obtain ⟨k, hk, hfd⟩ := has a List.mem_cons_self
    have hone : s.shutdownFd a = s.io .shutdown (.peer a) k.socketfd := by
      rw [shutdownFd, hk]
    have hcons : s.shutdownAll (a :: as) = (s.shutdownFd a).shutdownAll as := rfl
    have hrest := ih (s := s.io .shutdown (.peer a) k.socketfd) fun b hb => has b (List.mem_cons_of_mem a hb)
    rw [hcons, hone, hrest]
    simp [io, IoCall.ends, hfd]

/-- A poll at `now` shuts down exactly the connections that are open and have been silent for
`beep_timeout`, each once and through its own descriptor. -/
theorem poll_shuts_silent {ready : Option (List Nat)} {now : Nat}
    (h : ((system true).guard (StartsOnce true)).Reachable s)
    (hst : step true s (.doPoll ready now) = some s') :
    ∃ out : List AdapterId, out.Nodup ∧ s'.beep.shut = s.beep.shut ++ out ∧
      s'.calls.map IoCall.ends =
        s.calls.map IoCall.ends ++ out.map (fun a => (.shutdown, .peer a, some (.peer a))) ∧
      ∀ a, a ∈ out ↔ (∃ fd, s.table fd = some (.peer a)) ∧ a ∉ s.beep.shut ∧
        ∃ tp, s.beep.lastAction a = some tp ∧
          (now : Int) - tp ≥ s.beep.beepTimeout.toNat * 1000000 := by
  have hs := sound_reachable h.of_guard
  have hr := refines_reachable h
  obtain ⟨hrun, -, -, rfl⟩ := step_doPoll hst
  obtain ⟨calls, beep, hcalls, hbeep, heq⟩ := doPoll_eq (s := s) true ready now
  have hpoll : (s.doPoll true ready now).calls = calls ∧ (s.doPoll true ready now).beep = beep := by
    obtain ⟨-, heq⟩ | ⟨l, -, heq⟩ := heq <;> rw [heq] <;> exact ⟨rfl, rfl⟩
  have hpolls : Polls s := by
    rw [Polls, hrun]
    exact ⟨rfl, .inr nofun⟩
  have hexact := BeepSocketPoll.exact_reachable (hr.reachable hpolls)
  refine ⟨s.timedOut now, ?_, ?_, ?_, fun a => mem_timedOut_iff hs hr hrun now⟩
  · exact hexact.nodup.sublist ((List.takeWhile_sublist _).map _)
  · rw [hpoll.2, hbeep]
    rfl
  · rw [hpoll.1, hcalls]
    refine shutdownAll_ends _ fun a ha => ?_
    obtain ⟨⟨fd, hfd⟩, -⟩ := (mem_timedOut_iff hs hr hrun now).mp ha
    obtain ⟨k, hk, rfl, -⟩ := (hs.peer_iff fd a).mp hfd
    exact ⟨k, hk, hfd⟩

/-- The adapter that is gone is not shut down through the number it shared with the second one. -/
theorem poll_shuts_silent_reused : ∃ s s' out, execute (fun s act =>
      if StartsOnce true s act then step true s act else none) {} sampleRun.dropLast = some s ∧
    step true s (.doPoll (some []) 60000000002) = some s' ∧
    s'.beep.shut = s.beep.shut ++ out ∧ 2 ∈ out ∧ 1 ∉ out := by
  have hend : (execute (fun s act => if StartsOnce true s act then step true s act else none) {}
      sampleRun.dropLast).map (fun s => decide (s.table 4 = some (.peer 2) ∧
        s.sockets 1 = some ⟨4, false, true⟩ ∧ s.beep.shut = [] ∧ s.beep.lastAction 2 = some 2 ∧
        s.beep.beepTimeout = 60000 ∧ (step true s (.doPoll (some []) 60000000002)).isSome)) =
      some true := by decide
  obtain ⟨s, hs, heq⟩ := Option.map_eq_some_iff.mp hend
  have heq := of_decide_eq_true heq
  obtain ⟨htable, hgone, hshut, hlast, htimeout, hstep⟩ := heq
  obtain ⟨s', hst⟩ := Option.isSome_iff_exists.mp hstep
  have hreach : ((system true).guard (StartsOnce true)).Reachable s :=
    ⟨{}, sampleRun.dropLast, initial_default, execute_guarded_run hs⟩
  obtain ⟨out, -, hout, -, hmem⟩ := poll_shuts_silent hreach hst
  refine ⟨s, s', out, hs, hst, hout, (hmem 2).mpr ⟨⟨4, htable⟩, by simp [hshut], 2, hlast, ?_⟩, ?_⟩
  · rw [htimeout]
    decide
  · intro hone
    obtain ⟨⟨fd, hfd⟩, -⟩ := (hmem 1).mp hone
    obtain ⟨k, hk, -, hreleased⟩ := ((sound_reachable hreach.of_guard).peer_iff fd 1).mp hfd
    cases hgone.symm.trans hk
    cases hreleased

end SocketPoll

end Flora
