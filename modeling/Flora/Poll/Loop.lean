import Flora.Poll.Descriptors

/-! # The loops of the run thread

Every step of the run thread, of the threads that write to its adapters and of the thread that
starts and stops it keeps the tables of descriptors sound. The scan that follows a `select` meets
the ends that were reported: a number it has not come to yet is not closed by it, so it cannot have
been used again. -/

namespace Flora

open TransitionSystem

namespace SocketPoll

variable {tcp : Bool} {s s' : SocketPoll} {a b : AdapterId} {fd : Nat} {k : SocketHandle}

theorem Watches.of_eq (h : Watches s) (hall : s'.allFds = s.allFds) (hmax : s'.maxFd = s.maxFd)
    (hlistening : s'.listening = s.listening) (hadapters : s'.adapters = s.adapters)
    (hloops : s'.run.loops = s.run.loops) (hcleared : s'.run.cleared = s.run.cleared) :
    Watches s' where
  watched := by rw [hall, hlistening, hadapters, hloops, hcleared]; exact h.watched
  bounded := by rw [hall, hmax, hloops]; exact h.bounded

/-- The run thread goes on within its loops. -/
theorem Controls.move (h : Controls s) (hstarted : s'.started = s.started)
    (hlistenFd : s'.listenFd = s.listenFd) (huser : s'.user = s.user)
    (hlistening : s'.listening = s.listening) (hadapters : s'.adapters = s.adapters)
    (hloops : s.run.loops = true) (hloops' : s'.run.loops = true)
    (hscan : ∀ scan, s'.run.scan = some scan → s.listening = some scan.lfd)
    (hexited : s'.run = .exited → ∀ fd, s.adapters.lookup fd = none)
    (hbehind : ∀ fd a, s'.run.entry = some (fd, a) → s'.run.pending fd = false) : Controls s' := by
  have hrunning {pc : PollPc} (hpc : pc.loops = true) : pc ≠ .absent ∧ pc ≠ .starting := by
    constructor <;> rintro rfl <;> cases hpc
  refine ⟨?_, ?_, ?_, ?_, ?_, hbehind⟩
  · rw [hstarted, hlistenFd, huser, hlistening]
    exact fun hst => ⟨(hrunning hloops').1, (h.started hst).2⟩
  · rw [hstarted]
    exact fun hst => absurd (h.stopped hst).2.1 (hrunning hloops).1
  · rw [huser]
    exact iff_of_false (fun hw => (hrunning hloops).2 (h.waiting.mp hw)) (hrunning hloops').2
  · rw [hlistening]
    exact hscan
  · rw [hadapters]
    rintro (hrun | hrun | hrun)
    · exact absurd hrun (hrunning hloops').1
    · exact absurd hrun (hrunning hloops').2
    · exact hexited hrun

theorem Fresh.of_pending (h : Fresh s) (htable : s'.table = s.table)
    (hreported : s'.reported = s.reported)
    (hpending : ∀ fd, s'.run.pending fd = true → s.run.pending fd = true) : Fresh s' := by
  intro fd hfd
  rw [htable, hreported]
  exact h fd (hpending fd hfd)

theorem Scan.next_le {scan : Scan} {fd : Nat} (h : scan.next.ifd ≤ fd) :
    scan.ifd ≤ fd ∧ scan.ifd ≠ fd := by
  have hlt : scan.ifd + 1 ≤ fd := h
  omega

/-- What is pending behind the current descriptor was pending. -/
theorem pending_next {scan : Scan} {pc : PollPc} {fd : Nat} (hpc : pc.scan = some scan.next)
    (hpolled : ∀ rfds timeout, pc ≠ .polled rfds timeout) (h : pc.pending fd = true) :
    (PollPc.scanning scan).pending fd = true ∧ fd ≠ scan.ifd := by
  have hnext : scan.next.rfds fd = true ∧ scan.next.ifd ≤ fd := by
    cases pc with
    | polled rfds timeout => exact absurd rfl (hpolled rfds timeout)
    | _ => simpa [PollPc.pending, hpc] using h
  obtain ⟨hle, hne⟩ := Scan.next_le hnext.2
  have hrfds : scan.rfds fd = true := hnext.1
  exact ⟨by simp [PollPc.pending, PollPc.scan, hrfds, hle], hne.symm⟩

theorem shutdownFd_cases (a : AdapterId) : s.shutdownFd a = s ∨
    ∃ k, s.sockets a = some k ∧ s.shutdownFd a = s.io .shutdown (.peer a) k.socketfd := by
  unfold shutdownFd
  split
  · rename_i k hk
    exact .inr ⟨k, hk, rfl⟩
  · exact .inl rfl

theorem shutdownAll_eq (as : List AdapterId) :
    s.shutdownAll as = { s with calls := (s.shutdownAll as).calls } := by
  induction as generalizing s with
  | nil => rfl
  | cons a as ih =>
    have hone : s.shutdownFd a = { s with calls := (s.shutdownFd a).calls } := by
      obtain heq | ⟨k, -, heq⟩ := shutdownFd_cases (s := s) a
      · rw [heq]
      · rw [heq]
        rfl
    have hcons : s.shutdownAll (a :: as) = (s.shutdownFd a).shutdownAll as := rfl
    rw [hcons, ih, hone]

theorem doPoll_eq (tcp : Bool) (ready : Option (List Nat)) (now : Nat) :
    ∃ calls beep, calls = (if tcp then (s.shutdownAll (s.timedOut now)).calls else s.calls) ∧
      beep = (if tcp then { s.beep.shutdownTimeoutAdapter now with clock := now } else s.beep) ∧
      ((ready = none ∧ s.doPoll tcp ready now =
        { s with calls := calls, beep := beep, run := .releasing, reported := [] }) ∨
      ∃ l, ready = some l ∧ s.doPoll tcp ready now =
        { s with calls := calls, beep := beep, run := .polled (fun fd => l.contains fd) l.isEmpty
                 reported := l.filterMap s.table }) := by
  have hbeep : (if tcp then s.shutdownTimeoutAdapter now else s) = { s with
      calls := if tcp then (s.shutdownAll (s.timedOut now)).calls else s.calls
      beep := if tcp then { s.beep.shutdownTimeoutAdapter now with clock := now } else s.beep } := by
    cases tcp with
    | true =>
      unfold SocketPoll.shutdownTimeoutAdapter
      rw [shutdownAll_eq]
      rfl
    | false => rfl
  refine ⟨_, _, rfl, rfl, ?_⟩
  unfold SocketPoll.doPoll
  rw [hbeep]
  cases ready with
  | none => exact .inl ⟨rfl, rfl⟩
  | some l => exact .inr ⟨l, rfl, rfl⟩

theorem Sound.doPoll (h : Sound s) {ready : Option (List Nat)} {now : Nat} (hrun : s.run = .polling)
    (hready : ∀ l, ready = some l → ∀ fd ∈ l, s.allFds fd = true) :
    Sound (s.doPoll tcp ready now) := by
  have hloops : s.run.loops = true := by rw [hrun]; rfl
  obtain ⟨calls, beep, -, -, ⟨-, heq⟩ | ⟨l, rfl, heq⟩⟩ := doPoll_eq (s := s) tcp ready now
  · rw [heq]
    refine ⟨h.toTables.of_eq rfl rfl rfl rfl rfl (by rw [hrun]; rfl) nofun nofun,
      h.toWatches.of_eq rfl rfl rfl rfl hloops.symm (by rw [hrun]; rfl),
      h.toControls.move rfl rfl rfl rfl rfl hloops rfl nofun nofun nofun, nofun⟩
  · rw [heq]
    refine ⟨h.toTables.of_eq rfl rfl rfl rfl rfl (by rw [hrun]; rfl) nofun nofun,
      h.toWatches.of_eq rfl rfl rfl rfl hloops.symm (by rw [hrun]; rfl),
      h.toControls.move rfl rfl rfl rfl rfl hloops rfl nofun nofun nofun, ?_⟩
    intro fd hfd
    have hmem : fd ∈ l := List.contains_iff_mem.mp hfd
    have hended : ∃ c, s.table fd = some c ∧ c ≠ .foreign := by
      obtain ⟨-, hlistening | ⟨-, a, ha⟩⟩ := (h.watched hloops fd).mp (hready l rfl fd hmem)
      · exact ⟨_, (h.listener_iff fd s.starts).mpr ⟨hlistening, rfl⟩, nofun⟩
      · obtain ⟨k, hk, rfl, hreleased⟩ := (h.listed_iff fd a).mp ha
        rw [hrun] at hreleased
        exact ⟨_, h.reached hk (hreleased.resolve_right nofun), nofun⟩
    obtain ⟨c, hc, hforeign⟩ := hended
    exact ⟨c, List.mem_filterMap.mpr ⟨fd, hmem, hc⟩, hc, hforeign⟩

/-- Steps of other threads leave the state of the run thread alone. -/
structure SameLoop (s s' : SocketPoll) : Prop where
  allFds : s'.allFds = s.allFds
  maxFd : s'.maxFd = s.maxFd
  adapters : s'.adapters = s.adapters
  listening : s'.listening = s.listening
  started : s'.started = s.started
  listenFd : s'.listenFd = s.listenFd
  user : s'.user = s.user
  run : s'.run = s.run
  reported : s'.reported = s.reported

theorem sameLoop_closeSocket (s : SocketPoll) (a : AdapterId) :
    SameLoop s (s.closeSocket a) ∧ (s.closeSocket a).table = s.table := by
  obtain heq | ⟨k, -, -, heq⟩ := closeSocket_cases (s := s) a <;> rw [heq] <;>
    exact ⟨⟨rfl, rfl, rfl, rfl, rfl, rfl, rfl, rfl, rfl⟩, rfl⟩

theorem Sound.same (h : Sound s) (hsame : SameLoop s s') (htables : Tables s')
    (htable : ∀ fd c, c ≠ .foreign → s.table fd = some c → s'.table fd = some c) : Sound s' := by
  refine ⟨htables, ?_, ?_, ?_⟩
  · exact h.toWatches.of_eq hsame.allFds hsame.maxFd hsame.listening hsame.adapters
      (congrArg _ hsame.run) (congrArg _ hsame.run)
  · refine ⟨?_, ?_, ?_, ?_, ?_, ?_⟩
    · rw [hsame.started, hsame.run, hsame.listening, hsame.listenFd, hsame.user]
      exact h.started
    · rw [hsame.started, hsame.run, hsame.listening, hsame.user]
      exact h.stopped
    · rw [hsame.run, hsame.user]
      exact h.waiting
    · rw [hsame.run, hsame.listening]
      exact h.scanned
    · rw [hsame.run, hsame.adapters]
      exact h.emptied
    · rw [hsame.run]
      exact h.behind
  · intro fd hfd
    rw [hsame.run] at hfd
    obtain ⟨c, hc, htbl, hforeign⟩ := h.fresh fd hfd
    exact ⟨c, hsame.reported ▸ hc, htable fd c hforeign htbl, hforeign⟩

theorem Sound.closeSocket (h : Sound s) (a : AdapterId) : Sound (s.closeSocket a) := by
  obtain ⟨hsame, htable⟩ := sameLoop_closeSocket s a
  refine h.same hsame (h.toTables.closeSocket a) fun fd c _ hfd => ?_
  rw [htable]
  exact hfd

theorem Sound.io (h : Sound s) (call : Syscall) (owner : OpenFile) (fd : Nat) :
    Sound (s.io call owner fd) :=
  h.same ⟨rfl, rfl, rfl, rfl, rfl, rfl, rfl, rfl, rfl⟩ { h.toTables with } fun _ _ _ hfd => hfd

theorem Sound.write (h : Sound s) {ok : Bool} (hst : step tcp s (.write a ok) = some s') :
    Sound s' := by
  obtain ⟨k, -, rfl⟩ := step_write hst
  split
  · split
    · exact h.io _ _ _
    · exact (h.io _ _ _).closeSocket a
  · exact h

theorem Sound.openForeign (h : Sound s) (hst : step tcp s (.openForeign fd) = some s') :
    Sound s' := by
  obtain ⟨hfree, rfl⟩ := step_openForeign hst
  refine h.same ⟨rfl, rfl, rfl, rfl, rfl, rfl, rfl, rfl, rfl⟩
    (h.toTables.foreign (.inr rfl) (.inl hfree)) fun x c _ hx => ?_
  have hne : x ≠ fd := by
    rintro rfl
    cases hfree.symm.trans hx
  exact (Function.update_of_ne hne ..).trans hx

theorem Sound.closeForeign (h : Sound s) (hst : step tcp s (.closeForeign fd) = some s') :
    Sound s' := by
  obtain ⟨hforeign, rfl⟩ := step_closeForeign hst
  refine h.same ⟨rfl, rfl, rfl, rfl, rfl, rfl, rfl, rfl, rfl⟩
    (h.toTables.foreign (.inl rfl) (.inr hforeign)) fun x c hc hx => ?_
  have hne : x ≠ fd := by
    rintro rfl
    exact hc (Option.some.inj (hx.symm.trans hforeign))
  exact (Function.update_of_ne hne ..).trans hx

theorem Sound.start {lfd : Option Nat} (h : Sound s) (hst : step tcp s (.start lfd) = some s') :
    Sound s' := by
  obtain ⟨hidle, rfl | ⟨lfd, -, hstopped, hfree, rfl⟩⟩ := step_start hst
  · exact h
  · obtain ⟨hlistening, hrun, -⟩ := h.stopped hstopped
    refine ⟨h.toTables.start hfree hlistening hrun, ⟨nofun, nofun⟩,
      ⟨?_, nofun, ?_, nofun, ?_, nofun⟩, nofun⟩
    · exact fun _ => ⟨nofun, lfd, rfl, .inl ⟨rfl, nofun⟩⟩
    · exact iff_of_true rfl rfl
    · exact fun _ => h.emptied (.inl hrun)

theorem Sound.begin (h : Sound s) (hst : step tcp s .begin = some s') : Sound s' := by
  obtain ⟨hrun, lfd, hlfd, rfl⟩ := step_begin hst
  have huser : s.user = .waiting := h.waiting.mpr hrun
  have hstarted : s.started = true := by
    rw [← Bool.not_eq_false]
    intro hstopped
    cases hrun.symm.trans (h.stopped hstopped).2.1
  obtain ⟨fd, hlistening, ⟨hfd, -⟩ | ⟨hfd, -⟩⟩ := (h.started hstarted).2
  · cases hlfd.symm.trans hfd
    have hempty := h.emptied (.inr (.inl hrun))
    refine ⟨h.toTables.of_eq rfl rfl rfl rfl rfl (by rw [hrun]; rfl) nofun nofun, ⟨?_, ?_⟩,
      ⟨?_, ?_, ?_, nofun, nofun, nofun⟩, nofun⟩
    · intro _ x
      change fdSet (fun _ => false) lfd x = true ↔ x < fdSetSize ∧
        (s.listening = some x ∨ _ ∧ ∃ a, s.adapters.lookup x = some a)
      by_cases hx : x = lfd
      · subst hx
        simp [fdSet_self, hlistening]
      · simp [fdSet_of_ne hx, hlistening, hempty x, Ne.symm hx]
    · intro _ x hx
      change x < lfd + 1
      change fdSet (fun _ => false) lfd x = true at hx
      by_cases hxl : x = lfd
      · omega
      · rw [fdSet_of_ne hxl] at hx
        cases hx
    · intro _
      rw [if_pos huser]
      exact ⟨nofun, lfd, hlistening, .inl ⟨hfd, nofun⟩⟩
    · intro hstopped
      cases hstarted.symm.trans hstopped
    · rw [if_pos huser]
      exact iff_of_false nofun nofun
  · cases hlfd.symm.trans hfd

theorem Sound.returnStart (h : Sound s) (hst : step tcp s .returnStart = some s') : Sound s' := by
  obtain ⟨huser, rfl⟩ := step_returnStart hst
  refine ⟨{ h.toTables with }, { h.toWatches with }, ⟨?_, ?_, ?_, h.scanned, h.emptied, h.behind⟩,
    h.fresh⟩
  · intro hstarted
    obtain ⟨hrun, fd, hlistening, ⟨hfd, -⟩ | ⟨-, hjoin⟩⟩ := h.started hstarted
    · exact ⟨hrun, fd, hlistening, .inl ⟨hfd, nofun⟩⟩
    · cases huser.symm.trans hjoin
  · intro hstopped
    cases huser.symm.trans (h.stopped hstopped).2.2
  · refine iff_of_false nofun fun hrun => ?_
    cases huser.symm.trans (h.waiting.mpr hrun)

theorem Sound.getListenFd (h : Sound s) (hst : step tcp s .getListenFd = some s') : Sound s' := by
  obtain ⟨rfds, timeout, hrun, hs'⟩ := step_getListenFd hst
  have hloops : s.run.loops = true := by rw [hrun]; rfl
  have hstarted : s.started = true := by
    rw [← Bool.not_eq_false]
    intro hstopped
    cases hrun.symm.trans (h.stopped hstopped).2.1
  have htables {run : PollPc} (hentry : run.entry = none) (herases : run.erases = none)
      (hmuted : ∀ fd a back, run ≠ .closingFd fd a back) : Tables { s with run := run } := by
    refine h.toTables.of_eq rfl rfl rfl rfl rfl ?_ ?_ fun fd a back hb => absurd hb (hmuted fd a back)
    · rw [hrun]
      exact herases
    · intro fd a ha
      rw [show run.entry = _ from ha] at hentry
      cases hentry
  obtain ⟨-, rfl⟩ | rfl | ⟨lfd, hlfd, rfl⟩ := hs'
  · exact ⟨htables rfl rfl nofun, h.toWatches.of_eq rfl rfl rfl rfl hloops.symm (by rw [hrun]; rfl),
      h.toControls.move rfl rfl rfl rfl rfl hloops rfl nofun nofun nofun, nofun⟩
  · exact ⟨htables rfl rfl nofun, h.toWatches.of_eq rfl rfl rfl rfl hloops.symm (by rw [hrun]; rfl),
      h.toControls.move rfl rfl rfl rfl rfl hloops rfl nofun nofun nofun, nofun⟩
  · refine ⟨htables rfl rfl nofun, h.toWatches.of_eq rfl rfl rfl rfl hloops.symm (by rw [hrun]; rfl),
      h.toControls.move rfl rfl rfl rfl rfl hloops rfl ?_ nofun nofun, ?_⟩
    · intro scan hscan
      cases hscan
      obtain ⟨fd, hlistening, ⟨hfd, -⟩ | ⟨hfd, -⟩⟩ := (h.started hstarted).2
      · cases hlfd.symm.trans hfd
        exact hlistening
      · cases hlfd.symm.trans hfd
    · refine h.fresh.of_pending rfl rfl fun fd hfd => ?_
      rw [hrun]
      simpa [PollPc.pending, PollPc.scan] using hfd

theorem Sound.endScan (h : Sound s) (hst : step tcp s .endScan = some s') : Sound s' := by
  obtain ⟨scan, hrun, -, rfl⟩ := step_endScan hst
  have hloops : s.run.loops = true := by rw [hrun]; rfl
  exact ⟨h.toTables.of_eq rfl rfl rfl rfl rfl (by rw [hrun]; rfl) nofun nofun,
    h.toWatches.of_eq rfl rfl rfl rfl hloops.symm (by rw [hrun]; rfl),
    h.toControls.move rfl rfl rfl rfl rfl hloops rfl nofun nofun nofun, nofun⟩

/-- The loop goes on behind the current descriptor. -/
theorem Sound.next (h : Sound s) {scan : Scan} (hrun : s.run = .scanning scan) :
    Sound { s with run := .scanning scan.next } := by
  have hloops : s.run.loops = true := by rw [hrun]; rfl
  refine ⟨h.toTables.of_eq rfl rfl rfl rfl rfl (by rw [hrun]; rfl) nofun nofun,
    h.toWatches.of_eq rfl rfl rfl rfl hloops.symm (by rw [hrun]; rfl),
    h.toControls.move rfl rfl rfl rfl rfl hloops rfl ?_ nofun nofun, ?_⟩
  · intro x hx
    cases hx
    exact h.scanned scan (by rw [hrun]; rfl)
  · refine h.fresh.of_pending rfl rfl fun fd hfd => ?_
    rw [hrun]
    exact (pending_next rfl (by nofun) hfd).1

/-- What was reported for the current descriptor is taken; the ends of the others are different. -/
theorem Sound.consume (h : Sound s) {scan : Scan} {owner : OpenFile} {run : PollPc}
    (hrun : s.run = .scanning scan) (howner : s.table scan.ifd = some owner)
    (hs : Sound { s with run := run }) (hscan : run.scan = some scan.next)
    (hpolled : ∀ rfds timeout, run ≠ .polled rfds timeout) (hforeign : owner ≠ .foreign) :
    Sound { s.consume owner with run := run } := by
  refine ⟨{ hs.toTables with }, { hs.toWatches with }, { hs.toControls with }, ?_⟩
  intro fd hfd
  obtain ⟨hpending, hne⟩ := pending_next hscan hpolled hfd
  obtain ⟨c, hc, htable, hcf⟩ := h.fresh fd (by rw [hrun]; exact hpending)
  refine ⟨c, List.mem_filter.mpr ⟨hc, decide_eq_true ?_⟩, htable, hcf⟩
  rintro rfl
  cases c with
  | listener n =>
    have hfd := ((h.listener_iff fd n).mp htable).1
    exact hne (Option.some.inj (hfd.symm.trans ((h.listener_iff scan.ifd n).mp howner).1))
  | peer a =>
    obtain ⟨k, hk, rfl, -⟩ := (h.peer_iff fd a).mp htable
    obtain ⟨x, hx, hifd, -⟩ := (h.peer_iff scan.ifd a).mp howner
    cases hk.symm.trans hx
    exact hne hifd
  | foreign => exact hforeign rfl

theorem accept_eq {now : Nat} (h : s.accept tcp fd a now = some s')
    (hlookup : s.adapters.lookup fd = none) : s' = { s with
      table := Function.update s.table fd (some (.peer a))
      sockets := Function.update s.sockets a (some { socketfd := fd })
      maxFd := if fd ≥ s.maxFd then fd + 1 else s.maxFd
      allFds := fdSet s.allFds fd
      adapters := s.adapters.insert fd a
      beep := if tcp then { s.beep.doAccept a now with clock := now } else s.beep } := by
  simp only [SocketPoll.accept, AssocMap.insertNew_of_none hlookup, Option.ite_none_right_eq_some,
    Option.some.injEq] at h
  exact h.2.symm

theorem Sound.doAccept (h : Sound s) {conn : Option (Nat × AdapterId)} {now : Nat}
    (hst : step tcp s (.doAccept conn now) = some s') : Sound s' := by
  obtain ⟨scan, t, hrun, -, hifd, -, rfl, hs'⟩ := step_doAccept hst
  have howner : s.table scan.ifd = some (.listener s.starts) :=
    (h.listener_iff _ _).mpr ⟨hifd ▸ h.scanned scan (by rw [hrun]; rfl), rfl⟩
  have ht : Sound { (s.io .accept (.listener s.starts) scan.lfd).consume (.listener s.starts) with
      run := .scanning scan.next } :=
    ((h.io _ _ _).consume hrun howner ((h.io _ _ _).next hrun) rfl nofun nofun)
  obtain rfl | ⟨fd, a, -, hfree, hnew, haccept⟩ := hs'
  · exact ht
  · have htables := ht.toTables.accept rfl rfl nofun haccept
    have hlookup := lookup_none_of_free ht.toTables hfree rfl
    have hs' := accept_eq haccept hlookup
    subst hs'
    refine ⟨htables, ⟨?_, ?_⟩, ?_, ?_⟩
    · intro _ x
      change fdSet s.allFds fd x = true ↔ x < fdSetSize ∧
        (s.listening = some x ∨ _ ∧ ∃ b, (s.adapters.insert fd a).lookup x = some b)
      by_cases hx : x = fd
      · subst hx
        have hbelow (hset : s.allFds x = true) : x < fdSetSize := ((ht.watched rfl x).mp hset).1
        simpa [fdSet_self, PollPc.cleared] using hbelow
      · rw [fdSet_of_ne hx, AList.lookup_insert_ne hx]
        exact ht.watched rfl x
    · intro _ x hx
      change fdSet s.allFds fd x = true at hx
      change x < if fd ≥ s.maxFd then fd + 1 else s.maxFd
      by_cases hxfd : x = fd
      · subst hxfd
        split <;> omega
      · rw [fdSet_of_ne hxfd] at hx
        have hlt := ht.bounded rfl x hx
        change x < s.maxFd at hlt
        split <;> omega
    · exact ⟨ht.started, ht.stopped, ht.waiting, ht.scanned, nofun, nofun⟩
    · intro x hx
      obtain ⟨c, hc, htable, hforeign⟩ := ht.fresh x hx
      refine ⟨c, hc, (Function.update_of_ne ?_ ..).trans htable, hforeign⟩
      rintro rfl
      cases hfree.symm.trans htable

theorem readSocket_eq {ok : Bool} {now : Nat} (hs' : s.readSocket tcp a ok now = some s') :
    ∃ k beep, s.sockets a = some k ∧
      beep = (if tcp then { s.beep.doRead a ok now with clock := now } else s.beep) ∧
      s' = if k.buffer then
        { (s.io .read (.peer a) k.socketfd).consume (.peer a) with beep := beep }
      else { s with beep := beep } := by
  unfold readSocket at hs'
  split at hs'
  · cases hs'
  · rename_i k hk
    split at hs'
    · cases hs'
    · cases hs'
      refine ⟨k, _, hk, rfl, ?_⟩
      cases k.buffer <;> rfl

theorem Sound.doRead (h : Sound s) {ok : Bool} {now : Nat}
    (hst : step tcp s (.doRead ok now) = some s') : Sound s' := by
  obtain ⟨scan, a, t, hrun, -, -, ha, ht, rfl⟩ := step_doRead hst
  have hloops : s.run.loops = true := by rw [hrun]; rfl
  obtain ⟨k, beep, hk, -, rfl⟩ := readSocket_eq ht
  obtain ⟨x, hx, hfd, hreleased⟩ := (h.listed_iff scan.ifd a).mp ha
  cases hk.symm.trans hx
  rw [hrun] at hreleased
  have hpeer := h.reached hk (hreleased.resolve_right nofun)
  rw [hfd] at hpeer
  -- after the read the loop goes on, or `delete_adapter` does
  obtain ⟨run, hmove, hscan, hpolled⟩ : ∃ run,
      (if ok then PollPc.scanning scan.next else .closing scan.ifd a (some scan.next)) = run ∧
      run.scan = some scan.next ∧ ∀ rfds timeout, run ≠ .polled rfds timeout := by
    cases ok <;> exact ⟨_, rfl, rfl, nofun⟩
  have hs : Sound { s with run := run } := by
    subst hmove
    cases ok with
    | true => exact h.next hrun
    | false =>
      refine ⟨h.toTables.of_eq rfl rfl rfl rfl rfl (by rw [hrun]; rfl) ?_ nofun,
        h.toWatches.of_eq rfl rfl rfl rfl hloops.symm (by rw [hrun]; rfl),
        h.toControls.move rfl rfl rfl rfl rfl hloops rfl ?_ nofun ?_, ?_⟩
      · intro fd b hb
        cases hb
        exact ha
      · intro y hy
        cases hy
        exact h.scanned scan (by rw [hrun]; rfl)
      · intro fd b hb
        cases hb
        rw [← Bool.not_eq_true]
        exact fun hpending => (pending_next rfl (by nofun) hpending).2 rfl
      · refine h.fresh.of_pending rfl rfl fun fd hb => ?_
        rw [hrun]
        exact (pending_next rfl (by nofun) hb).1
  rw [hmove]
  split
  · have hread := h.consume hrun hpeer hs hscan hpolled nofun
    exact ⟨{ hread.toTables with }, { hread.toWatches with }, { hread.toControls with }, hread.fresh⟩
  · exact ⟨{ hs.toTables with }, { hs.toWatches with }, { hs.toControls with }, hs.fresh⟩

theorem Sound.closeAdapter (h : Sound s) (hst : step tcp s .closeAdapter = some s') : Sound s' := by
  obtain ⟨fd, a, back, hrun, rfl⟩ := step_closeAdapter hst
  have hloops : s.run.loops = true := by rw [hrun]; rfl
  have hentry : s.run.entry = some (fd, a) := by rw [hrun]; rfl
  obtain ⟨k, hk, hfd, hreleased⟩ := h.entry_socket hentry (by rw [hrun]; rfl)
  have hpeer := h.reached hk hreleased
  rw [hfd] at hpeer
  have htables := h.toTables.clearAdapter hrun
  obtain ⟨hsame, htable⟩ := sameLoop_closeSocket s a
  have hclear : s.clearAdapter a =
      { s.closeSocket a with allFds := Function.update s.allFds fd false } := by
    unfold SocketPoll.clearAdapter
    rw [hk, ← hfd]
  rw [hclear] at htables ⊢
  refine ⟨htables, ⟨?_, ?_⟩, ?_, ?_⟩
  · intro _ x
    change Function.update s.allFds fd false x = true ↔ x < fdSetSize ∧
      ((s.closeSocket a).listening = some x ∨
        some fd ≠ some x ∧ ∃ b, (s.closeSocket a).adapters.lookup x = some b)
    rw [hsame.listening, hsame.adapters]
    by_cases hx : x = fd
    · subst hx
      have hlistening : s.listening ≠ some x := by
        intro hl
        rw [(h.listener_iff x s.starts).mpr ⟨hl, rfl⟩] at hpeer
        cases hpeer
      simp [hlistening]
    · rw [Function.update_of_ne hx, h.watched hloops x, hrun]
      simp [PollPc.cleared, Ne.symm hx]
  · intro _ x hx
    change Function.update s.allFds fd false x = true at hx
    change x < (s.closeSocket a).maxFd
    rw [hsame.maxFd]
    by_cases hxfd : x = fd
    · subst hxfd
      rw [Function.update_self] at hx
      cases hx
    · rw [Function.update_of_ne hxfd] at hx
      exact h.bounded hloops x hx
  · refine h.toControls.move hsame.started hsame.listenFd hsame.user hsame.listening hsame.adapters
      hloops rfl (fun scan hscan => h.scanned scan ?_) nofun fun x b hb => ?_
    · rw [hrun]
      exact hscan
    · cases hb
      have hbehind := h.behind fd a hentry
      rw [hrun] at hbehind
      exact hbehind
  · refine h.fresh.of_pending htable hsame.reported fun x hx => ?_
    rw [hrun]
    exact hx

theorem Sound.closeFd (h : Sound s) (hst : step tcp s .closeFd = some s') : Sound s' := by
  obtain ⟨fd, a, back, hrun, rfl⟩ := step_closeFd hst
  have hloops : s.run.loops = true := by rw [hrun]; rfl
  have hentry : s.run.entry = some (fd, a) := by rw [hrun]; rfl
  obtain ⟨k, hk, hfd, -⟩ := h.entry_socket hentry (by rw [hrun]; rfl)
  have htables := h.toTables.releaseSocket hrun
  have hrelease : s.releaseSocket a =
      { (s.io .close (.peer a) fd).setSocket a { k with released := true } with
        table := Function.update s.table fd none } := by
    unfold SocketPoll.releaseSocket
    rw [hk, ← hfd]
  have hbehind := h.behind fd a hentry
  rw [hrun] at hbehind
  rw [hrelease] at htables ⊢
  refine ⟨htables, h.toWatches.of_eq rfl rfl rfl rfl hloops.symm (by rw [hrun]; rfl),
    h.toControls.move rfl rfl rfl rfl rfl hloops rfl (fun scan hscan => h.scanned scan ?_) nofun
      fun x b hb => ?_, ?_⟩
  · rw [hrun]
    exact hscan
  · cases hb
    exact hbehind
  · intro x hx
    obtain ⟨c, hc, htable, hforeign⟩ := h.fresh x (by rw [hrun]; exact hx)
    refine ⟨c, hc, (Function.update_of_ne ?_ ..).trans htable, hforeign⟩
    rintro rfl
    cases hbehind.symm.trans hx

theorem Sound.eraseAdapter (h : Sound s) (hst : step tcp s .eraseAdapter = some s') : Sound s' := by
  obtain ⟨fd, a, back, hrun, rfl⟩ := step_eraseAdapter hst
  have hloops : s.run.loops = true := by rw [hrun]; rfl
  have hresume : (resume back).loops = true ∧ (resume back).cleared = none ∧
      (resume back).scan = back ∧ (resume back).entry = none ∧ resume back ≠ .exited ∧
      ∀ rfds timeout, resume back ≠ .polled rfds timeout := by
    cases back <;> exact ⟨rfl, rfl, rfl, rfl, nofun, nofun⟩
  obtain ⟨hloops', hcleared, hscan, hentry, hexited, hpolled⟩ := hresume
  have hlookup (x : Nat) : (∃ b, (s.adapters.erase fd).lookup x = some b) ↔
      some fd ≠ some x ∧ ∃ b, s.adapters.lookup x = some b := by
    by_cases hx : x = fd
    · subst hx
      simp [AList.lookup_erase]
    · simp [AList.lookup_erase_ne hx, Ne.symm hx]
  refine ⟨h.toTables.eraseAdapter hrun, ⟨?_, ?_⟩, ?_, ?_⟩
  · intro _ x
    change s.allFds x = true ↔ x < fdSetSize ∧ (s.listening = some x ∨
      (resume back).cleared ≠ some x ∧ ∃ b, (s.adapters.erase fd).lookup x = some b)
    rw [h.watched hloops x, hrun, hcleared, hlookup]
    simp [PollPc.cleared]
  · exact fun _ => h.bounded hloops
  · have hmoved : Controls { s with run := resume back } := by
      refine h.toControls.move rfl rfl rfl rfl rfl hloops hloops' ?_ (fun hex => absurd hex hexited) ?_
      · intro scan hx
        rw [show (resume back).scan = some scan from hx] at hscan
        exact h.scanned scan (by rw [hrun]; exact hscan.symm)
      · intro x b hb
        cases hentry.symm.trans hb
    refine ⟨hmoved.started, hmoved.stopped, hmoved.waiting, hmoved.scanned, ?_, hmoved.behind⟩
    rintro (hex | hex | hex)
    · exact absurd (congrArg PollPc.loops hex) (by rw [show _ = true from hloops']; simp [PollPc.loops])
    · exact absurd (congrArg PollPc.loops hex) (by rw [show _ = true from hloops']; simp [PollPc.loops])
    · exact absurd hex hexited
  · refine h.fresh.of_pending rfl rfl fun x hx => ?_
    rw [hrun]
    cases back with
    | none => cases hx
    | some scan => exact hx

theorem Sound.release (h : Sound s) (hst : step tcp s .release = some s') : Sound s' := by
  obtain ⟨hrun, ⟨hkeys, rfl⟩ | ⟨fd, a, ha, rfl⟩⟩ := step_release hst
  · have hloops : s.run.loops = true := by rw [hrun]; rfl
    have hempty (fd : Nat) : s.adapters.lookup fd = none := by
      rw [AList.lookup_eq_none, AList.mem_keys, hkeys]
      exact List.not_mem_nil
    exact ⟨h.toTables.of_eq rfl rfl rfl rfl rfl (by rw [hrun]; rfl) nofun nofun,
      h.toWatches.of_eq rfl rfl rfl rfl hloops.symm (by rw [hrun]; rfl),
      h.toControls.move rfl rfl rfl rfl rfl hloops rfl nofun (fun _ => hempty) nofun, nofun⟩
  · have hloops : s.run.loops = true := by rw [hrun]; rfl
    refine ⟨h.toTables.of_eq rfl rfl rfl rfl rfl (by rw [hrun]; rfl) ?_ nofun,
      h.toWatches.of_eq rfl rfl rfl rfl hloops.symm (by rw [hrun]; rfl),
      h.toControls.move rfl rfl rfl rfl rfl hloops rfl nofun nofun fun _ _ _ => rfl, nofun⟩
    intro x b hb
    cases hb
    exact ha

theorem Sound.stop (h : Sound s) (hst : step tcp s .stop = some s') : Sound s' := by
  obtain ⟨hidle, ⟨-, rfl⟩ | ⟨hstarted, rfl⟩⟩ := step_stop hst
  · exact h
  · obtain ⟨hrun, fd, hlistening, ⟨hfd, -⟩ | ⟨-, hjoin⟩⟩ := h.started hstarted
    · rw [hfd]
      have hio := h.io .shutdown (.listener s.starts) fd
      refine ⟨{ hio.toTables with }, { hio.toWatches with }, ⟨?_, ?_, ?_, hio.scanned, hio.emptied,
        hio.behind⟩, hio.fresh⟩
      · exact fun _ => ⟨hrun, fd, hlistening, .inr ⟨rfl, rfl⟩⟩
      · intro hstopped
        cases hstarted.symm.trans hstopped
      · refine iff_of_false nofun fun hstarting => ?_
        cases hidle.symm.trans (h.waiting.mpr hstarting)
    · cases hidle.symm.trans hjoin

theorem Sound.join (h : Sound s) (hst : step tcp s .join = some s') : Sound s' := by
  obtain ⟨fd, huser, hrun, rfl⟩ := step_join hst
  have hstarted : s.started = true := by
    rw [← Bool.not_eq_false]
    intro hstopped
    cases huser.symm.trans (h.stopped hstopped).2.2
  obtain ⟨-, lfd, hlistening, ⟨-, hjoin⟩ | ⟨hlfd, hjoin⟩⟩ := h.started hstarted
  · exact absurd huser (hjoin fd)
  · cases huser.symm.trans hjoin
    refine ⟨h.toTables.join hlistening hrun, ⟨nofun, nofun⟩, ⟨nofun, ?_, ?_, nofun, ?_, nofun⟩, nofun⟩
    · exact fun _ => ⟨rfl, rfl, rfl⟩
    · exact iff_of_false nofun nofun
    · exact fun _ => h.emptied (.inr (.inr hrun))

theorem sound_step {act : Action} (hs : Sound s) (h : step tcp s act = some s') : Sound s' := by
  cases act with
  | start fd => exact hs.start h
  | begin => exact hs.begin h
  | returnStart => exact hs.returnStart h
  | doPoll ready now =>
    obtain ⟨hrun, -, hready, rfl⟩ := step_doPoll h
    exact hs.doPoll hrun hready
  | getListenFd => exact hs.getListenFd h
  | endScan => exact hs.endScan h
  | skip =>
    obtain ⟨scan, hrun, rfl⟩ := step_skip h
    exact hs.next hrun
  | doAccept conn now => exact hs.doAccept h
  | doRead ok now => exact hs.doRead h
  | closeAdapter => exact hs.closeAdapter h
  | closeFd => exact hs.closeFd h
  | eraseAdapter => exact hs.eraseAdapter h
  | release => exact hs.release h
  | stop => exact hs.stop h
  | join => exact hs.join h
  | config timeout =>
    cases h
    exact ⟨{ hs.toTables with }, { hs.toWatches with }, { hs.toControls with }, hs.fresh⟩
  | write a ok => exact hs.write h
  | close a =>
    rw [step_close h]
    exact hs.closeSocket a
  | openForeign fd => exact hs.openForeign h
  | closeForeign fd => exact hs.closeForeign h

end SocketPoll

end Flora
