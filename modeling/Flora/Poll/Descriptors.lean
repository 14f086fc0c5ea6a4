import Flora.Poll.Run

/-! # Descriptors of a poll

A number is used by at most one end at a time, but it is used again. An adapter closes its
descriptor after its buffer is gone, under the lock that every write takes, so the calls of the run
thread and of the dispatcher thread on the number of an adapter reach its own connection. -/

namespace Flora

open TransitionSystem

namespace PollPc

/-- The adapter whose descriptor is closed and whose entry is still there. -/
def erases : PollPc → Option AdapterId
  | .erasing _ a _ => some a
  | _ => none

/-- The entry that is being deleted. -/
def entry : PollPc → Option (Nat × AdapterId)
  | .closing fd a _ => some (fd, a)
  | .closingFd fd a _ => some (fd, a)
  | .erasing fd a _ => some (fd, a)
  | _ => none

/-- The descriptor of an entry that is no longer in `all_fds`. -/
def cleared : PollPc → Option Nat
  | .closingFd fd _ _ => some fd
  | .erasing fd _ _ => some fd
  | _ => none

/-- The locals of the loop over the descriptors. -/
def scan : PollPc → Option Scan
  | .scanning scan => some scan
  | .closing _ _ back => back
  | .closingFd _ _ back => back
  | .erasing _ _ back => back
  | _ => none

/-- The descriptors that were reported and have not been looked at. -/
def pending : PollPc → Nat → Bool
  | .polled rfds _, fd => rfds fd
  | pc, fd => pc.scan.any fun scan => scan.rfds fd && scan.ifd ≤ fd

/-- The run thread has set up its descriptors. -/
def loops : PollPc → Bool
  | .absent => false
  | .starting => false
  | _ => true

end PollPc

namespace SocketPoll

/-- How the descriptor table, the adapters and the map `adapters` belong together. -/
structure Tables (s : SocketPoll) : Prop where
  peer_iff : ∀ fd a, s.table fd = some (.peer a) ↔
    ∃ k, s.sockets a = some k ∧ k.socketfd = fd ∧ k.released = false
  listener_iff : ∀ fd n, s.table fd = some (.listener n) ↔ s.listening = some fd ∧ n = s.starts
  buffered : ∀ a k, s.sockets a = some k → k.buffer = true → k.released = false
  listed_iff : ∀ fd a, s.adapters.lookup fd = some a ↔
    ∃ k, s.sockets a = some k ∧ k.socketfd = fd ∧ (k.released = false ∨ s.run.erases = some a)
  entry : ∀ fd a, s.run.entry = some (fd, a) → s.adapters.lookup fd = some a
  muted : ∀ fd a back, s.run = .closingFd fd a back → ∀ k, s.sockets a = some k → k.buffer = false
  gone : ∀ a, s.run.erases = some a → ∀ k, s.sockets a = some k → k.released = true

/-- What `select` is given. -/
structure Watches (s : SocketPoll) : Prop where
  watched : s.run.loops = true → ∀ fd, s.allFds fd = true ↔ fd < fdSetSize ∧
    (s.listening = some fd ∨ s.run.cleared ≠ some fd ∧ ∃ a, s.adapters.lookup fd = some a)
  bounded : s.run.loops = true → ∀ fd, s.allFds fd = true → fd < s.maxFd

/-- How the run thread and the thread that starts and stops it stand to each other. -/
structure Controls (s : SocketPoll) : Prop where
  started : s.started = true → s.run ≠ .absent ∧ ∃ fd, s.listening = some fd ∧
    ((s.listenFd = some fd ∧ ∀ x, s.user ≠ .joining x) ∨
      (s.listenFd = none ∧ s.user = .joining (some fd)))
  stopped : s.started = false → s.listening = none ∧ s.run = .absent ∧ s.user = .idle
  waiting : s.user = .waiting ↔ s.run = .starting
  scanned : ∀ scan, s.run.scan = some scan → s.listening = some scan.lfd
  emptied : s.run = .absent ∨ s.run = .starting ∨ s.run = .exited →
    ∀ fd, s.adapters.lookup fd = none
  behind : ∀ fd a, s.run.entry = some (fd, a) → s.run.pending fd = false

/-- What was reported for the descriptors ahead is still there. -/
def Fresh (s : SocketPoll) : Prop :=
  ∀ fd, s.run.pending fd = true → ∃ c ∈ s.reported, s.table fd = some c ∧ c ≠ .foreign

structure Sound (s : SocketPoll) : Prop extends Tables s, Watches s, Controls s where
  fresh : Fresh s

variable {tcp : Bool} {s s' : SocketPoll} {a b : AdapterId} {fd : Nat} {k : SocketHandle}

theorem Tables.of_eq (h : Tables s) (htable : s'.table = s.table) (hsockets : s'.sockets = s.sockets)
    (hadapters : s'.adapters = s.adapters) (hlistening : s'.listening = s.listening)
    (hstarts : s'.starts = s.starts) (herases : s'.run.erases = s.run.erases)
    (hentry : ∀ fd a, s'.run.entry = some (fd, a) → s.adapters.lookup fd = some a)
    (hmuted : ∀ fd a back, s'.run = .closingFd fd a back → s.run = .closingFd fd a back) :
    Tables s' where
  peer_iff := by rw [htable, hsockets]; exact h.peer_iff
  listener_iff := by rw [htable, hlistening, hstarts]; exact h.listener_iff
  buffered := by rw [hsockets]; exact h.buffered
  listed_iff := by rw [hadapters, hsockets, herases]; exact h.listed_iff
  entry := by rw [hadapters]; exact hentry
  muted := by
    rw [hsockets]
    exact fun fd a back hrun => h.muted fd a back (hmuted fd a back hrun)
  gone := by rw [hsockets, herases]; exact h.gone

/-- A call on the descriptor of an adapter with a buffer reaches its connection. -/
theorem Tables.reached (h : Tables s) (hk : s.sockets a = some k) (hreleased : k.released = false) :
    s.table k.socketfd = some (.peer a) :=
  (h.peer_iff _ _).mpr ⟨k, hk, rfl, hreleased⟩

theorem setSocket_sockets (a b : AdapterId) (k : SocketHandle) :
    (s.setSocket a k).sockets b = if b = a then some k else s.sockets b := by
  simp [setSocket, Function.update_apply]

/-- An adapter without its buffer has the same descriptor. -/
theorem exists_muted_iff (P : Bool → Prop) (hk : s.sockets a = some k) :
    (∃ x, Function.update s.sockets a (some { k with buffer := false }) b = some x ∧
      x.socketfd = fd ∧ P x.released) ↔ ∃ x, s.sockets b = some x ∧ x.socketfd = fd ∧ P x.released := by
  by_cases hb : b = a
  · subst hb
    simp [hk]
  · rw [Function.update_of_ne hb]

/-- `closeSocket` changes the buffer of the adapter and nothing else but the history of calls. -/
theorem closeSocket_cases (a : AdapterId) : s.closeSocket a = s ∨
    ∃ k, s.sockets a = some k ∧ k.buffer = true ∧ s.closeSocket a =
      (s.io .shutdown (.peer a) k.socketfd).setSocket a { k with buffer := false } := by
  unfold closeSocket
  split
  · exact .inl rfl
  · rename_i k hk
    split
    · rename_i hbuffer
      exact .inr ⟨k, hk, hbuffer, rfl⟩
    · exact .inl rfl

theorem Tables.closeSocket (h : Tables s) (a : AdapterId) : Tables (s.closeSocket a) := by
  obtain heq | ⟨k, hk, hbuffer, heq⟩ := closeSocket_cases (s := s) a
  · rw [heq]
    exact h
  · rw [heq]
    refine ⟨?_, h.listener_iff, ?_, ?_, h.entry, ?_, ?_⟩
    · intro fd b
      exact (h.peer_iff fd b).trans (exists_muted_iff (· = false) hk).symm
    · intro b x hx
      rw [setSocket_sockets] at hx
      split at hx
      · cases hx
        nofun
      · exact h.buffered b x hx
    · intro fd b
      exact (h.listed_iff fd b).trans
        (exists_muted_iff (fun r => r = false ∨ s.run.erases = some b) hk).symm
    · intro fd b back hrun x hx
      rw [setSocket_sockets] at hx
      split at hx
      · cases hx
        rfl
      · exact h.muted fd b back hrun x hx
    · intro b hb x hx
      rw [setSocket_sockets] at hx
      split at hx
      · rename_i hba
        cases hx
        exact h.gone b hb k (hba ▸ hk)
      · exact h.gone b hb x hx

theorem closeSocket_buffer (hk : (s.closeSocket a).sockets a = some k) : k.buffer = false := by
  unfold SocketPoll.closeSocket at hk
  split at hk
  · rename_i hnone
    rw [hnone] at hk
    cases hk
  · rename_i x hx
    split at hk
    · rw [setSocket_sockets, if_pos rfl] at hk
      cases hk
      rfl
    · rename_i hbuffer
      rw [hx] at hk
      cases hk
      simpa using hbuffer

/-- A descriptor that does not refer to `c` before and after a change is none of its. -/
theorem update_eq_some_iff {t : Nat → Option OpenFile} {v : Option OpenFile} {c : OpenFile}
    {fd x : Nat} (hnew : v ≠ some c) (hold : t fd ≠ some c) :
    Function.update t fd v x = some c ↔ t x = some c := by
  by_cases hx : x = fd
  · subst hx
    simp [hnew, hold]
  · rw [Function.update_of_ne hx]

theorem Tables.foreign (h : Tables s) {v : Option OpenFile} (hv : v = none ∨ v = some .foreign)
    (hfd : s.table fd = none ∨ s.table fd = some .foreign) :
    Tables { s with table := Function.update s.table fd v } := by
  have hsame {x : Nat} {c : OpenFile} (hc : c ≠ .foreign) :
      Function.update s.table fd v x = some c ↔ s.table x = some c := by
    apply update_eq_some_iff
    · rintro rfl
      obtain hv | hv := hv
      · cases hv
      · exact hc (Option.some.inj hv)
    · intro hold
      rw [hold] at hfd
      obtain hfd | hfd := hfd
      · cases hfd
      · exact hc (Option.some.inj hfd)
  refine { h with peer_iff := fun x a => ?_, listener_iff := fun x n => ?_ }
  · exact (hsame OpenFile.noConfusion).trans (h.peer_iff x a)
  · exact (hsame OpenFile.noConfusion).trans (h.listener_iff x n)

theorem Tables.start (h : Tables s) {lfd : Nat} (hfree : s.table lfd = none)
    (hlistening : s.listening = none) (hrun : s.run = .absent) : Tables { s with
      table := Function.update s.table lfd (some (.listener (s.starts + 1)))
      started := true, listenFd := some lfd, run := .starting, user := .waiting
      starts := s.starts + 1, listening := some lfd } where
  peer_iff x a := by
    exact (update_eq_some_iff (by simp) (by simp [hfree])).trans (h.peer_iff x a)
  listener_iff x n := by
    change Function.update s.table lfd _ x = some (.listener n) ↔ some lfd = some x ∧ n = s.starts + 1
    by_cases hx : x = lfd
    · subst hx
      simp [eq_comm]
    · have hnone : s.table x ≠ some (.listener n) := by
        rw [Ne, h.listener_iff, hlistening]
        nofun
      rw [Function.update_of_ne hx]
      exact iff_of_false hnone fun heq => hx (Option.some.inj heq.1).symm
  buffered := h.buffered
  listed_iff := by
    have hlisted := h.listed_iff
    rw [hrun] at hlisted
    exact hlisted
  entry := nofun
  muted := nofun
  gone := nofun

theorem lookup_none_of_free (h : Tables s) (hfree : s.table fd = none)
    (herases : s.run.erases = none) : s.adapters.lookup fd = none := by
  rw [Option.eq_none_iff_forall_ne_some]
  intro a ha
  obtain ⟨k, hk, rfl, hreleased⟩ := (h.listed_iff fd a).mp ha
  rw [herases, or_iff_left nofun] at hreleased
  rw [h.reached hk hreleased] at hfree
  cases hfree

theorem exists_update_new_iff (P : Bool → Prop) (hnew : s.sockets a = none) (hP : P false) {x : Nat} :
    (∃ k, Function.update s.sockets a (some { socketfd := fd }) b = some k ∧
      k.socketfd = x ∧ P k.released) ↔
    if b = a then fd = x else ∃ k, s.sockets b = some k ∧ k.socketfd = x ∧ P k.released := by
  split
  · rename_i hb
    subst hb
    simp [hP]
  · rename_i hb
    rw [Function.update_of_ne hb]

theorem Tables.accept {now : Nat} (h : Tables s) (herases : s.run.erases = none)
    (hentry : s.run.entry = none) (hcleared : ∀ fd a back, s.run ≠ .closingFd fd a back)
    (hs' : s.accept tcp fd a now = some s') : Tables s' := by
  simp only [SocketPoll.accept, Option.ite_none_right_eq_some, Option.some.injEq] at hs'
  obtain ⟨⟨hfree, hnew⟩, rfl⟩ := hs'
  have hlookup := lookup_none_of_free h hfree herases
  have hunused {x : Nat} {P : Bool → Prop} :
      ¬ ∃ k, s.sockets a = some k ∧ k.socketfd = x ∧ P k.released := by
    rintro ⟨k, hk, -⟩
    rw [hnew] at hk
    cases hk
  rw [AssocMap.insertNew_of_none hlookup]
  refine ⟨?_, ?_, ?_, ?_, ?_, ?_, ?_⟩
  · intro x b
    refine Iff.trans ?_ (exists_update_new_iff (· = false) hnew rfl).symm
    change Function.update s.table fd (some (.peer a)) x = some (.peer b) ↔ _
    split
    · rename_i hb
      subst hb
      by_cases hx : x = fd
      · subst hx
        simp
      · have hold : s.table x ≠ some (.peer b) := fun hx =>
          hunused (P := (· = false)) ((h.peer_iff x b).mp hx)
        simp [Function.update_of_ne hx, hold, Ne.symm hx]
    · rename_i hb
      refine (update_eq_some_iff ?_ ?_).trans (h.peer_iff x b)
      · simpa using Ne.symm hb
      · simp [hfree]
  · intro x n
    exact (update_eq_some_iff (by simp) (by simp [hfree])).trans (h.listener_iff x n)
  · intro b x hx
    change Function.update s.sockets a _ b = some x at hx
    by_cases hb : b = a
    · subst hb
      rw [Function.update_self] at hx
      cases hx
      exact fun _ => rfl
    · rw [Function.update_of_ne hb] at hx
      exact h.buffered b x hx
  · intro x b
    refine Iff.trans ?_ (exists_update_new_iff (fun r => r = false ∨ s.run.erases = some b) hnew
      (.inl rfl)).symm
    change (s.adapters.insert fd a).lookup x = some b ↔ _
    split
    · rename_i hb
      subst hb
      by_cases hx : x = fd
      · subst hx
        simp
      · have hold : s.adapters.lookup x ≠ some b := fun hx =>
          hunused (P := fun r => r = false ∨ s.run.erases = some b) ((h.listed_iff x b).mp hx)
        simp [AList.lookup_insert_ne hx, hold, Ne.symm hx]
    · rename_i hb
      refine Iff.trans ?_ (h.listed_iff x b)
      by_cases hx : x = fd
      · subst hx
        simp [hlookup, Ne.symm hb]
      · rw [AList.lookup_insert_ne hx]
  · intro x b hb
    rw [hentry] at hb
    cases hb
  · intro x b back hrun
    exact absurd hrun (hcleared x b back)
  · intro b hb
    rw [herases] at hb
    cases hb

/-- The entry that is being deleted before its descriptor is closed. -/
theorem Tables.entry_socket (h : Tables s) (hentry : s.run.entry = some (fd, a))
    (herases : s.run.erases = none) :
    ∃ k, s.sockets a = some k ∧ k.socketfd = fd ∧ k.released = false := by
  obtain ⟨k, hk, hfd, hreleased⟩ := (h.listed_iff fd a).mp (h.entry fd a hentry)
  rw [herases, or_iff_left nofun] at hreleased
  exact ⟨k, hk, hfd, hreleased⟩

theorem Tables.clearAdapter (h : Tables s) {back : Option Scan} (hrun : s.run = .closing fd a back) :
    Tables { s.clearAdapter a with run := .closingFd fd a back } := by
  have hentry : s.run.entry = some (fd, a) := by rw [hrun]; rfl
  obtain ⟨k, hk, -, -⟩ := h.entry_socket hentry (by rw [hrun]; rfl)
  have hclosed := h.closeSocket a
  have hrun' : (s.closeSocket a).run = .closing fd a back := by
    obtain heq | ⟨_, _, _, heq⟩ := closeSocket_cases (s := s) a <;> rw [heq] <;> exact hrun
  unfold SocketPoll.clearAdapter
  rw [hk]
  refine ⟨hclosed.peer_iff, hclosed.listener_iff, hclosed.buffered, ?_, ?_, ?_, nofun⟩
  · have hlisted := hclosed.listed_iff
    rw [hrun'] at hlisted
    exact hlisted
  · intro x b hb
    cases hb
    exact hclosed.entry fd a (hrun' ▸ rfl)
  · intro x b back' hb y hy
    cases hb
    exact closeSocket_buffer hy

theorem Tables.releaseSocket (h : Tables s) {back : Option Scan}
    (hrun : s.run = .closingFd fd a back) :
    Tables { s.releaseSocket a with run := .erasing fd a back } := by
  have hentry : s.run.entry = some (fd, a) := by rw [hrun]; rfl
  obtain ⟨k, hk, rfl, hreleased⟩ := h.entry_socket hentry (by rw [hrun]; rfl)
  have hpeer := h.reached hk hreleased
  have hmuted := h.muted k.socketfd a back hrun k hk
  unfold SocketPoll.releaseSocket
  rw [hk]
  refine ⟨?_, ?_, ?_, ?_, ?_, nofun, ?_⟩
  · intro x b
    change Function.update s.table k.socketfd none x = some (.peer b) ↔
      ∃ y, Function.update s.sockets a (some { k with released := true }) b = some y ∧ _
    by_cases hb : b = a
    · subst hb
      have hnone : Function.update s.table k.socketfd none x ≠ some (.peer b) := by
        intro hx
        by_cases hxk : x = k.socketfd
        · subst hxk
          rw [Function.update_self] at hx
          cases hx
        · rw [Function.update_of_ne hxk] at hx
          obtain ⟨y, hy, rfl, -⟩ := (h.peer_iff x b).mp hx
          cases hk.symm.trans hy
          exact hxk rfl
      simpa using hnone
    · rw [Function.update_of_ne hb]
      refine (update_eq_some_iff (by simp) ?_).trans (h.peer_iff x b)
      rw [hpeer]
      simpa using Ne.symm hb
  · intro x n
    refine (update_eq_some_iff (by simp) ?_).trans (h.listener_iff x n)
    rw [hpeer]
    simp
  · intro b y hy
    change Function.update s.sockets a (some { k with released := true }) b = some y at hy
    by_cases hb : b = a
    · subst hb
      rw [Function.update_self] at hy
      cases hy
      intro hbuffer
      exact absurd (hmuted.symm.trans hbuffer) Bool.false_ne_true
    · rw [Function.update_of_ne hb] at hy
      exact h.buffered b y hy
  · intro x b
    refine (h.listed_iff x b).trans ?_
    change _ ↔ ∃ y, Function.update s.sockets a (some { k with released := true }) b = some y ∧ _
    by_cases hb : b = a
    · subst hb
      simp [hk, hreleased, PollPc.erases]
    · rw [Function.update_of_ne hb, hrun]
      simp [PollPc.erases, Ne.symm hb]
  · intro x b hb
    cases hb
    exact h.entry k.socketfd a (hrun ▸ rfl)
  · intro b hb y hy
    cases hb
    change Function.update s.sockets a (some { k with released := true }) a = some y at hy
    rw [Function.update_self] at hy
    cases hy
    rfl

theorem Tables.eraseAdapter (h : Tables s) {back : Option Scan} (hrun : s.run = .erasing fd a back) :
    Tables { s with
      erased := s.erased ++ [a], adapters := s.adapters.erase fd, run := resume back } := by
  have hentry := h.entry fd a (hrun ▸ rfl)
  obtain ⟨k, hk, rfl, -⟩ := (h.listed_iff fd a).mp hentry
  have hgone := h.gone a (hrun ▸ rfl) k hk
  have hresume : (resume back).erases = none ∧ (resume back).entry = none := by
    cases back <;> exact ⟨rfl, rfl⟩
  refine ⟨h.peer_iff, h.listener_iff, h.buffered, ?_, ?_, ?_, ?_⟩
  · intro x b
    change (s.adapters.erase k.socketfd).lookup x = some b ↔
      ∃ y, s.sockets b = some y ∧ y.socketfd = x ∧ (_ ∨ (resume back).erases = some b)
    rw [hresume.1]
    by_cases hb : b = a
    · subst hb
      have hnone : (s.adapters.erase k.socketfd).lookup x ≠ some b := by
        intro hx
        by_cases hxk : x = k.socketfd
        · subst hxk
          rw [AList.lookup_erase] at hx
          cases hx
        · rw [AList.lookup_erase_ne hxk] at hx
          obtain ⟨y, hy, rfl, -⟩ := (h.listed_iff x b).mp hx
          cases hk.symm.trans hy
          exact hxk rfl
      simpa [hk, hgone] using hnone
    · have hold : s.adapters.lookup x = some b ↔
          ∃ y, s.sockets b = some y ∧ y.socketfd = x ∧ (y.released = false ∨ none = some b) := by
        have hlisted := h.listed_iff x b
        rw [hrun] at hlisted
        simpa [PollPc.erases, Ne.symm hb] using hlisted
      refine Iff.trans ?_ hold
      by_cases hxk : x = k.socketfd
      · subst hxk
        rw [AList.lookup_erase, hentry]
        simpa using Ne.symm hb
      · rw [AList.lookup_erase_ne hxk]
  · intro x b hb
    rw [hresume.2] at hb
    cases hb
  · intro x b back' hb
    cases back <;> cases hb
  · intro b hb
    rw [hresume.1] at hb
    cases hb

theorem Tables.join (h : Tables s) (hlistening : s.listening = some fd) (hrun : s.run = .exited) :
    Tables { s.ioListener .close (some fd) with
      table := s.tableWithout (some fd), started := false, listening := none, run := .absent
      user := .idle } := by
  have hlistener : s.table fd = some (.listener s.starts) :=
    (h.listener_iff fd s.starts).mpr ⟨hlistening, rfl⟩
  refine ⟨?_, ?_, h.buffered, ?_, nofun, nofun, nofun⟩
  · intro x a
    refine (update_eq_some_iff (by simp) ?_).trans (h.peer_iff x a)
    rw [hlistener]
    simp
  · intro x n
    change Function.update s.table fd none x = some (.listener n) ↔ none = some x ∧ _
    refine iff_of_false (fun hx => ?_) (by simp)
    by_cases hxfd : x = fd
    · subst hxfd
      rw [Function.update_self] at hx
      cases hx
    · rw [Function.update_of_ne hxfd] at hx
      exact hxfd (Option.some.inj (((h.listener_iff x n).mp hx).1.symm.trans hlistening))
  · have hlisted := h.listed_iff
    rw [hrun] at hlisted
    exact hlisted

end SocketPoll

end Flora
