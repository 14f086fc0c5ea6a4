import Flora.Poll.Calls

/-! # The life of the descriptors of a poll

`select` is given exactly the descriptors the poll has open, and what is read or accepted is what it
reported. Every adapter is closed and handed to `erase_adapter` once, and a poll that is stopped has
no descriptor left. -/

namespace Flora

open TransitionSystem

namespace SocketPoll

variable {tcp : Bool} {s s' : SocketPoll} {a b : AdapterId} {fd : Nat} {k : SocketHandle}

/-- Whether the descriptor of the adapter has been closed, if there is such an adapter. -/
def released (s : SocketPoll) (a : AdapterId) : Option Bool := (s.sockets a).map (·.released)

def IoCall.closes (a : AdapterId) (c : IoCall) : Bool := c.call == .close && c.owner == .peer a

/-- How often the descriptor of the adapter has been closed. -/
def closes (s : SocketPoll) (a : AdapterId) : Nat := s.calls.countP (IoCall.closes a)

structure Ledger (s : SocketPoll) : Prop where
  erased_iff : ∀ a, a ∈ s.erased ↔ s.released a = some true ∧ s.run.erases ≠ some a
  nodup : s.erased.Nodup
  closes : ∀ a, s.closes a = if s.released a = some true then 1 else 0

theorem Ledger.of_eq (h : Ledger s) (hreleased : ∀ a, s'.released a = s.released a)
    (herased : s'.erased = s.erased) (herases : s'.run.erases = s.run.erases)
    (hcloses : ∀ a, s'.closes a = s.closes a) : Ledger s' where
  erased_iff a := by
    rw [herased, hreleased, herases]
    exact h.erased_iff a
  nodup := herased ▸ h.nodup
  closes a := by
    rw [hcloses, hreleased]
    exact h.closes a

theorem step_closes {act : Action} (hs : Sound s) (h : step tcp s act = some s')
    (hact : act ≠ .closeFd) (a : AdapterId) : s'.closes a = s.closes a := by
  obtain ⟨l, hl, hnew⟩ := step_calls hs h
  have hnone : l.countP (IoCall.closes a) = 0 := by
    rw [List.countP_eq_zero]
    intro c hc hcloses
    obtain ⟨hcall, howner⟩ := Bool.and_eq_true_iff.mp hcloses
    obtain ⟨n, hn⟩ := ((hnew c hc).closing (beq_iff_eq.mp hcall)).resolve_right hact
    cases hn.symm.trans (beq_iff_eq.mp howner)
  rw [closes, closes, hl, List.countP_append, hnone, Nat.add_zero]

theorem closeSocket_released (a b : AdapterId) : (s.closeSocket a).released b = s.released b := by
  obtain heq | ⟨k, hk, -, heq⟩ := closeSocket_cases (s := s) a
  · rw [heq]
  · rw [heq, released, released, setSocket_sockets]
    split
    · rename_i hb
      rw [hb, hk]
      rfl
    · rfl

theorem closeSocket_erased (a : AdapterId) : (s.closeSocket a).erased = s.erased := by
  obtain heq | ⟨k, -, -, heq⟩ := closeSocket_cases (s := s) a
  · rw [heq]
  · rw [heq]
    rfl

theorem Ledger.accept (h : Ledger s) {t : SocketPoll} {now : Nat}
    (haccept : t.accept tcp fd a now = some s') (ht : ∀ b, t.released b = s.released b)
    (herased : t.erased = s.erased) (herases : t.run.erases = s.run.erases)
    (hcloses : ∀ b, s'.closes b = s.closes b) : Ledger s' := by
  simp only [SocketPoll.accept, Option.ite_none_right_eq_some, Option.some.injEq] at haccept
  obtain ⟨⟨-, hnew⟩, rfl⟩ := haccept
  have hreleased (b : AdapterId) : Option.map SocketHandle.released
      (Function.update t.sockets a (some { socketfd := fd }) b) = some true ↔
        s.released b = some true := by
    by_cases hb : b = a
    · subst hb
      rw [← ht, released, hnew]
      simp
    · rw [Function.update_of_ne hb, ← ht]
      rfl
  refine ⟨fun b => ?_, herased ▸ h.nodup, fun b => ?_⟩
  · rw [show _ = t.erased from rfl, herased, h.erased_iff, ← herases]
    exact and_congr_left' (hreleased b).symm
  · rw [hcloses, h.closes]
    exact if_congr (hreleased b).symm rfl rfl

theorem Ledger.closeFd (hs : Sound s) (h : Ledger s) (hst : step tcp s .closeFd = some s') :
    Ledger s' := by
  obtain ⟨x, a, back, hrun, rfl⟩ := step_closeFd hst
  have hentry : s.run.entry = some (x, a) := by rw [hrun]; rfl
  obtain ⟨k, hk, -, hreleased⟩ := hs.entry_socket hentry (by rw [hrun]; rfl)
  have hrelease : s.releaseSocket a =
      { (s.io .close (.peer a) k.socketfd).setSocket a { k with released := true } with
        table := Function.update s.table k.socketfd none } := by
    unfold SocketPoll.releaseSocket
    rw [hk]
  rw [hrelease]
  have hafter (b : AdapterId) : Option.map SocketHandle.released
      (Function.update s.sockets a (some { k with released := true }) b) =
        if b = a then some true else s.released b := by
    by_cases hb : b = a
    · subst hb
      rw [Function.update_self, if_pos rfl]
      rfl
    · rw [Function.update_of_ne hb, if_neg hb]
      rfl
  have hbefore : s.released a = some false := by rw [released, hk, Option.map_some, hreleased]
  refine ⟨fun b => ?_, h.nodup, fun b => ?_⟩
  · refine (h.erased_iff b).trans ?_
    change _ ↔ Option.map SocketHandle.released (Function.update s.sockets a _ b) = some true ∧
      some a ≠ some b
    rw [hafter, hrun]
    split
    · rename_i hb
      subst hb
      simp [hbefore]
    · rename_i hb
      simp [PollPc.erases, Ne.symm hb]
  · have hold := h.closes b
    change (s.calls ++ [_]).countP (IoCall.closes b) =
      if Option.map SocketHandle.released (Function.update s.sockets a _ b) = some true then 1 else 0
    rw [List.countP_append, show s.calls.countP (IoCall.closes b) = _ from hold, hafter]
    by_cases hb : b = a
    · subst hb
      simp [hbefore, IoCall.closes]
    · simp [hb, IoCall.closes, Ne.symm hb]

theorem Ledger.eraseAdapter (hs : Sound s) (h : Ledger s)
    (hst : step tcp s .eraseAdapter = some s') : Ledger s' := by
  obtain ⟨x, a, back, hrun, rfl⟩ := step_eraseAdapter hst
  have herases : s.run.erases = some a := by rw [hrun]; rfl
  have hresume : (resume back).erases = none := by cases back <;> rfl
  obtain ⟨k, hk, -, -⟩ := (hs.listed_iff x a).mp (hs.entry x a (by rw [hrun]; rfl))
  have hreleased : s.released a = some true := by
    rw [released, hk, Option.map_some, hs.gone a herases k hk]
  have hnot : a ∉ s.erased := fun ha => ((h.erased_iff a).mp ha).2 herases
  refine ⟨fun b => ?_, ?_, h.closes⟩
  · change b ∈ s.erased ++ [a] ↔ s.released b = some true ∧ (resume back).erases ≠ some b
    rw [List.mem_append, List.mem_singleton, h.erased_iff, hresume, herases]
    by_cases hb : b = a
    · subst hb
      simp [hreleased]
    · simp [hb, Ne.symm hb]
  · refine List.nodup_append.mpr ⟨h.nodup, List.nodup_singleton a, ?_⟩
    rintro y hy z hz rfl
    exact hnot (List.mem_singleton.mp hz ▸ hy)

theorem ledger_step {act : Action} (hs : Sound s) (hl : Ledger s) (h : step tcp s act = some s') :
    Ledger s' := by
  have hcloses (hact : act ≠ .closeFd) (a : AdapterId) := step_closes hs h hact a
  cases act with
  | start fd =>
    obtain ⟨-, rfl | ⟨lfd, -, hstopped, -, rfl⟩⟩ := step_start h
    · exact hl
    · exact hl.of_eq (fun _ => rfl) rfl (by rw [(hs.stopped hstopped).2.1]; rfl) (hcloses nofun)
  | begin =>
    obtain ⟨hrun, lfd, -, rfl⟩ := step_begin h
    exact hl.of_eq (fun _ => rfl) rfl (by rw [hrun]; rfl) (hcloses nofun)
  | returnStart =>
    obtain ⟨-, rfl⟩ := step_returnStart h
    exact hl.of_eq (fun _ => rfl) rfl rfl (hcloses nofun)
  | doPoll ready now =>
    obtain ⟨hrun, -, -, rfl⟩ := step_doPoll h
    obtain ⟨calls, beep, -, -, ⟨-, heq⟩ | ⟨l, -, heq⟩⟩ := doPoll_eq (s := s) tcp ready now
    · exact hl.of_eq (fun _ => by rw [heq]; rfl) (by rw [heq]) (by rw [heq, hrun]; rfl) (hcloses nofun)
    · exact hl.of_eq (fun _ => by rw [heq]; rfl) (by rw [heq]) (by rw [heq, hrun]; rfl) (hcloses nofun)
  | getListenFd =>
    obtain ⟨rfds, timeout, hrun, ⟨-, rfl⟩ | rfl | ⟨lfd, -, rfl⟩⟩ := step_getListenFd h <;>
      exact hl.of_eq (fun _ => rfl) rfl (by rw [hrun]; rfl) (hcloses nofun)
  | endScan =>
    obtain ⟨scan, hrun, -, rfl⟩ := step_endScan h
    exact hl.of_eq (fun _ => rfl) rfl (by rw [hrun]; rfl) (hcloses nofun)
  | skip =>
    obtain ⟨scan, hrun, rfl⟩ := step_skip h
    exact hl.of_eq (fun _ => rfl) rfl (by rw [hrun]; rfl) (hcloses nofun)
  | doAccept conn now =>
    obtain ⟨scan, t, hrun, -, -, -, rfl, hs'⟩ := step_doAccept h
    obtain rfl | ⟨fd, a, -, -, -, haccept⟩ := hs'
    · exact hl.of_eq (fun _ => rfl) rfl (by rw [hrun]; rfl) (hcloses nofun)
    · exact hl.accept haccept (fun _ => rfl) rfl (by rw [hrun]; rfl) (hcloses nofun)
  | doRead ok now =>
    obtain ⟨scan, a, t, hrun, -, -, -, ht, rfl⟩ := step_doRead h
    obtain ⟨k, beep, -, -, rfl⟩ := readSocket_eq ht
    have herases : (if ok then PollPc.scanning scan.next
        else .closing scan.ifd a (some scan.next)).erases = s.run.erases := by
      rw [hrun]
      cases ok <;> rfl
    refine hl.of_eq (fun _ => ?_) ?_ herases (hcloses nofun)
    · split <;> rfl
    · split <;> rfl
  | closeAdapter =>
    obtain ⟨fd, a, back, hrun, rfl⟩ := step_closeAdapter h
    have hentry : s.run.entry = some (fd, a) := by rw [hrun]; rfl
    obtain ⟨k, hk, -, -⟩ := hs.entry_socket hentry (by rw [hrun]; rfl)
    have hclear : s.clearAdapter a =
        { s.closeSocket a with allFds := Function.update s.allFds k.socketfd false } := by
      unfold SocketPoll.clearAdapter
      rw [hk]
    refine hl.of_eq (fun b => ?_) ?_ (by rw [hrun]; rfl) (hcloses nofun)
    · rw [hclear]
      exact closeSocket_released a b
    · rw [hclear]
      exact closeSocket_erased a
  | closeFd => exact hl.closeFd hs h
  | eraseAdapter => exact hl.eraseAdapter hs h
  | release =>
    obtain ⟨hrun, ⟨-, rfl⟩ | ⟨fd, a, -, rfl⟩⟩ := step_release h <;>
      exact hl.of_eq (fun _ => rfl) rfl (by rw [hrun]; rfl) (hcloses nofun)
  | stop =>
    obtain ⟨-, ⟨-, rfl⟩ | ⟨-, rfl⟩⟩ := step_stop h
    · exact hl
    · refine hl.of_eq (fun _ => ?_) ?_ ?_ (hcloses nofun) <;> unfold ioListener <;> split <;> rfl
  | join =>
    obtain ⟨fd, -, hrun, rfl⟩ := step_join h
    refine hl.of_eq (fun _ => ?_) ?_ (by rw [hrun]; rfl) (hcloses nofun) <;>
      unfold ioListener <;> split <;> rfl
  | config timeout =>
    cases h
    exact hl.of_eq (fun _ => rfl) rfl rfl (hcloses nofun)
  | write a ok =>
    obtain ⟨k, -, rfl⟩ := step_write h
    refine hl.of_eq (fun b => ?_) ?_ ?_ (hcloses nofun) <;> split <;> try rfl
    · split
      · rfl
      · exact closeSocket_released a b
    · split
      · rfl
      · exact closeSocket_erased a
    · split
      · rfl
      · exact congrArg PollPc.erases (sameLoop_closeSocket _ a).1.run
  | close a =>
    have heq := step_close h
    subst heq
    exact hl.of_eq (closeSocket_released a) (closeSocket_erased a)
      (congrArg PollPc.erases (sameLoop_closeSocket s a).1.run) (hcloses nofun)
  | openForeign fd =>
    obtain ⟨-, rfl⟩ := step_openForeign h
    exact hl.of_eq (fun _ => rfl) rfl rfl (hcloses nofun)
  | closeForeign fd =>
    obtain ⟨-, rfl⟩ := step_closeForeign h
    exact hl.of_eq (fun _ => rfl) rfl rfl (hcloses nofun)

theorem ledger_reachable (h : (system tcp).Reachable s) : Ledger s := by
  apply h.invariant_of (P := Ledger)
  · rintro s ⟨table, beep, -, -, rfl⟩
    exact ⟨fun a => iff_of_false nofun (by simp [released]), List.nodup_nil, fun a => rfl⟩
  · exact fun s act t hs hl hst => ledger_step (sound_reachable hs) hl hst

theorem table_of_update {t : Nat → Option OpenFile} {x y : Nat} {o : Option OpenFile} {c : OpenFile}
    (h : Function.update t x o y = some c) : t y = some c ∨ y = x ∧ o = some c := by
  by_cases hy : y = x
  · subst hy
    rw [Function.update_self] at h
    exact .inr ⟨rfl, h⟩
  · rw [Function.update_of_ne hy] at h
    exact .inl h

theorem table_of_closed {t : Nat → Option OpenFile} {x y : Nat} {c : OpenFile}
    (h : Function.update t x none y = some c) : t y = some c := by
  obtain hold | ⟨-, hnone⟩ := table_of_update h
  · exact hold
  · cases hnone

/-- The descriptor of a new listening socket or of a new connection. -/
def Action.opened : Action → Option Nat
  | .start fd => fd
  | .doAccept conn _ => conn.map Prod.fst
  | _ => none

theorem step_opens {act : Action} {x : Nat} {c : OpenFile} (h : step tcp s act = some s')
    (hc : s'.table x = some c) (hforeign : c ≠ .foreign) :
    s.table x = some c ∨ act.opened = some x := by
  have hsame (heq : s'.table = s.table) : s.table x = some c := heq ▸ hc
  cases act with
  | start fd =>
    obtain ⟨-, rfl | ⟨lfd, rfl, -, -, rfl⟩⟩ := step_start h
    · exact .inl hc
    · obtain hold | ⟨rfl, -⟩ := table_of_update hc
      · exact .inl hold
      · exact .inr rfl
  | begin =>
    obtain ⟨-, lfd, -, rfl⟩ := step_begin h
    exact .inl hc
  | returnStart =>
    obtain ⟨-, rfl⟩ := step_returnStart h
    exact .inl hc
  | doPoll ready now =>
    obtain ⟨-, -, -, rfl⟩ := step_doPoll h
    obtain ⟨calls, beep, -, -, ⟨-, heq⟩ | ⟨l, -, heq⟩⟩ := doPoll_eq (s := s) tcp ready now
    · exact .inl (hsame (by rw [heq]))
    · exact .inl (hsame (by rw [heq]))
  | getListenFd =>
    obtain ⟨rfds, timeout, -, ⟨-, rfl⟩ | rfl | ⟨lfd, -, rfl⟩⟩ := step_getListenFd h <;>
      exact .inl hc
  | endScan =>
    obtain ⟨scan, -, -, rfl⟩ := step_endScan h
    exact .inl hc
  | skip =>
    obtain ⟨scan, -, rfl⟩ := step_skip h
    exact .inl hc
  | doAccept conn now =>
    obtain ⟨scan, t, -, -, -, -, rfl, hs'⟩ := step_doAccept h
    obtain rfl | ⟨fd, a, rfl, -, -, haccept⟩ := hs'
    · exact .inl hc
    · simp only [SocketPoll.accept, Option.ite_none_right_eq_some, Option.some.injEq] at haccept
      obtain ⟨-, rfl⟩ := haccept
      obtain hold | ⟨rfl, -⟩ := table_of_update hc
      · exact .inl hold
      · exact .inr rfl
  | doRead ok now =>
    obtain ⟨scan, a, t, -, -, -, -, ht, rfl⟩ := step_doRead h
    obtain ⟨k, beep, -, -, rfl⟩ := readSocket_eq ht
    refine .inl (hsame ?_)
    split <;> rfl
  | closeAdapter =>
    obtain ⟨fd, a, back, -, rfl⟩ := step_closeAdapter h
    refine .inl (hsame ?_)
    unfold SocketPoll.clearAdapter
    split
    · rfl
    · exact (sameLoop_closeSocket s a).2
  | closeFd =>
    obtain ⟨fd, a, back, -, rfl⟩ := step_closeFd h
    unfold SocketPoll.releaseSocket at hc
    split at hc
    · exact .inl hc
    · exact .inl (table_of_closed hc)
  | eraseAdapter =>
    obtain ⟨fd, a, back, -, rfl⟩ := step_eraseAdapter h
    exact .inl hc
  | release =>
    obtain ⟨-, ⟨-, rfl⟩ | ⟨fd, a, -, rfl⟩⟩ := step_release h <;> exact .inl hc
  | stop =>
    obtain ⟨-, ⟨-, rfl⟩ | ⟨-, rfl⟩⟩ := step_stop h
    · exact .inl hc
    · refine .inl (hsame ?_)
      unfold ioListener
      split <;> rfl
  | join =>
    obtain ⟨fd, -, -, rfl⟩ := step_join h
    change s.tableWithout fd x = some c at hc
    unfold tableWithout at hc
    split at hc
    · exact .inl hc
    · exact .inl (table_of_closed hc)
  | config timeout =>
    cases h
    exact .inl hc
  | write a ok =>
    obtain ⟨k, -, rfl⟩ := step_write h
    refine .inl (hsame ?_)
    split
    · split
      · rfl
      · exact (sameLoop_closeSocket _ a).2
    · rfl
  | close a =>
    rw [step_close h] at hsame
    exact .inl (hsame (sameLoop_closeSocket s a).2)
  | openForeign fd =>
    obtain ⟨-, rfl⟩ := step_openForeign h
    obtain hold | ⟨-, heq⟩ := table_of_update hc
    · exact .inl hold
    · exact absurd (Option.some.inj heq).symm hforeign
  | closeForeign fd =>
    obtain ⟨-, rfl⟩ := step_closeForeign h
    exact .inl (table_of_closed hc)

/-- The poll is given no descriptor from `FD_SETSIZE` on. -/
def FitsSet (_ : SocketPoll) (act : Action) : Prop := ∀ fd ∈ act.opened, fd < fdSetSize

instance (s : SocketPoll) (act : Action) : Decidable (FitsSet s act) :=
  inferInstanceAs (Decidable (∀ fd ∈ act.opened, fd < fdSetSize))

theorem open_fits_set (h : ((system tcp).guard FitsSet).Reachable s) {x : Nat} {c : OpenFile}
    (hc : s.table x = some c) (hforeign : c ≠ .foreign) : x < fdSetSize := by
  have hall := h.invariant (P := fun s => ∀ x c, s.table x = some c → c ≠ .foreign → x < fdSetSize)
    ?_ ?_
  · exact hall x c hc hforeign
  · rintro s ⟨table, beep, htable, -, rfl⟩ x c hc hforeign
    have heq := htable x (by rw [show table x = some c from hc]; exact Option.some_ne_none c)
    exact absurd (Option.some.inj (hc.symm.trans heq)) hforeign
  · rintro s act t hs ⟨hfits, hst⟩ x c hc hforeign
    obtain hold | hopened := step_opens hst hc hforeign
    · exact hs x c hold hforeign
    · exact hfits x hopened

/-- As long as the numbers of its descriptors fit a set, `select` is given exactly those that the poll
has open, all below its bound, and each `accept` and `read` takes what the last `select` reported for
that connection and nothing has taken since, so that the run thread never blocks in them. -/
theorem select_watches_open (h : ((system tcp).guard FitsSet).Reachable s) :
    (s.run = .polling → ∀ fd, (s.allFds fd = true ↔ ∃ c, s.table fd = some c ∧ c ≠ .foreign) ∧
      (s.allFds fd = true → fd < s.maxFd)) ∧
    ∀ c ∈ s.calls, c.call = .accept ∨ c.call = .read → c.reported = true := by
  have hs := sound_reachable h.of_guard
  refine ⟨fun hrun fd => ⟨?_, hs.bounded (by rw [hrun]; rfl) fd⟩, ?_⟩
  · rw [hs.watched (by rw [hrun]; rfl), hrun]
    constructor
    · rintro ⟨-, hlistening | ⟨-, a, ha⟩⟩
      · exact ⟨_, (hs.listener_iff fd s.starts).mpr ⟨hlistening, rfl⟩, nofun⟩
      · obtain ⟨k, hk, rfl, hreleased⟩ := (hs.listed_iff fd a).mp ha
        rw [hrun] at hreleased
        exact ⟨_, hs.reached hk (hreleased.resolve_right nofun), nofun⟩
    · rintro ⟨c, hc, hforeign⟩
      refine ⟨open_fits_set h hc hforeign, ?_⟩
      cases c with
      | listener n => exact .inl ((hs.listener_iff fd n).mp hc).1
      | peer a =>
        obtain ⟨k, hk, hfd, hreleased⟩ := (hs.peer_iff fd a).mp hc
        exact .inr ⟨nofun, a, (hs.listed_iff fd a).mpr ⟨k, hk, hfd, .inl hreleased⟩⟩
      | foreign => exact absurd rfl hforeign
  · apply h.of_guard.invariant_of (P := fun s => ∀ c ∈ s.calls,
      c.call = .accept ∨ c.call = .read → c.reported = true)
    · rintro s ⟨table, beep, -, -, rfl⟩
      nofun
    · intro s act t hreach hold hst c hc
      obtain ⟨l, hl, hnew⟩ := step_calls (sound_reachable hreach) hst
      rw [hl] at hc
      obtain hc | hc := List.mem_append.mp hc
      · exact hold c hc
      · exact (hnew c hc).reported

/-- Two connections one after the other, up to the second `select` behind the second one. -/
def sampleFits : Option SocketPoll :=
  execute (fun s act => if FitsSet s act then step true s act else none) {} (sampleRun.take 30)

theorem select_watches_open_two : ∃ s, sampleFits = some s ∧
    (s.allFds 4 = true ↔ ∃ c, s.table 4 = some c ∧ c ≠ .foreign) ∧
    (s.calls.filter fun c => c.call = .accept ∨ c.call = .read).length = 3 ∧
    ∀ c ∈ s.calls, c.call = .accept ∨ c.call = .read → c.reported = true := by
  have hrun : sampleFits.map (·.run) = some .polling := rfl
  obtain ⟨s, hs, hpolling⟩ := Option.map_eq_some_iff.mp hrun
  have hcount : sampleFits.map (fun s =>
      (s.calls.filter fun c => c.call = .accept ∨ c.call = .read).length) = some 3 := by decide
  rw [hs] at hcount
  have hreach : ((system true).guard FitsSet).Reachable s :=
    ⟨{}, sampleRun.take 30, initial_default, execute_guarded_run hs⟩
  have hwatch := select_watches_open hreach
  exact ⟨s, hs, (hwatch.1 hpolling 4).1, Option.some.inj hcount, hwatch.2⟩

/-- No adapter is erased or closed twice, a `start` that waits is woken by the run thread, and once
a poll is stopped it has no open descriptor, and every adapter it ever accepted is closed, its
descriptor too, and has been erased. -/
theorem stopped_leaves_nothing (h : (system tcp).Reachable s) :
    s.erased.Nodup ∧ (∀ a, s.closes a ≤ 1) ∧
    (s.user = .waiting → ∃ t, step tcp s .begin = some t ∧ t.user = .notified) ∧
    (s.started = false → (∀ fd c, s.table fd = some c → c = .foreign) ∧
      ∀ a k, s.sockets a = some k → k.buffer = false ∧ s.closes a = 1 ∧ a ∈ s.erased) := by
  have hs := sound_reachable h
  have hl := ledger_reachable h
  refine ⟨hl.nodup, fun a => ?_, fun hwaiting => ?_, fun hstopped => ?_⟩
  · rw [hl.closes]
    split <;> omega
  · have hrun := hs.waiting.mp hwaiting
    have hstarted : s.started = true := by
      rw [← Bool.not_eq_false]
      intro hstopped
      cases hrun.symm.trans (hs.stopped hstopped).2.1
    obtain ⟨-, fd, -, ⟨hfd, -⟩ | ⟨-, hjoin⟩⟩ := hs.started hstarted
    · simp [step, hrun, beginRun, hfd, hwaiting]
    · cases hwaiting.symm.trans hjoin
  · obtain ⟨hlistening, hrun, -⟩ := hs.stopped hstopped
    have hempty := hs.emptied (.inl hrun)
    -- an adapter whose descriptor is open would have an entry
    have hreleased (a : AdapterId) (k : SocketHandle) (hk : s.sockets a = some k) :
        k.released = true := by
      rw [← Bool.not_eq_false]
      intro hopen
      cases (hempty k.socketfd).symm.trans ((hs.listed_iff _ a).mpr ⟨k, hk, rfl, .inl hopen⟩)
    refine ⟨fun fd c hc => ?_, fun a k hk => ?_⟩
    · cases c with
      | listener n => cases hlistening.symm.trans ((hs.listener_iff fd n).mp hc).1
      | peer a =>
        obtain ⟨k, hk, -, hopen⟩ := (hs.peer_iff fd a).mp hc
        cases (hreleased a k hk).symm.trans hopen
      | foreign => rfl
    · have htrue : s.released a = some true := by
        rw [released, hk, Option.map_some, hreleased a k hk]
      refine ⟨?_, ?_, (hl.erased_iff a).mpr ⟨htrue, by simp [hrun, PollPc.erases]⟩⟩
      · rw [← Bool.not_eq_true]
        intro hbuffer
        cases (hs.buffered a k hk hbuffer).symm.trans (hreleased a k hk)
      · rw [hl.closes, if_pos htrue]

theorem stopped_leaves_nothing_two : ∃ s, execute (step true) {} (sampleRun ++ [.stop, .getListenFd,
      .release, .closeAdapter, .closeFd, .eraseAdapter, .release, .join]) = some s ∧
    s.started = false ∧ (∀ fd c, s.table fd = some c → c = .foreign) ∧ s.erased = [1, 2] ∧
    s.closes 2 = 1 := by
  have hend : (execute (step true) {} (sampleRun ++ [.stop, .getListenFd, .release, .closeAdapter,
      .closeFd, .eraseAdapter, .release, .join])).map (fun s => (s.started, s.erased, s.sockets 2)) =
        some (false, [1, 2], some ⟨4, false, true⟩) := by decide
  obtain ⟨s, hs, heq⟩ := Option.map_eq_some_iff.mp hend
  obtain ⟨hstarted, heq⟩ := Prod.mk.inj heq
  obtain ⟨herased, hsocket⟩ := Prod.mk.inj heq
  have hreach : (system true).Reachable s := execute_reachable initial_default hs
  obtain ⟨-, -, -, hstopped⟩ := stopped_leaves_nothing hreach
  obtain ⟨htable, hadapters⟩ := hstopped hstarted
  exact ⟨s, hs, hstarted, htable, herased, (hadapters 2 _ hsocket).2.1⟩

end SocketPoll

end Flora
