import Flora.Client.Async
import Mathlib.Data.List.Perm.Basic

/-! # Calls with a callback

A call with a callback publishes its entry under `req_mutex`, sends, and returns. The entry is
taken by a `CMD_REPLY_RESP` or by `iclose`, and the callback runs after the lock has been released.
The state records what each call returned and which callbacks have been invoked. A call that is
turned away before it takes an id (no name, or a monitor) touches none of this. -/

namespace Flora

open TransitionSystem

structure Callbacks where
  client : Client := {}
  /-- What a call with a callback returned. -/
  returned : Nat → Option Word := fun _ => none
  /-- `cb` of the receive thread: taken from the list and not invoked yet. -/
  replying : Option Nat := none
  /-- `cbs` of every `iclose` that has left its section under `req_mutex`. -/
  drainers : List (List Nat) := []
  /-- History: the calls that a reply was taken for. -/
  answered : List Nat := []
  invoked : List Nat := []

namespace Callbacks

inductive Action where
  | client (act : Client.Action)
  | invokeReply
  | invokeDrained (n : Nat)
  | finishClose (n : Nat)

variable (s : Callbacks)

/-- What a step of the client means for its calls with a callback: `call` returns when its request
does not fit or when the send is over. -/
def observe (act : Client.Action) (c : Client) : Callbacks :=
  match act with
  | .beginCall false _ _ _ _ false =>
    { s with client := c, returned := Function.update s.returned c.reqseq (some cliEinval) }
  | .send ok =>
    match s.client.asyncSender with
    | none => { s with client := c }
    | some key =>
      let retcode := if ok then cliSuccess else cliEconn
      { s with client := c, returned := Function.update s.returned key (some retcode) }
  | .recvReply caps _ =>
    match s.client.asyncTarget caps with
    | none => { s with client := c }
    | some key => { s with client := c, replying := some key, answered := s.answered ++ [key] }
  | .closeSection _ => { s with client := c, drainers := s.drainers ++ [s.client.asyncKeys] }
  | _ => { s with client := c }

/-- The receive thread handles one reply at a time. -/
def blocks : Client.Action → Bool
  | .recvReply _ _ => s.replying.isSome
  | _ => false

def step : Action → Option Callbacks
  | .client act => if s.blocks act then none else (s.client.step act).map (s.observe act)
  | .invokeReply =>
    s.replying.map fun key => { s with replying := none, invoked := s.invoked ++ [key] }
  | .invokeDrained n =>
    match s.drainers[n]? with
    | some (key :: cbs) =>
      some { s with drainers := s.drainers.set n cbs, invoked := s.invoked ++ [key] }
    | _ => none
  | .finishClose n =>
    match s.drainers[n]? with
    | some [] => some { s with drainers := s.drainers.eraseIdx n }
    | _ => none

def system : System Callbacks Action := System.ofStep (· = {}) step

/-- The connection is closed and no `iclose` is under way. -/
def Finished : Prop :=
  s.client.connClosed = true ∧ s.client.closers = [] ∧ s.client.reporters = [] ∧ s.drainers = []

/-- The reply to the call has been handled. -/
def Handled (key : Nat) : Prop := key ∈ s.answered ∧ s.replying ≠ some key

/-- The call returned an error. -/
def Failed (key : Nat) : Prop := ∃ retcode, s.returned key = some retcode ∧ retcode ≠ cliSuccess

/-- Every call with a callback is reported exactly once. -/
structure ReportedOnce : Prop where
  atMostOnce : ∀ key, s.invoked.count key ≤ 1
  notFailed : ∀ key, s.Failed key → key ∉ s.invoked
  reported : ∀ key, s.returned key = some cliSuccess → s.Finished ∨ s.Handled key →
    s.invoked.count key = 1

/-- A failing send finds its entry still listed, nothing takes the entry of a call that has
returned an error, and the last `iclose` does not return before the callback of a reply that the
receive thread has already taken. -/
def Orderly : Action → Prop
  | .client (.send false) => ∀ key, s.client.asyncSender = some key → key ∈ s.client.asyncKeys
  | .client (.recvReply caps _) => ∀ key, s.client.asyncTarget caps = some key → ¬s.Failed key
  | .client (.closeSection _) => ∀ key ∈ s.client.asyncKeys, ¬s.Failed key
  | .finishClose n =>
    s.client.closers = [] → s.client.reporters = [] → s.drainers.eraseIdx n = [] →
      ∀ key, s.replying = some key → s.returned key ≠ some cliSuccess
  | _ => True

/-- Callbacks that have left the list. -/
def taken : List Nat := s.replying.toList ++ (s.drainers.flatten ++ s.invoked)

def tracked : List Nat := s.client.asyncKeys ++ s.taken

/-- The calls that have been sent, or are being sent, are among `keys`, each once. -/
structure Covers (keys : List Nat) : Prop where
  nodup : keys.Nodup
  bound : ∀ key ∈ keys, key ≤ s.client.reqseq
  sent : ∀ key, s.returned key = some cliSuccess ∨ s.client.asyncSender = some key → key ∈ keys

structure Accounted : Prop where
  wf : s.client.Wf
  apart : s.client.Apart
  covers : s.Covers s.tracked
  failed : ∀ key, s.Failed key → key ∉ s.taken
  closed : s.client.connClosed = true → s.client.reporters = [] →
    ∀ key ∈ s.client.asyncKeys, s.returned key ≠ some cliSuccess
  finished : s.Finished → ∀ key, s.replying = some key → s.returned key ≠ some cliSuccess
  answered : ∀ key ∈ s.answered, s.replying = some key ∨ key ∈ s.invoked

variable {s} {s' : Callbacks}

theorem mem_taken {key : Nat} :
    key ∈ s.taken ↔ s.replying = some key ∨ key ∈ s.drainers.flatten ∨ key ∈ s.invoked := by
  simp only [taken, List.mem_append, Option.mem_toList]

theorem Accounted.reportedOnce (h : Accounted s) : ReportedOnce s := by
  have hnodup : s.invoked.Nodup := by
    have htail := (List.nodup_append.mp h.covers.nodup).2.1
    have hrest := (List.nodup_append.mp htail).2.1
    exact (List.nodup_append.mp hrest).2.1
  refine ⟨List.nodup_iff_count_le_one.mp hnodup, ?_, ?_⟩
  · intro key hfailed hmem
    exact h.failed key hfailed (mem_taken.mpr (.inr (.inr hmem)))
  · intro key hret hover
    refine List.count_eq_one_of_mem hnodup ?_
    obtain hfin | ⟨hans, hne⟩ := hover
    · obtain hmem | hmem := List.mem_append.mp (h.covers.sent key (.inl hret))
      · exact absurd hret (h.closed hfin.1 hfin.2.2.1 key hmem)
      · obtain hmem | hmem | hmem := mem_taken.mp hmem
        · exact absurd hret (h.finished hfin key hmem)
        · rw [hfin.2.2.2] at hmem
          cases hmem
        · exact hmem
    · exact (h.answered key hans).resolve_left hne

theorem Covers.perm {keys keys' : List Nat} (h : s.Covers keys) (hperm : keys'.Perm keys)
    (hseq : s'.client.reqseq = s.client.reqseq) (hret : s'.returned = s.returned)
    (hsender : s'.client.asyncSender = s.client.asyncSender) : s'.Covers keys' := by
  refine ⟨hperm.nodup_iff.mpr h.nodup, ?_, ?_⟩
  · intro key hkey
    rw [hseq]
    exact h.bound key (hperm.mem_iff.mp hkey)
  · intro key hkey
    rw [hret, hsender] at hkey
    exact hperm.mem_iff.mpr (h.sent key hkey)

/-- A step of the client that leaves the requests with a callback alone. -/
theorem Accounted.client {c : Client} (h : Accounted s) (hwf : c.Wf) (hapart : c.Apart)
    (hkeys : c.asyncKeys = s.client.asyncKeys) (hseq : s.client.reqseq ≤ c.reqseq)
    (hsender : ∀ key, c.asyncSender = some key → s.client.asyncSender = some key)
    (hclosed : c.connClosed = true → c.reporters = [] →
      s.client.connClosed = true ∧ s.client.reporters = [])
    (hclosers : c.connClosed = true → c.reporters = [] → c.closers = [] → s.client.closers = []) :
    Accounted { s with client := c } := by
  refine ⟨hwf, hapart, ⟨?_, ?_, ?_⟩, h.failed, ?_, ?_, h.answered⟩
  · change (c.asyncKeys ++ s.taken).Nodup
    rw [hkeys]
    exact h.covers.nodup
  · intro key hkey
    change key ∈ c.asyncKeys ++ s.taken at hkey
    rw [hkeys] at hkey
    exact Nat.le_trans (h.covers.bound key hkey) hseq
  · intro key hkey
    change key ∈ c.asyncKeys ++ s.taken
    rw [hkeys]
    exact h.covers.sent key (hkey.imp_right (hsender key))
  · intro hconn hrep key hkey
    change key ∈ c.asyncKeys at hkey
    rw [hkeys] at hkey
    obtain ⟨hconn, hrep⟩ := hclosed hconn hrep
    exact h.closed hconn hrep key hkey
  · rintro ⟨hconn, hclos, hrep, hdrain⟩ key hkey
    obtain ⟨hconn', hrep'⟩ := hclosed hconn hrep
    exact h.finished ⟨hconn', hclosers hconn hrep hclos, hrep', hdrain⟩ key hkey

/-- A step of the client that shows in the view by its counter and its sender only. -/
theorem Accounted.hidden {c : Client} {seq : Nat} {sender : Option Nat} (h : Accounted s)
    (hwf : c.Wf) (hapart : c.Apart)
    (hview : c.asyncView = { s.client.asyncView with seq := seq, sender := sender })
    (hseq : s.client.reqseq ≤ seq)
    (hsender : ∀ key, sender = some key → s.client.asyncSender = some key) :
    Accounted { s with client := c } := by
  obtain ⟨hkeys, hsender', hseq', hconn, hclos, hrep⟩ := Client.AsyncView.mk.injEq .. ▸ hview
  refine h.client hwf hapart hkeys (hseq' ▸ hseq) ?_ ?_ ?_
  · exact fun key hkey => hsender key (hsender'.symm.trans hkey)
  · exact fun hc hr => ⟨hconn.symm.trans hc, hrep.symm.trans hr⟩
  · exact fun _ _ hc => hclos.symm.trans hc

theorem Accounted.ret {key : Nat} {retcode : Word} (h : Accounted s)
    (hok : retcode = cliSuccess → key ∈ s.tracked ∧ s.client.connClosed = false)
    (hbad : retcode ≠ cliSuccess → key ∉ s.taken) :
    Accounted { s with returned := Function.update s.returned key (some retcode) } := by
  have hsuccess (k : Nat) (hk : Function.update s.returned key (some retcode) k = some cliSuccess) :
      s.returned k = some cliSuccess ∨ (k ∈ s.tracked ∧ s.client.connClosed = false) := by
    by_cases heq : k = key
    · subst heq
      rw [Function.update_self] at hk
      exact .inr (hok (Option.some.inj hk))
    · rw [Function.update_of_ne heq] at hk
      exact .inl hk
  refine ⟨h.wf, h.apart, ⟨h.covers.nodup, h.covers.bound, ?_⟩, ?_, ?_, ?_, h.answered⟩
  · rintro k (hk | hk)
    · obtain hk | ⟨hk, -⟩ := hsuccess k hk
      · exact h.covers.sent k (.inl hk)
      · exact hk
    · exact h.covers.sent k (.inr hk)
  · rintro k ⟨code, hcode, hne⟩
    change Function.update s.returned key (some retcode) k = some code at hcode
    by_cases heq : k = key
    · subst heq
      rw [Function.update_self] at hcode
      exact hbad (Option.some.inj hcode ▸ hne)
    · rw [Function.update_of_ne heq] at hcode
      exact h.failed k ⟨code, hcode, hne⟩
  · intro hconn hrep k hk hret
    obtain hret | ⟨-, hopen⟩ := hsuccess k hret
    · exact h.closed hconn hrep k hk hret
    · exact absurd hconn (Bool.eq_false_iff.mp hopen)
  · intro hfin k hk hret
    obtain hret | ⟨-, hopen⟩ := hsuccess k hret
    · exact h.finished hfin k hk hret
    · exact absurd hfin.1 (Bool.eq_false_iff.mp hopen)

theorem Accounted.fresh (h : Accounted s) : s.client.reqseq + 1 ∉ s.tracked := by
  intro hmem
  have hle := h.covers.bound _ hmem
  omega

/-- The entry of a new call is published. -/
theorem Accounted.publish {c : Client} (h : Accounted s) (hwf : c.Wf) (hapart : c.Apart)
    (hview : c.asyncView = { s.client.asyncView with
      seq := s.client.reqseq + 1, keys := s.client.asyncKeys ++ [s.client.reqseq + 1],
      sender := some (s.client.reqseq + 1) }) : Accounted { s with client := c } := by
  obtain ⟨hkeys, hsender, hseq, hconn, hclos, hrep⟩ := Client.AsyncView.mk.injEq .. ▸ hview
  have hnew : s.returned (s.client.reqseq + 1) ≠ some cliSuccess :=
    fun hret => h.fresh (h.covers.sent _ (.inl hret))
  have hperm : ((s.client.asyncKeys ++ [s.client.reqseq + 1]) ++ s.taken).Perm
      ((s.client.reqseq + 1) :: s.tracked) := by
    rw [List.append_assoc]
    exact List.perm_middle
  have htracked : ({ s with client := c } : Callbacks).tracked =
      (s.client.asyncKeys ++ [s.client.reqseq + 1]) ++ s.taken := by
    rw [← hkeys]
    rfl
  refine ⟨hwf, hapart, ?_, h.failed, ?_, ?_, h.answered⟩
  · rw [htracked]
    refine ⟨hperm.nodup_iff.mpr (List.nodup_cons.mpr ⟨h.fresh, h.covers.nodup⟩), ?_, ?_⟩
    · intro key hkey
      change key ≤ c.reqseq
      rw [hseq]
      obtain rfl | hkey := List.mem_cons.mp (hperm.mem_iff.mp hkey)
      · exact Nat.le_refl _
      · exact Nat.le_succ_of_le (h.covers.bound key hkey)
    · rintro key (hkey | hkey)
      · exact hperm.mem_iff.mpr (List.mem_cons_of_mem _ (h.covers.sent key (.inl hkey)))
      · have hfirst : some key = some (s.client.reqseq + 1) := hkey.symm.trans hsender
        rw [Option.some.inj hfirst]
        exact hperm.mem_iff.mpr List.mem_cons_self
  · intro hc hr key hkey
    change key ∈ c.asyncKeys at hkey
    rw [hkeys] at hkey
    obtain hkey | hkey := List.mem_append.mp hkey
    · exact h.closed (hconn.symm.trans hc) (hrep.symm.trans hr) key hkey
    · rw [List.mem_singleton.mp hkey]
      exact hnew
  · rintro ⟨hc, hcl, hr, hdrain⟩
    exact h.finished ⟨hconn.symm.trans hc, hclos.symm.trans hcl, hrep.symm.trans hr, hdrain⟩

theorem Accounted.beginCall {blocking fits : Bool} {name target : String} {args : CapsPtr}
    {timeout : Word} {c : Client} (h : Accounted s)
    (hc : s.client.step (.beginCall blocking name args target timeout fits) = some c) :
    Accounted (s.observe (.beginCall blocking name args target timeout fits) c) := by
  obtain ⟨-, hview⟩ := Client.asyncView_beginCall h.wf hc
  have hwf := h.wf.step hc
  have hapart := h.apart.step h.wf hc
  cases hlisted : fits && !blocking with
  | false =>
    rw [hlisted, if_neg Bool.false_ne_true] at hview
    have hsame : Accounted { s with client := c } :=
      h.hidden hwf hapart hview (Nat.le_succ _) fun _ hkey => hkey
    cases blocking with
    | true => exact hsame
    | false =>
      cases fits with
      | true => cases hlisted
      | false =>
        refine hsame.ret (fun heq => absurd heq (by decide)) fun _ hmem => h.fresh ?_
        have hseq : c.reqseq = s.client.reqseq + 1 := congrArg Client.AsyncView.seq hview
        change c.reqseq ∈ s.taken at hmem
        rw [hseq] at hmem
        exact List.mem_append_right _ hmem
  | true =>
    obtain ⟨rfl, hblocking⟩ := Bool.and_eq_true_iff.mp hlisted
    rw [Bool.not_eq_true'] at hblocking
    subst hblocking
    rw [hlisted, if_pos rfl] at hview
    exact h.publish hwf hapart hview

theorem Accounted.send {ok : Bool} {c : Client} (h : Accounted s)
    (hc : s.client.step (.send ok) = some c) (hordered : s.Orderly (.client (.send ok))) :
    Accounted (s.observe (.send ok) c) := by
  obtain ⟨-, hopen, hview⟩ := Client.asyncView_send hc
  have hsame : Accounted { s with client := c } :=
    h.hidden (h.wf.step hc) (h.apart.step h.wf hc) hview (Nat.le_refl _)
      fun key hkey => absurd hkey (Option.some_ne_none key).symm
  have hconn : c.connClosed = s.client.connClosed := congrArg Client.AsyncView.connClosed hview
  have htracked : ({ s with client := c } : Callbacks).tracked = s.tracked :=
    congrArg (·.keys ++ s.taken) hview
  simp only [observe]
  split
  · exact hsame
  · rename_i key hkey
    refine hsame.ret ?_ ?_
    · intro hcode
      cases ok with
      | false => exact absurd hcode (by decide)
      | true =>
        rw [htracked]
        exact ⟨h.covers.sent key (.inr hkey), hconn.trans (hopen rfl)⟩
    · intro hcode htaken
      cases ok with
      | true => exact hcode rfl
      | false =>
        -- the entry is still listed, and an entry is in one place only
        exact List.disjoint_of_nodup_append h.covers.nodup (hordered key hkey) htaken

theorem asyncTarget_mem {c : Client} {caps : Caps} {key : Nat}
    (h : c.asyncTarget caps = some key) : key ∈ c.asyncKeys := by
  obtain ⟨⟨id, _, _⟩, -, h⟩ := Option.bind_eq_some_iff.mp h
  obtain ⟨p, hp, rfl⟩ := Option.map_eq_some_iff.mp h
  obtain ⟨hfind, hasync⟩ := Option.filter_eq_some_iff.mp hp
  exact List.mem_map.mpr ⟨p, List.mem_filter.mpr ⟨List.mem_of_find?_eq_some hfind, hasync⟩, rfl⟩

theorem Accounted.recvReply {caps : Caps} {frame : Nat} {c : Client} (h : Accounted s)
    (hc : s.client.step (.recvReply caps frame) = some c) (hfree : s.replying = none)
    (hordered : s.Orderly (.client (.recvReply caps frame))) :
    Accounted (s.observe (.recvReply caps frame) c) := by
  have hview := Client.asyncView_recvReply hc
  have hwf := h.wf.step hc
  have hapart := h.apart.step h.wf hc
  simp only [observe]
  split
  · rename_i htarget
    rw [htarget] at hview
    exact h.hidden hwf hapart hview (Nat.le_refl _) fun _ hkey => hkey
  · rename_i key htarget
    rw [htarget] at hview
    obtain ⟨hkeys, hsender, hseq, hconn, hclos, hrep⟩ := Client.AsyncView.mk.injEq .. ▸ hview
    change c.asyncKeys = s.client.asyncKeys.filter (· != key) at hkeys
    have hmem := asyncTarget_mem htarget
    have hperm : (c.asyncKeys ++ (key :: (s.drainers.flatten ++ s.invoked))).Perm s.tracked := by
      rw [hkeys, ← (List.nodup_append.mp h.covers.nodup).1.erase_eq_filter, tracked, taken, hfree]
      exact List.perm_middle.trans ((List.perm_cons_erase hmem).symm.append_right _)
    have hnew : ¬s.Failed key := hordered key htarget
    refine ⟨hwf, hapart, h.covers.perm hperm hseq rfl hsender, ?_, ?_, ?_, ?_⟩
    · intro k hfailed hk
      obtain hk | hk := mem_taken.mp hk
      · cases hk
        exact hnew hfailed
      · exact h.failed k hfailed (mem_taken.mpr (.inr hk))
    · intro hc hr k hk
      change k ∈ c.asyncKeys at hk
      rw [hkeys] at hk
      exact h.closed (hconn.symm.trans hc) (hrep.symm.trans hr) k (List.mem_filter.mp hk).1
    · rintro ⟨hc, hcl, hr, hdrain⟩ k hk
      cases hk
      exact h.closed (hconn.symm.trans hc) (hrep.symm.trans hr) key hmem
    · intro k hk
      obtain hk | hk := List.mem_append.mp hk
      · obtain hk | hk := h.answered k hk
        · rw [hfree] at hk
          cases hk
        · exact .inr hk
      · rw [List.mem_singleton.mp hk]
        exact .inl rfl

theorem Accounted.closeSection {n : Nat} {c : Client} (h : Accounted s)
    (hc : s.client.step (.closeSection n) = some c)
    (hordered : s.Orderly (.client (.closeSection n))) :
    Accounted (s.observe (.closeSection n) c) := by
  obtain ⟨-, hview⟩ := Client.asyncView_closeSection hc
  obtain ⟨hkeys, hsender, hseq, hconn, hclos, hrep⟩ := Client.AsyncView.mk.injEq .. ▸ hview
  change c.asyncKeys = [] at hkeys
  have hperm : (s.observe (.closeSection n) c).tracked.Perm s.tracked := by
    have hcount (k : Nat) : (s.drainers ++ [s.client.asyncKeys]).flatten.count k =
        s.drainers.flatten.count k + s.client.asyncKeys.count k := by
      rw [List.flatten_append, List.count_append, List.flatten_singleton]
    rw [List.perm_iff_count]
    intro k
    simp only [tracked, taken, observe, hkeys, List.count_append, hcount, List.count_nil]
    omega
  refine ⟨h.wf.step hc, h.apart.step h.wf hc, h.covers.perm hperm hseq rfl hsender, ?_, ?_, ?_,
    h.answered⟩
  · intro k hfailed hk
    obtain hk | hk | hk := mem_taken.mp hk
    · exact h.failed k hfailed (mem_taken.mpr (.inl hk))
    · change k ∈ (s.drainers ++ [s.client.asyncKeys]).flatten at hk
      rw [List.flatten_append, List.flatten_singleton] at hk
      obtain hk | hk := List.mem_append.mp hk
      · exact h.failed k hfailed (mem_taken.mpr (.inr (.inl hk)))
      · exact hordered k hk hfailed
    · exact h.failed k hfailed (mem_taken.mpr (.inr (.inr hk)))
  · intro _ _ k hk
    change k ∈ c.asyncKeys at hk
    rw [hkeys] at hk
    cases hk
  · rintro ⟨-, -, -, hdrain⟩
    exact absurd hdrain (List.append_ne_nil_of_right_ne_nil _ (List.cons_ne_nil _ _))

theorem Accounted.clientStep {act : Client.Action} {c : Client} (h : Accounted s)
    (hc : s.client.step act = some c) (hfree : s.blocks act = false)
    (hordered : s.Orderly (.client act)) : Accounted (s.observe act c) := by
  have hwf := h.wf.step hc
  have hapart := h.apart.step h.wf hc
  have hhidden (hview : c.asyncView = s.client.asyncView) : Accounted { s with client := c } :=
    h.hidden hwf hapart hview (Nat.le_refl _) fun _ hkey => hkey
  cases act with
  | beginCall blocking name args target timeout fits => exact h.beginCall hc
  | send ok => exact h.send hc hordered
  | check key => exact hhidden (Client.asyncView_check h.apart hc)
  | wake key => exact hhidden (Client.asyncView_wake hc)
  | expire key => exact hhidden (Client.asyncView_expire hc)
  | timeout key => exact hhidden (Client.asyncView_timeout h.apart hc)
  | recvReply caps frame =>
    exact h.recvReply hc (Option.not_isSome_iff_eq_none.mp (Bool.eq_false_iff.mp hfree)) hordered
  | beginClose err =>
    obtain ⟨-, rfl⟩ := Client.beginClose_cases hc
    refine h.client hwf hapart rfl (Nat.le_refl _) (fun _ hkey => hkey) (fun hc hr => ⟨hc, hr⟩) ?_
    exact fun _ _ hnil => absurd hnil (List.append_ne_nil_of_right_ne_nil _ (List.cons_ne_nil _ _))
  | closeConn n =>
    obtain ⟨err, _, rfl⟩ := Option.map_eq_some_iff.mp hc
    have hbusy : s.client.reporters ++ [err] ≠ [] :=
      List.append_ne_nil_of_right_ne_nil _ (List.cons_ne_nil _ _)
    refine h.client hwf hapart rfl (Nat.le_refl _) (fun _ hkey => hkey) ?_ ?_
    · exact fun _ hnil => absurd hnil hbusy
    · exact fun _ hnil => absurd hnil hbusy
  | closeSection n => exact h.closeSection hc hordered

theorem flatten_set_perm {ls : List (List Nat)} {n key : Nat} {cbs : List Nat}
    (h : ls[n]? = some (key :: cbs)) : ls.flatten.Perm (key :: (ls.set n cbs).flatten) := by
  induction ls generalizing n with
  | nil => cases h
  | cons l ls ih =>
    cases n with
    | zero =>
      cases h
      exact .refl _
    | succ n => exact ((ih h).append_left l).trans List.perm_middle

theorem flatten_eraseIdx {ls : List (List Nat)} {n : Nat} (h : ls[n]? = some []) :
    (ls.eraseIdx n).flatten = ls.flatten := by
  induction ls generalizing n with
  | nil => cases h
  | cons l ls ih =>
    cases n with
    | zero =>
      cases h
      rfl
    | succ n => exact congrArg (l ++ ·) (ih h)

theorem Accounted.invoke {key : Nat} {replying : Option Nat} {drainers : List (List Nat)}
    (h : Accounted s)
    (htaken : s.taken.Perm (replying.toList ++ (drainers.flatten ++ (s.invoked ++ [key]))))
    (hreplying : ∀ k, s.replying = some k → replying = some k ∨ k = key)
    (hheld : ∀ k, replying = some k → s.replying = some k)
    (hfin : drainers = [] → s.drainers = []) :
    Accounted { s with
      replying := replying, drainers := drainers, invoked := s.invoked ++ [key] } := by
  refine ⟨h.wf, h.apart, h.covers.perm (htaken.symm.append_left _) rfl rfl rfl, ?_, h.closed, ?_,
    ?_⟩
  · exact fun k hfailed hk => h.failed k hfailed (htaken.mem_iff.mpr hk)
  · rintro ⟨hc, hcl, hr, hdrain⟩ k hk
    exact h.finished ⟨hc, hcl, hr, hfin hdrain⟩ k (hheld k hk)
  · intro k hk
    obtain hk | hk := h.answered k hk
    · obtain hk | rfl := hreplying k hk
      · exact .inl hk
      · exact .inr (List.mem_append_right _ List.mem_cons_self)
    · exact .inr (List.mem_append_left _ hk)

theorem Accounted.step {act : Action} (h : Accounted s) (hordered : s.Orderly act)
    (hs : s.step act = some s') : Accounted s' := by
  cases act with
  | client act =>
    simp only [Callbacks.step] at hs
    split at hs
    · cases hs
    · rename_i hfree
      obtain ⟨c, hc, rfl⟩ := Option.map_eq_some_iff.mp hs
      exact h.clientStep hc (Bool.eq_false_iff.mpr hfree) hordered
  | invokeReply =>
    obtain ⟨key, hkey, rfl⟩ := Option.map_eq_some_iff.mp hs
    refine h.invoke ?_ ?_ (fun _ hk => by cases hk) fun hnil => hnil
    · rw [taken, hkey, List.perm_iff_count]
      intro k
      simp only [Option.toList_some, Option.toList_none, List.count_append, List.count_nil]
      omega
    · intro k hk
      exact .inr (Option.some.inj (hk.symm.trans hkey))
  | invokeDrained n =>
    simp only [Callbacks.step] at hs
    split at hs
    · rename_i key cbs hcbs
      cases hs
      refine h.invoke ?_ (fun _ hk => .inl hk) (fun _ hk => hk) ?_
      · have hflat := (flatten_set_perm hcbs).count_eq
        rw [taken, List.perm_iff_count]
        intro k
        have hk := hflat k
        simp only [List.count_append, List.count_cons, List.count_nil] at hk ⊢
        omega
      · exact (List.set_eq_nil_iff n cbs).mp
    · cases hs
  | finishClose n =>
    simp only [Callbacks.step] at hs
    split at hs
    · rename_i hcbs
      cases hs
      have htaken : ({ s with drainers := s.drainers.eraseIdx n } : Callbacks).taken = s.taken := by
        rw [taken, taken, flatten_eraseIdx hcbs]
      refine ⟨h.wf, h.apart, h.covers.perm (.of_eq (congrArg (s.client.asyncKeys ++ ·) htaken)) rfl rfl
        rfl, ?_, h.closed, ?_, h.answered⟩
      · intro k hfailed hk
        rw [htaken] at hk
        exact h.failed k hfailed hk
      · rintro ⟨hc, hcl, hr, hdrain⟩
        exact hordered hcl hr hdrain
    · cases hs

theorem accounted_initial : Accounted {} := by
  refine ⟨Client.wf_initial, fun _ hp => absurd hp List.not_mem_nil, ⟨.nil, ?_, ?_⟩, ?_, ?_, ?_, ?_⟩
  · exact fun _ hk => absurd hk List.not_mem_nil
  · rintro k (hk | hk) <;> cases hk
  · rintro k ⟨code, hcode, -⟩
    cases hcode
  · exact fun hc => absurd hc Bool.false_ne_true
  · exact fun hfin => absurd hfin.1 Bool.false_ne_true
  · exact fun _ hk => absurd hk List.not_mem_nil

/-- Over every interleaving whose steps are orderly, a call with a callback is reported exactly
once, and a call that returned an error is not reported at all. -/
theorem reported_once {s : Callbacks} (h : (system.guard Orderly).Reachable s) :
    ReportedOnce s := by
  have haccounted : Accounted s := by
    refine h.invariant ?_ ?_
    · rintro _ rfl
      exact accounted_initial
    · rintro s act t hs ⟨hordered, hstep⟩
      exact hs.step hordered hstep
  exact haccounted.reportedOnce

/-- Two calls with a callback: the first is answered, the second is ended by `close`. -/
def sampleClose : List Action :=
  [.client (.beginCall false "m" none "s" 0 true), .client (.send true),
    .client (.beginCall false "m" none "s" 0 true), .client (.send true),
    .client (.recvReply
      (ResponseSerializer.serializeReply 1 cliSuccess (some ⟨5, none, "s"⟩) 0).tail 0),
    .invokeReply, .client (.beginClose cliEclosed), .client (.closeConn 0),
    .client (.closeSection 0), .invokeDrained 0, .finishClose 0]

theorem reported_once_closed : ∃ s, execute step {} sampleClose = some s ∧
    (system.guard Orderly).Run {} sampleClose s ∧ s.Finished ∧ s.invoked = [1, 2] ∧
    ReportedOnce s := by
  obtain ⟨s, hs⟩ : ∃ s, s = (execute step {} sampleClose).get rfl := ⟨_, rfl⟩
  have hrun : (system.guard Orderly).Run {} sampleClose s := by
    rw [hs]
    refine .cons ⟨trivial, rfl⟩ (.cons ⟨trivial, rfl⟩ (.cons ⟨trivial, rfl⟩ (.cons ⟨trivial, rfl⟩
      (.cons ⟨?_, rfl⟩ (.cons ⟨trivial, rfl⟩ (.cons ⟨trivial, rfl⟩ (.cons ⟨trivial, rfl⟩
      (.cons ⟨?_, rfl⟩ (.cons ⟨trivial, rfl⟩ (.cons ⟨?_, rfl⟩ (.nil _)))))))))))
    · rintro key hkey ⟨code, hcode, hne⟩
      cases hkey
      cases hcode
      exact hne rfl
    · rintro key hkey ⟨code, hcode, hne⟩
      obtain rfl := List.mem_singleton.mp hkey
      cases hcode
      exact hne rfl
    · intro _ _ _ key hkey
      cases hkey
  refine ⟨s, by rw [hs]; rfl, hrun, ?_, by rw [hs]; rfl, reported_once ⟨_, _, rfl, hrun⟩⟩
  rw [hs]
  exact ⟨rfl, rfl, rfl, rfl⟩

/-- The error exit of `call` leaves the published entry in the list: the send fails, `call` returns
`FLORA_CLI_ECONN`, and the `iclose` that follows invokes the callback. -/
theorem reported_once_fails_unsent : ¬ ∀ s, system.Reachable s → ReportedOnce s := by
  intro h
  have hrun : execute step {} [.client (.beginCall false "m" none "s" 0 true),
    .client (.send false), .client (.beginClose cliEconn), .client (.closeConn 0),
    .client (.closeSection 0), .invokeDrained 0] = some _ := rfl
  have hrep := h _ (execute_reachable rfl hrun)
  exact hrep.notFailed 1 ⟨cliEconn, rfl, by decide⟩ List.mem_cons_self

end Callbacks

end Flora
