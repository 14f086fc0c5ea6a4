import Flora.Client.Requests

/-! # Requests with a callback

What the rest of the client does to the requests that `call` made with a callback: a view of the
client that forgets the blocking calls, and the effect of every step on it. -/

namespace Flora

namespace Client

variable {c c' : Client} {key : Nat}

/-- The call is a blocking one and holds `send_mutex`. -/
def isSending (c : Client) (key : Nat) : Bool :=
  match c.calls key with
  | some .sending => true
  | _ => false

/-- The listed requests with a callback. -/
def asyncKeys (c : Client) : List Nat :=
  (c.pendingRequests.filter (!·.blocking)).map PendingRequest.key

/-- The call with a callback that holds `send_mutex`. -/
def asyncSender (c : Client) : Option Nat := c.sender.filter fun key => !c.isSending key

/-- The request with a callback that a `CMD_REPLY_RESP` ends. -/
def asyncTarget (c : Client) (caps : Caps) : Option Nat :=
  (ResponseParser.parseReply caps).bind fun (id, _, _) =>
    ((c.pendingRequests.find? (·.id == id)).filter (!·.blocking)).map PendingRequest.key

/-- A request with a callback belongs to no blocking call. -/
def Apart (c : Client) : Prop :=
  ∀ p ∈ c.pendingRequests, p.blocking = false → c.calls p.key = none

theorem isSending_setCall {pc pc' : CallPc} (hcall : c.calls key = some pc) (hpc : pc ≠ .sending)
    (hpc' : pc' ≠ .sending) (k : Nat) : (c.setCall key pc').isSending k = c.isSending k := by
  by_cases hk : k = key
  · subst hk
    have hnew : (c.setCall k pc').calls k = some pc' := Function.update_self ..
    simp only [isSending, hcall, hnew]
    cases pc <;> cases pc' <;> first | rfl | exact absurd rfl hpc | exact absurd rfl hpc'
  · have hold : (c.setCall key pc').calls k = c.calls k := Function.update_of_ne hk ..
    simp only [isSending, hold]

theorem Apart.key_ne (h : Apart c) {pc : CallPc} (hcall : c.calls key = some pc)
    {p : PendingRequest} (hp : p ∈ c.pendingRequests) (hasync : p.blocking = false) :
    p.key ≠ key := by
  rintro rfl
  rw [h p hp hasync] at hcall
  cases hcall

theorem Apart.setCall (h : Apart c) {pc pc' : CallPc} (hcall : c.calls key = some pc) :
    Apart (c.setCall key pc') := by
  intro p hp hasync
  change Function.update c.calls key (some pc') p.key = none
  rw [Function.update_of_ne (h.key_ne hcall hp hasync)]
  exact h p hp hasync

theorem Apart.leave (h : Apart c) {pc : CallPc} {retcode : Word} {reply : Option Response}
    (hcall : c.calls key = some pc) : Apart (c.leave key retcode reply) := by
  intro p hp hasync
  exact h.setCall hcall p (List.mem_filter.mp hp).1 hasync

theorem Apart.step {act : Action} (h : Apart c) (hwf : Wf c) (hc : c.step act = some c') :
    Apart c' := by
  cases act with
  | beginCall blocking name args target timeout fits =>
    have hfresh : c.calls (c.reqseq + 1) = none := hwf.calls_fresh (Nat.lt_succ_self _)
    have hlist (b : Bool) : Apart ((c.ask name args target timeout).enlist b) := by
      intro p hp hasync
      obtain hp | hp := List.mem_append.mp hp
      · exact h p hp hasync
      · rw [List.mem_singleton.mp hp]
        exact hfresh
    obtain ⟨_, _, ⟨-, rfl⟩ | ⟨-, rfl⟩ | ⟨-, -, rfl⟩⟩ := beginCall_cases hc
    · exact h
    · exact hlist false
    · intro p hp hasync
      have hne : p.key ≠ c.reqseq + 1 := by
        obtain hp | hp := List.mem_append.mp hp
        · have hle := (hwf.pending p hp).2.1
          omega
        · rw [List.mem_singleton.mp hp] at hasync
          cases hasync
      change Function.update c.calls (c.reqseq + 1) (some CallPc.sending) p.key = none
      rw [Function.update_of_ne hne]
      exact hlist true p hp hasync
  | send ok =>
    obtain ⟨k, _, ⟨hcall, rfl⟩ | rfl⟩ := send_cases hc
    · exact Apart.setCall (c := { c with sender := none }) h hcall
    · exact h
  | check k =>
    obtain ⟨p, hcall, _, ⟨_, rfl⟩ | ⟨_, _, rfl⟩ | ⟨_, _, rfl⟩⟩ := check_cases hc
    · exact h.leave hcall
    · exact h.leave hcall
    · exact h.setCall hcall
  | wake k =>
    obtain ⟨hcall, rfl⟩ := wake_cases hc
    exact h.setCall hcall
  | expire k =>
    obtain ⟨hcall, rfl⟩ := expire_cases hc
    exact h.setCall hcall
  | timeout k =>
    obtain ⟨p, hcall, _, rfl⟩ := timeout_cases hc
    exact h.leave hcall
  | recvReply caps frame =>
    obtain ⟨id, rescode, response, -, rfl⟩ := recvReply_cases hc
    unfold recordReply
    split
    · exact h
    · rename_i p hfind
      dsimp only
      split
      · intro q hq hasync
        obtain ⟨q', hq', rfl⟩ := List.mem_map.mp hq
        split at hasync
        · rename_i hkey
          rw [if_pos hkey]
          exact h q' hq' hasync
        · rename_i hkey
          rw [if_neg hkey]
          exact h q' hq' hasync
      · exact fun q hq hasync => h q (List.mem_filter.mp hq).1 hasync
  | beginClose err =>
    obtain ⟨_, rfl⟩ := beginClose_cases hc
    exact h
  | closeConn n =>
    obtain ⟨err, _, rfl⟩ := Option.map_eq_some_iff.mp hc
    exact h
  | closeSection n =>
    obtain ⟨err, _, rfl⟩ := Option.map_eq_some_iff.mp hc
    exact fun p hp hasync => h p (List.mem_filter.mp hp).1 hasync

/-- The client without its blocking calls. -/
structure AsyncView where
  keys : List Nat
  sender : Option Nat
  seq : Nat
  connClosed : Bool
  closers : List Word
  reporters : List Word

def asyncView (c : Client) : AsyncView :=
  ⟨c.asyncKeys, c.asyncSender, c.reqseq, c.connClosed, c.closers, c.reporters⟩

theorem asyncSender_of_none (h : c.sender = none) : c.asyncSender = none := by
  rw [asyncSender, h]
  rfl

theorem asyncView_setCall {pc pc' : CallPc} (hcall : c.calls key = some pc) (hpc : pc ≠ .sending)
    (hpc' : pc' ≠ .sending) : (c.setCall key pc').asyncView = c.asyncView := by
  have hsender : (c.setCall key pc').asyncSender = c.asyncSender := by
    unfold asyncSender
    congr 1
    funext k
    rw [isSending_setCall hcall hpc hpc']
  rw [asyncView, asyncView, hsender]
  rfl

theorem asyncView_leave (h : Apart c) {pc : CallPc} {retcode : Word} {reply : Option Response}
    (hcall : c.calls key = some pc) (hpc : pc ≠ .sending) :
    (c.leave key retcode reply).asyncView = c.asyncView := by
  have hset : (c.setCall key (.returned retcode reply)).asyncView = c.asyncView :=
    asyncView_setCall hcall hpc nofun
  have hkeys : (c.leave key retcode reply).asyncKeys = c.asyncKeys := by
    change ((c.pendingRequests.filter (·.key != key)).filter (!·.blocking)).map _ = _
    rw [List.filter_filter, asyncKeys]
    congr 1
    apply List.filter_congr
    intro p hp
    cases hasync : p.blocking with
    | true => rfl
    | false =>
      have hne := h.key_ne hcall hp hasync
      simp [hne]
  rw [← hset]
  change (⟨(c.leave key retcode reply).asyncKeys, _, _, _, _, _⟩ : AsyncView) = _
  rw [hkeys]
  rfl

theorem asyncView_beginCall (hwf : Wf c) {blocking fits : Bool} {name target : String}
    {args : CapsPtr} {timeout : Word}
    (hc : c.step (.beginCall blocking name args target timeout fits) = some c') :
    c.asyncSender = none ∧ c'.asyncView =
      if fits && !blocking then
        { c.asyncView with
          seq := c.reqseq + 1, keys := c.asyncKeys ++ [c.reqseq + 1], sender := some (c.reqseq + 1) }
      else { c.asyncView with seq := c.reqseq + 1 } := by
  have hfresh : c.calls (c.reqseq + 1) = none := hwf.calls_fresh (Nat.lt_succ_self _)
  simp only [Client.step, beginCall] at hc
  split at hc
  · cases hc
  · rename_i hcond
    have hsender : c.sender = none := not_not.mp fun hne => hcond (.inl hne)
    have hnone := asyncSender_of_none hsender
    refine ⟨hnone, ?_⟩
    cases fits with
    | false =>
      cases hc
      rfl
    | true =>
      cases blocking with
      | false =>
        rw [if_pos rfl, if_neg Bool.false_ne_true] at hc
        cases hc
        simp [asyncView, asyncKeys, asyncSender, isSending, enlist, ask, hfresh]
      | true =>
        rw [if_pos rfl, if_pos rfl] at hc
        cases hc
        have hlast : (((c.ask name args target timeout).enlist true).setCall (c.reqseq + 1)
            .sending).asyncSender = none := by
          simp [asyncSender, isSending, enlist, ask, Client.setCall]
        have hkeys : (((c.ask name args target timeout).enlist true).setCall (c.reqseq + 1)
            .sending).asyncKeys = c.asyncKeys := by
          simp [asyncKeys, enlist, ask, Client.setCall]
        simp only [Bool.not_true, Bool.and_false, Bool.false_eq_true, if_false]
        change (((c.ask name args target timeout).enlist true).setCall (c.reqseq + 1)
          .sending).asyncView = _
        rw [asyncView, asyncView, hlast, hkeys, hnone]
        rfl

theorem asyncView_send {ok : Bool} (hc : c.step (.send ok) = some c') :
    c.sender ≠ none ∧ (ok = true → c.connClosed = false) ∧
      c'.asyncView = { c.asyncView with sender := none } := by
  have hclosed : ok = true → c.connClosed = false := by
    rintro rfl
    simp only [Client.step, Client.send] at hc
    split at hc
    · cases hc
    · split at hc
      · cases hc
      · rename_i hcond
        simpa using hcond
  obtain ⟨k, hk, ⟨_, rfl⟩ | rfl⟩ := send_cases hc
  · exact ⟨by rw [hk]; exact Option.some_ne_none k, hclosed, rfl⟩
  · exact ⟨by rw [hk]; exact Option.some_ne_none k, hclosed, rfl⟩

theorem asyncView_recvReply {caps : Caps} {frame : Nat} (hc : c.step (.recvReply caps frame) = some c') :
    c'.asyncView = { c.asyncView with
      keys := (c.asyncTarget caps).elim c.asyncKeys fun key => c.asyncKeys.filter (· != key) } := by
  obtain ⟨id, rescode, response, hparse, rfl⟩ := recvReply_cases hc
  rw [asyncTarget, hparse, Option.bind_some]
  dsimp only
  unfold recordReply
  cases hfind : c.pendingRequests.find? (·.id == id) with
  | none => rfl
  | some p =>
    dsimp only
    cases hblocking : p.blocking with
    | true =>
      rw [if_pos rfl]
      have hkeys : ((c.pendingRequests.map fun q => if q.key = p.key then
          { q with id := 0, rcode := rescode,
                   result := if rescode = cliSuccess then response else q.result }
          else q).filter (!·.blocking)).map PendingRequest.key = c.asyncKeys := by
        rw [asyncKeys, List.filter_map, List.map_map]
        congr 1
        · funext q
          simp only [Function.comp]
          split <;> rfl
        · apply List.filter_congr
          intro q _
          simp only [Function.comp]
          split <;> rfl
      change (⟨_, _, _, _, _, _⟩ : AsyncView) = _
      simp only [Option.filter, hblocking, Bool.not_true]
      change (⟨List.map PendingRequest.key (List.filter _ _), _, _, _, _, _⟩ : AsyncView) = _
      rw [hkeys]
      rfl
    | false =>
      rw [if_neg Bool.false_ne_true]
      simp only [Option.filter, hblocking, Bool.not_false]
      have hkeys : ((c.pendingRequests.filter (·.key != p.key)).filter (!·.blocking)).map
          PendingRequest.key = c.asyncKeys.filter (· != p.key) := by
        rw [asyncKeys, List.filter_map, List.filter_filter, List.filter_filter]
        congr 1
        apply List.filter_congr
        intro q _
        exact Bool.and_comm _ _
      change (⟨List.map PendingRequest.key (List.filter _ _), _, _, _, _, _⟩ : AsyncView) = _
      rw [hkeys]
      rfl

theorem asyncView_check (h : Apart c) (hc : c.step (.check key) = some c') :
    c'.asyncView = c.asyncView := by
  obtain ⟨p, hcall, _, ⟨_, rfl⟩ | ⟨_, _, rfl⟩ | ⟨_, _, rfl⟩⟩ := check_cases hc
  · exact asyncView_leave h hcall nofun
  · exact asyncView_leave h hcall nofun
  · exact asyncView_setCall hcall nofun nofun

theorem asyncView_wake (hc : c.step (.wake key) = some c') : c'.asyncView = c.asyncView := by
  obtain ⟨hcall, rfl⟩ := wake_cases hc
  exact asyncView_setCall hcall nofun nofun

theorem asyncView_expire (hc : c.step (.expire key) = some c') : c'.asyncView = c.asyncView := by
  obtain ⟨hcall, rfl⟩ := expire_cases hc
  exact asyncView_setCall hcall nofun nofun

theorem asyncView_timeout (h : Apart c) (hc : c.step (.timeout key) = some c') :
    c'.asyncView = c.asyncView := by
  obtain ⟨p, hcall, _, rfl⟩ := timeout_cases hc
  exact asyncView_leave h hcall nofun

theorem asyncView_closeSection {n : Nat} (hc : c.step (.closeSection n) = some c') :
    n < c.reporters.length ∧
      c'.asyncView = { c.asyncView with keys := [], reporters := c.reporters.eraseIdx n } := by
  obtain ⟨err, herr, rfl⟩ := Option.map_eq_some_iff.mp hc
  refine ⟨(List.getElem?_eq_some_iff.mp herr).1, ?_⟩
  have hkeys : (c.closeSection err).asyncKeys = [] := by
    simp [asyncKeys, Client.closeSection, List.filter_filter]
  change (⟨(c.closeSection err).asyncKeys, _, _, _, _, _⟩ : AsyncView) = _
  rw [hkeys]
  rfl

end Client

end Flora
