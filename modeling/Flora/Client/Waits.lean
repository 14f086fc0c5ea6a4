import Flora.Client.BlockingCall

/-! # How long a blocking call waits

A blocking call takes the time once, before it sends its request, and waits until a time point that
lies `timeout + 200` milliseconds later. The sum is one of `uint32_t`. Times are nanoseconds. -/

namespace Flora

namespace Client

/-- `milliseconds(timeout + 200)` in `Client::call`. -/
def waitInterval (timeout : Word) : Nat := (timeout + 200).toNat

/-- The times of a blocking call: when it took the time, the `tp` it waits for, and when it last
came back from `wait_until`. -/
structure Wait where
  began : Nat := 0
  tp : Nat := 0
  resumed : Nat := 0

/-- What an action of the client at the time `now` does to the times of its calls. -/
def waitsAfter (c : Client) (w : Nat → Wait) (now : Nat) : Action → Nat → Wait
  | .beginCall true _ _ _ timeout true =>
    Function.update w (c.reqseq + 1) ⟨now, now + waitInterval timeout * 10 ^ 6, now⟩
  | .wake key => Function.update w key { w key with resumed := now }
  | .expire key => Function.update w key { w key with resumed := now }
  | _ => w

/-- A wait does not time out before its time point. -/
def due (w : Nat → Wait) (now : Nat) : Action → Bool
  | .expire key => (w key).tp ≤ now
  | _ => true

variable {c c' : Client} {key now : Nat} {w : Nat → Wait} {act : Action}

theorem waitsAfter_moves (hc : c.step act = some c') (w : Nat → Wait) (now key : Nat) :
    c.waitsAfter w now act key = w key ∨ ∃ pc, Moves c act key pc ∧ c'.calls key = some pc := by
  cases act with
  | beginCall blocking name args target timeout fits =>
    obtain ⟨-, -, ⟨rfl, -⟩ | ⟨rfl, -⟩ | ⟨rfl, rfl, rfl⟩⟩ := beginCall_cases hc
    · cases blocking <;> exact .inl rfl
    · exact .inl rfl
    · by_cases hkey : key = c.reqseq + 1
      · subst hkey
        exact .inr ⟨_, .beginCall, Function.update_self _ _ _⟩
      · exact .inl (Function.update_of_ne hkey _ _)
  | wake k =>
    obtain ⟨hcall, rfl⟩ := wake_cases hc
    by_cases hkey : key = k
    · subst hkey
      exact .inr ⟨_, .wake hcall, Function.update_self _ _ _⟩
    · exact .inl (Function.update_of_ne hkey _ _)
  | expire k =>
    obtain ⟨hcall, rfl⟩ := expire_cases hc
    by_cases hkey : key = k
    · subst hkey
      exact .inr ⟨_, .expire hcall, Function.update_self _ _ _⟩
    · exact .inl (Function.update_of_ne hkey _ _)
  | _ => exact .inl rfl

/-- What a client has asked for, what it has recorded and that it is closed stay. -/
structure Grows (c c' : Client) : Prop where
  asked : c.asked <+: c'.asked
  completions : c.completions <+: c'.completions
  closed : c.connClosed = true → c'.connClosed = true

theorem Grows.refl (c : Client) : Grows c c := ⟨List.prefix_refl _, List.prefix_refl _, id⟩

theorem grows_recordReply (c : Client) (id rescode : Word) (response : Option Response)
    (frame : Nat) : Grows c (c.recordReply id rescode response frame) := by
  unfold recordReply
  split
  · exact .refl c
  · dsimp only
    split <;> exact ⟨List.prefix_refl _, List.prefix_append _ _, fun hclosed => hclosed⟩

theorem step_grows (hc : c.step act = some c') : Grows c c' := by
  cases act with
  | beginCall blocking name args target timeout fits =>
    obtain ⟨-, -, ⟨-, rfl⟩ | ⟨-, rfl⟩ | ⟨-, -, rfl⟩⟩ := beginCall_cases hc <;>
      exact ⟨List.prefix_append _ _, List.prefix_refl _, id⟩
  | send ok =>
    obtain ⟨k, -, ⟨-, rfl⟩ | rfl⟩ := send_cases hc
    · exact ⟨List.prefix_refl _, List.prefix_refl _, id⟩
    · exact ⟨List.prefix_refl _, List.prefix_refl _, id⟩
  | check k =>
    obtain ⟨p, -, -, ⟨-, rfl⟩ | ⟨-, -, rfl⟩ | ⟨-, -, rfl⟩⟩ := check_cases hc <;>
      exact ⟨List.prefix_refl _, List.prefix_refl _, id⟩
  | wake k =>
    obtain ⟨-, rfl⟩ := wake_cases hc
    exact ⟨List.prefix_refl _, List.prefix_refl _, id⟩
  | expire k =>
    obtain ⟨-, rfl⟩ := expire_cases hc
    exact ⟨List.prefix_refl _, List.prefix_refl _, id⟩
  | timeout k =>
    obtain ⟨p, -, -, rfl⟩ := timeout_cases hc
    exact ⟨List.prefix_refl _, List.prefix_refl _, id⟩
  | recvReply caps frame =>
    obtain ⟨id, rescode, response, -, rfl⟩ := recvReply_cases hc
    exact grows_recordReply c id rescode response frame
  | beginClose err =>
    obtain ⟨-, rfl⟩ := beginClose_cases hc
    exact ⟨List.prefix_refl _, List.prefix_refl _, id⟩
  | closeConn n =>
    obtain ⟨err, -, rfl⟩ := Option.map_eq_some_iff.mp hc
    exact ⟨List.prefix_refl _, List.prefix_refl _, fun _ => rfl⟩
  | closeSection n =>
    obtain ⟨err, -, rfl⟩ := Option.map_eq_some_iff.mp hc
    exact ⟨List.prefix_refl _, List.prefix_refl _, id⟩

theorem Grows.recorded (h : Grows c c') {x : Completion} (hx : c.recorded key = some x) :
    c'.recorded key = some x := by
  obtain ⟨later, hlater⟩ := h.completions
  unfold Client.recorded at hx ⊢
  rw [← hlater, List.find?_append, hx]
  rfl

theorem Grows.getElem? (h : Grows c c') {n : Nat} {r : CallReq} (hr : c.asked[n]? = some r) :
    c'.asked[n]? = some r := by
  obtain ⟨later, hlater⟩ := h.asked
  rw [← hlater, List.getElem?_append_left (List.getElem?_eq_some_iff.mp hr).1]
  exact hr

theorem returned_recorded (h : Wf c) (hc : c.step act = some c') {retcode : Word}
    {reply : Option Response} (hret : c.calls key = some (.returned retcode reply)) :
    c'.recorded key = c.recorded key := by
  have hsame (heq : c'.completions = c.completions) : c'.recorded key = c.recorded key := by
    rw [recorded, recorded, heq]
  by_cases hin : act.inner = true
  · exact hsame (step_inner hin hc).1
  · cases act with
    | send ok => exact hsame (send_rest hc).2.2.2
    | recvReply caps frame =>
      obtain ⟨-, -, -, heq | ⟨x, happ, -, -, hopen⟩⟩ := recvReply_rest h hc
      · exact hsame heq
      · have hne : x.key ≠ key := by
          rintro rfl
          exact hopen retcode reply hret
        rw [recorded, recorded, happ, List.find?_append]
        simp [hne]
    | _ => exact absurd rfl hin

/-- The times of one call: it waits as long as it was asked to, its wait has not timed out early,
and if it returned anything else than the reply recorded for it, it had waited that long, or the
connection was closed and nothing is recorded. -/
structure OnTime (c : Client) (key : Nat) (w : Wait) : Prop where
  tp : ∀ pc, c.calls key = some pc → ∃ r, c.asked[key - 1]? = some r ∧
    w.tp = w.began + waitInterval r.timeout * 10 ^ 6
  expired : c.calls key = some .expired → w.tp ≤ w.resumed
  returned : ∀ retcode reply, c.calls key = some (.returned retcode reply) →
    (∃ x, c.recorded key = some x ∧ Reports (some x) retcode reply) ∨ w.tp ≤ w.resumed ∨
      (c.connClosed = true ∧ c.recorded key = none)

theorem OnTime.keep {wt : Wait} (h : OnTime c key wt) (hwf : Wf c) (hc : c.step act = some c')
    (hcalls : c'.calls key = c.calls key) : OnTime c' key wt := by
  have hg := step_grows hc
  refine ⟨?_, ?_, ?_⟩ <;> rw [hcalls]
  · intro pc hpc
    obtain ⟨r, hr, htp⟩ := h.tp pc hpc
    exact ⟨r, hg.getElem? hr, htp⟩
  · exact h.expired
  · intro retcode reply hret
    rw [returned_recorded hwf hc hret]
    obtain hrep | hlate | ⟨hclosed, hnone⟩ := h.returned retcode reply hret
    · exact .inl hrep
    · exact .inr (.inl hlate)
    · exact .inr (.inr ⟨hg.closed hclosed, hnone⟩)

def Timely (c : Client) (w : Nat → Wait) : Prop := ∀ key, OnTime c key (w key)

theorem OnTime.of_call {pc : CallPc} {wt : Wait} (hcall : c.calls key = some pc)
    (htp : ∃ r, c.asked[key - 1]? = some r ∧ wt.tp = wt.began + waitInterval r.timeout * 10 ^ 6)
    (hexpired : pc = .expired → wt.tp ≤ wt.resumed)
    (hreturned : ∀ retcode reply, pc = .returned retcode reply →
      (∃ x, c.recorded key = some x ∧ Reports (some x) retcode reply) ∨ wt.tp ≤ wt.resumed ∨
        (c.connClosed = true ∧ c.recorded key = none)) : OnTime c key wt := by
  refine ⟨fun _ _ => htp, ?_, ?_⟩ <;> rw [hcall]
  · intro heq
    exact hexpired (Option.some.inj heq)
  · intro retcode reply heq
    exact hreturned retcode reply (Option.some.inj heq)

theorem beginCall_asked {name target : String} {args : CapsPtr} {timeout : Word}
    (hlen : c.asked.length = c.reqseq)
    (hc : c.step (.beginCall true name args target timeout true) = some c') :
    ∃ r, c'.asked[c.reqseq]? = some r ∧ r.timeout = timeout := by
  obtain ⟨-, -, ⟨hfits, -⟩ | ⟨hblocking, -⟩ | ⟨-, -, rfl⟩⟩ := beginCall_cases hc
  · cases hfits
  · cases hblocking
  · refine ⟨⟨name, args, target, BitVec.ofNat 32 (c.reqseq + 1), timeout⟩, ?_, rfl⟩
    change (c.asked ++ [_])[c.reqseq]? = _
    rw [← hlen]
    exact List.getElem?_concat_length

theorem OnTime.moves {pc : CallPc} (h : Timely c w) (hwf : Wf c) (hkept : Kept c)
    (hlen : c.asked.length = c.reqseq) (hc : c.step act = some c') (hdue : due w now act = true)
    (hmove : Moves c act key pc) (hcall : c'.calls key = some pc) :
    OnTime c' key (c.waitsAfter w now act key) := by
  have hg := step_grows hc
  have htp {pc' : CallPc} (hpc' : c.calls key = some pc') : ∃ r, c'.asked[key - 1]? = some r ∧
      (w key).tp = (w key).began + waitInterval r.timeout * 10 ^ 6 := by
    obtain ⟨r, hr, htp⟩ := (h key).tp pc' hpc'
    exact ⟨r, hg.getElem? hr, htp⟩
  cases hmove with
  | beginCall =>
    obtain ⟨r, hr, rfl⟩ := beginCall_asked hlen hc
    simp only [waitsAfter, Function.update_self]
    exact .of_call hcall ⟨r, hr, rfl⟩ (by simp) (by simp)
  | @send _ ok hold =>
    refine .of_call hcall (htp hold) ?_ fun retcode reply heq => ?_
    · cases ok <;> simp
    · exact absurd heq (sent_ne_returned retcode reply)
  | wait hold => exact .of_call hcall (htp hold) (by simp) (by simp)
  | replied hold hentry hid =>
    refine .of_call hcall (htp hold) (by simp) ?_
    rintro retcode reply ⟨⟩
    obtain ⟨x, hx, hrep⟩ := replied_reports hwf hkept hentry hid
    exact .inl ⟨x, hg.recorded hx, hrep⟩
  | closed hold hentry hid hclosed =>
    refine .of_call hcall (htp hold) (by simp) fun _ _ _ => .inr (.inr ⟨hg.closed hclosed, ?_⟩)
    obtain ⟨hp, rfl⟩ := entry_mem hentry
    have hnone := not_not.mp fun hne => hid ((hwf.id_zero_iff hp).mpr hne)
    rw [recorded, (step_inner rfl hc).1]
    exact hnone
  | wake hold =>
    simp only [waitsAfter, Function.update_self]
    exact .of_call hcall (htp hold) (by simp) (by simp)
  | expire hold =>
    simp only [waitsAfter, Function.update_self]
    exact .of_call hcall (htp hold) (fun _ => of_decide_eq_true hdue) (by simp)
  | timeout hold =>
    exact .of_call hcall (htp hold) (by simp) fun _ _ _ => .inr (.inl ((h key).expired hold))

theorem Timely.step (h : Timely c w) (hwf : Wf c) (hkept : Kept c)
    (hlen : c.asked.length = c.reqseq) (hc : c.step act = some c') (now : Nat)
    (hdue : due w now act = true) : Timely c' (c.waitsAfter w now act) := by
  intro key
  obtain hcalls | ⟨pc, hmove, hcall⟩ := step_moves hc key
  · obtain hw | ⟨pc, hmove, hcall⟩ := waitsAfter_moves hc w now key
    · rw [hw]
      exact (h key).keep hwf hc hcalls
    · exact .moves h hwf hkept hlen hc hdue hmove hcall
  · exact .moves h hwf hkept hlen hc hdue hmove hcall

end Client

end Flora
