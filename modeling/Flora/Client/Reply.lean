import Flora.Client.Api

/-! # Replies to calls

`ReplyImpl` collects a code and data and sends one reply: at the first of the three functions `end`,
or when it is destroyed. The functions of the C API work on the same object. What a method wrote is
described by folds over the calls up to that point. -/

namespace Flora

/-- `FLORA_CALL_RETCODE_NORESP` -/
def callRetcodeNoresp : Word := -2000000000

/-- `Client::send_reply`: what is handed to `connection->send`, unless the reply does not fit. -/
def ApiClient.sendReply (e : Env) (c : ApiClient) (callid code : Word) (data : CapsPtr) :
    Option ClientMessage :=
  let m := ClientMessage.reply ⟨callid, code, data⟩
  let length := e.capsSize c.serializeFlags m.caps
  if 0 < length ∧ length < 2 ^ 31 ∧ length ≤ c.bufsize then some m else none

structure ReplyImpl where
  client : Option ApiClient
  callid : Word
  retCode : Word := callRetcodeNoresp
  data : CapsPtr := none
  /-- History: the replies handed to the connection. -/
  handed : List ClientMessage := []

namespace ReplyImpl

variable (e : Env) (r : ReplyImpl)

def writeCode (code : Word) : ReplyImpl := { r with retCode := code }

def writeData (data : CapsPtr) : ReplyImpl := { r with data := data }

def send : ReplyImpl :=
  match r.client with
  | none => r
  | some c => { r with
      handed := r.handed ++ (c.sendReply e r.callid r.retCode r.data).toList
      client := none }

/-- `end()` -/
def endReply : ReplyImpl := (r.writeCode 0).send e

/-- `end(code)` -/
def endCode (code : Word) : ReplyImpl := (r.writeCode code).send e

/-- `end(code, data)` -/
def endData (code : Word) (data : CapsPtr) : ReplyImpl := ((r.writeCode code).writeData data).send e

/-- `~ReplyImpl()` -/
def destroy : ReplyImpl := r.send e

inductive Op where
  | writeCode (code : Word)
  | writeData (data : CapsPtr)
  | endReply
  | endCode (code : Word)
  | endData (code : Word) (data : CapsPtr)

def apply (r : ReplyImpl) : Op → ReplyImpl
  | .writeCode code => r.writeCode code
  | .writeData data => r.writeData data
  | .endReply => r.endReply e
  | .endCode code => r.endCode e code
  | .endData code data => r.endData e code data

def run (ops : List Op) : ReplyImpl := ops.foldl (apply e) r

/-- A call of one of the functions of the C API that keep the reply. `Caps::convert` changes the
pointer type only. -/
inductive CWrite where
  | writeCode (code : Word)
  | writeData (data : CapsPtr)

def floraCallReplyWriteCode (code : Word) : ReplyImpl := r.writeCode code

def floraCallReplyWriteData (data : CapsPtr) : ReplyImpl := r.writeData data

/-- The handle is deleted, and the reply with it. -/
def floraCallReplyEnd : ReplyImpl := (r.endReply e).destroy e

def applyC (r : ReplyImpl) : CWrite → ReplyImpl
  | .writeCode code => r.floraCallReplyWriteCode code
  | .writeData data => r.floraCallReplyWriteData data

def runC (ws : List CWrite) : ReplyImpl := ws.foldl applyC r

def Op.ends : Op → Bool
  | .endReply => true
  | .endCode _ => true
  | .endData _ _ => true
  | _ => false

/-- The code that is an argument of the function. -/
def Op.code : Op → Option Word
  | .writeCode code => some code
  | .endCode code => some code
  | .endData code _ => some code
  | _ => none

def Op.data : Op → Option CapsPtr
  | .writeData data => some data
  | .endData _ data => some data
  | _ => none

def CWrite.op : CWrite → Op
  | .writeCode code => .writeCode code
  | .writeData data => .writeData data

/-- The last value that the functions write. -/
def last {α : Type} (f : Op → Option α) : List Op → Option α
  | [] => none
  | op :: ops => (last f ops).or (f op)

def untilEnd : List Op → List Op
  | [] => []
  | op :: ops => op :: if op.ends then [] else untilEnd ops

/-- The reply that carries what was written: without a code it is 0 after `end()` and
`FLORA_CALL_RETCODE_NORESP` without one. -/
def written (callid : Word) (ops : List Op) : ClientMessage :=
  .reply ⟨callid,
    (last Op.code (untilEnd ops)).getD (if ops.any Op.ends then 0 else callRetcodeNoresp),
    (last Op.data (untilEnd ops)).getD none⟩

/-- Exactly one reply is sent, at the first `end` or else at the destruction, and it is the one that
was written. -/
def Carries (c : ApiClient) (callid : Word) (ops : List Op) : Prop :=
  (∀ bs, bs <+: ops → (run e { client := some c, callid } bs).handed =
    if bs.any Op.ends then [written callid ops] else []) ∧
  ((run e { client := some c, callid } ops).destroy e).handed = [written callid ops]

/-- The same for the C API, where a reply is destroyed by its `end` only. -/
def CarriesC (c : ApiClient) (callid : Word) (ws : List CWrite) : Prop :=
  (runC { client := some c, callid } ws).handed = [] ∧
  (floraCallReplyEnd e (runC { client := some c, callid } ws)).handed =
    [written callid (ws.map CWrite.op ++ [.endReply])]

def Fits (c : ApiClient) (m : ClientMessage) : Prop :=
  0 < e.capsSize c.serializeFlags m.caps ∧ e.capsSize c.serializeFlags m.caps < 2 ^ 31 ∧
    e.capsSize c.serializeFlags m.caps ≤ c.bufsize

/-- The calls write a code other than 0 and then end with `end()`, which has no code. -/
def Overridden (ops : List Op) : Prop :=
  ∃ ws us code, ops = ws ++ .endReply :: us ∧ ws.any Op.ends = false ∧
    last Op.code ws = some code ∧ code ≠ 0

variable {e} {r} {c : ApiClient} {callid : Word} {ops ws us : List Op} {op : Op}

theorem last_append {α : Type} (f : Op → Option α) (ws us : List Op) :
    last f (ws ++ us) = (last f us).or (last f ws) := by
  induction ws with
  | nil => exact (Option.or_none).symm
  | cons op ws ih => rw [List.cons_append, last, ih, last, Option.or_assoc]

theorem untilEnd_of_writes (h : ops.any Op.ends = false) : untilEnd ops = ops := by
  induction ops with
  | nil => rfl
  | cons op ops ih =>
    obtain ⟨hop, hops⟩ := Bool.or_eq_false_iff.mp h
    rw [untilEnd, hop, if_neg Bool.false_ne_true, ih hops]

theorem untilEnd_append (h : ws.any Op.ends = false) (hop : op.ends = true) :
    untilEnd (ws ++ op :: us) = ws ++ [op] := by
  induction ws with
  | nil => rw [List.nil_append, untilEnd, if_pos hop, List.nil_append]
  | cons w ws ih =>
    obtain ⟨hw, hws⟩ := Bool.or_eq_false_iff.mp h
    rw [List.cons_append, untilEnd, hw, if_neg Bool.false_ne_true, ih hws, List.cons_append]

theorem ends_cases (ops : List Op) : ops.any Op.ends = false ∨
    ∃ ws op us, ops = ws ++ op :: us ∧ ws.any Op.ends = false ∧ op.ends = true := by
  induction ops with
  | nil => exact .inl rfl
  | cons op ops ih =>
    cases hop : op.ends with
    | true => exact .inr ⟨[], op, ops, rfl, rfl, hop⟩
    | false =>
      obtain hops | ⟨ws, op', us, rfl, hws, hop'⟩ := ih
      · exact .inl (Bool.or_eq_false_iff.mpr ⟨hop, hops⟩)
      · exact .inr ⟨op :: ws, op', us, rfl, Bool.or_eq_false_iff.mpr ⟨hop, hws⟩, hop'⟩

theorem run_writes (h : ops.any Op.ends = false) : run e r ops =
    { r with retCode := (last Op.code ops).getD r.retCode, data := (last Op.data ops).getD r.data } := by
  induction ops generalizing r with
  | nil => rfl
  | cons op ops ih =>
    obtain ⟨hop, hops⟩ := Bool.or_eq_false_iff.mp h
    change run e (apply e r op) ops = _
    rw [ih hops, last, last]
    cases op with
    | writeCode code => cases last Op.code ops <;> cases last Op.data ops <;> rfl
    | writeData data => cases last Op.code ops <;> cases last Op.data ops <;> rfl
    | endReply => cases hop
    | endCode code => cases hop
    | endData code data => cases hop

theorem send_of_none (h : r.client = none) : r.send e = r := by
  simp only [send, h]

theorem run_sent (h : r.client = none) :
    (run e r ops).client = none ∧ (run e r ops).handed = r.handed := by
  induction ops generalizing r with
  | nil => exact ⟨h, rfl⟩
  | cons op ops ih =>
    have hop : (apply e r op).client = none ∧ (apply e r op).handed = r.handed := by
      cases op with
      | writeCode code => exact ⟨h, rfl⟩
      | writeData data => exact ⟨h, rfl⟩
      | endReply =>
        have hsend : (r.writeCode 0).send e = r.writeCode 0 := send_of_none h
        rw [apply, endReply, hsend]
        exact ⟨h, rfl⟩
      | endCode code =>
        have hsend : (r.writeCode code).send e = r.writeCode code := send_of_none h
        rw [apply, endCode, hsend]
        exact ⟨h, rfl⟩
      | endData code data =>
        have hsend : ((r.writeCode code).writeData data).send e = (r.writeCode code).writeData data :=
          send_of_none h
        rw [apply, endData, hsend]
        exact ⟨h, rfl⟩
    obtain ⟨hclient, hhanded⟩ := ih hop.1
    exact ⟨hclient, hhanded.trans hop.2⟩

theorem send_of_some (h : r.client = some c) : (r.send e).client = none ∧
    (r.send e).handed = r.handed ++ (c.sendReply e r.callid r.retCode r.data).toList := by
  simp only [send, h]
  exact ⟨trivial, trivial⟩

theorem sendReply_eq_singleton {code code' : Word} {data data' : CapsPtr} :
    (c.sendReply e callid code data).toList = [.reply ⟨callid, code', data'⟩] ↔
      Fits e c (.reply ⟨callid, code', data'⟩) ∧ code = code' ∧ data = data' := by
  unfold ApiClient.sendReply Fits
  dsimp only
  constructor
  · intro h
    split at h
    · cases h
      exact ⟨‹_›, rfl, rfl⟩
    · cases h
  · rintro ⟨hfits, rfl, rfl⟩
    rw [if_pos hfits]
    rfl

/-- An `end` sends its own code, which is 0 for `end()`, whatever was written before. -/
theorem apply_end (h : r.client = some c) (hop : op.ends = true) : (apply e r op).client = none ∧
    (apply e r op).handed =
      r.handed ++ (c.sendReply e r.callid (op.code.getD 0) (op.data.getD r.data)).toList := by
  cases op with
  | writeCode code => cases hop
  | writeData data => cases hop
  | endReply => exact send_of_some (r := r.writeCode 0) h
  | endCode code => exact send_of_some (r := r.writeCode code) h
  | endData code data => exact send_of_some (r := (r.writeCode code).writeData data) h

theorem handed_of_writes (h : ops.any Op.ends = false) : (run e r ops).handed = r.handed := by
  rw [run_writes h]

theorem prefix_cases {bs : List Op} (h : bs <+: ws ++ op :: us) :
    bs <+: ws ∨ ∃ vs, bs = ws ++ op :: vs := by
  obtain hbs | ⟨vs, rfl⟩ := List.prefix_or_prefix_of_prefix h (List.prefix_append ws _)
  · exact .inl hbs
  · rw [List.prefix_append_right_inj] at h
    cases vs with
    | nil =>
      rw [List.append_nil]
      exact .inl List.prefix_rfl
    | cons v vs =>
      obtain ⟨rfl, -⟩ := List.cons_prefix_cons.mp h
      exact .inr ⟨vs, rfl⟩

theorem any_of_prefix {bs : List Op} (h : bs <+: ws) (hws : ws.any Op.ends = false) :
    bs.any Op.ends = false := by
  obtain ⟨vs, rfl⟩ := h
  rw [List.any_append] at hws
  exact (Bool.or_eq_false_iff.mp hws).1

theorem carries_of_writes (h : ops.any Op.ends = false) :
    Carries e c callid ops ↔ Fits e c (written callid ops) := by
  have hsent : ((run e { client := some c, callid } ops).destroy e).handed =
      [written callid ops] ↔ Fits e c (written callid ops) := by
    rw [destroy, run_writes h, (send_of_some rfl).2, List.nil_append, written, h,
      untilEnd_of_writes h, if_neg Bool.false_ne_true, sendReply_eq_singleton]
    exact and_iff_left ⟨rfl, rfl⟩
  rw [Carries, hsent]
  refine and_iff_right fun bs hbs => ?_
  have hno := any_of_prefix hbs h
  rw [handed_of_writes hno, hno, if_neg Bool.false_ne_true]

theorem any_of_end (ws us : List Op) (hop : op.ends = true) :
    (ws ++ op :: us).any Op.ends = true := by
  rw [List.any_append, List.any_cons, hop, Bool.true_or, Bool.or_true]

theorem run_end (hws : ws.any Op.ends = false) (hop : op.ends = true) (us : List Op) :
    (run e { client := some c, callid } (ws ++ op :: us)).client = none ∧
      (run e { client := some c, callid } (ws ++ op :: us)).handed =
        (c.sendReply e callid (op.code.getD 0)
          (op.data.getD ((last Op.data ws).getD none))).toList := by
  have hrun : run e { client := some c, callid } (ws ++ op :: us) =
      run e (apply e (run e { client := some c, callid } ws) op) us := by
    rw [run, List.foldl_append, List.foldl_cons]
    rfl
  have hopen : (run e { client := some c, callid } ws).client = some c := by rw [run_writes hws]
  obtain ⟨hclient, hhanded⟩ := apply_end (e := e) hopen hop
  rw [hrun]
  refine ⟨(run_sent hclient).1, ?_⟩
  rw [(run_sent hclient).2, hhanded, run_writes hws]
  rfl

theorem written_of_end (hws : ws.any Op.ends = false) (hop : op.ends = true) (us : List Op) :
    written callid (ws ++ op :: us) = .reply ⟨callid, (op.code.or (last Op.code ws)).getD 0,
      op.data.getD ((last Op.data ws).getD none)⟩ := by
  rw [written, any_of_end ws us hop, if_pos rfl, untilEnd_append hws hop, last_append, last_append]
  cases hdata : op.data <;> simp [last, hdata]

theorem destroyed_of_end (hws : ws.any Op.ends = false) (hop : op.ends = true) :
    ((run e { client := some c, callid } (ws ++ op :: us)).destroy e).handed =
        [written callid (ws ++ op :: us)] ↔
      Fits e c (written callid (ws ++ op :: us)) ∧
        op.code.getD 0 = (op.code.or (last Op.code ws)).getD 0 := by
  obtain ⟨hclient, hhanded⟩ := run_end (e := e) (c := c) hws hop us
  rw [destroy, send_of_none hclient, hhanded, written_of_end hws hop, sendReply_eq_singleton]
  exact and_congr_right fun _ => and_iff_left rfl

theorem carries_of_end (hws : ws.any Op.ends = false) (hop : op.ends = true) :
    Carries e c callid (ws ++ op :: us) ↔ Fits e c (written callid (ws ++ op :: us)) ∧
      op.code.getD 0 = (op.code.or (last Op.code ws)).getD 0 := by
  rw [← destroyed_of_end hws hop]
  refine and_iff_right_of_imp fun hsent bs hbs => ?_
  obtain ⟨hclient, hhanded⟩ := run_end (e := e) (c := c) hws hop us
  rw [destroy, send_of_none hclient, hhanded] at hsent
  obtain hbs | ⟨vs, rfl⟩ := prefix_cases hbs
  · have hno := any_of_prefix hbs hws
    rw [handed_of_writes hno, hno, if_neg Bool.false_ne_true]
  · rw [(run_end hws hop vs).2, any_of_end ws vs hop, if_pos rfl, hsent]

theorem not_overridden_of_writes (h : ops.any Op.ends = false) : ¬ Overridden ops := by
  rintro ⟨ws, us, code, rfl, -⟩
  rw [any_of_end ws us rfl] at h
  cases h

theorem not_overridden_iff (hws : ws.any Op.ends = false) (hop : op.ends = true) :
    ¬ Overridden (ws ++ op :: us) ↔ op.code.getD 0 = (op.code.or (last Op.code ws)).getD 0 := by
  -- the first `end` of a list of calls is unique
  have hfirst (h : Overridden (ws ++ op :: us)) :
      op = .endReply ∧ ∃ code, last Op.code ws = some code ∧ code ≠ 0 := by
    obtain ⟨ws', us', code, heq, hws', hcode, hne⟩ := h
    have huntil := congrArg untilEnd heq
    rw [untilEnd_append hws hop, untilEnd_append hws' rfl] at huntil
    obtain ⟨rfl, hop'⟩ := List.append_inj' huntil rfl
    cases hop'
    exact ⟨rfl, code, hcode, hne⟩
  cases hcode : op.code with
  | some code =>
    refine iff_of_true (fun h => ?_) rfl
    obtain ⟨rfl, -⟩ := hfirst h
    cases hcode
  | none =>
    have hend : op = .endReply := by
      cases op with
      | endReply => rfl
      | writeData data => cases hop
      | writeCode code => cases hop
      | endCode code => cases hcode
      | endData code data => cases hcode
    subst hend
    rw [Option.none_or, Option.getD_none]
    cases hlast : last Op.code ws with
    | none =>
      refine iff_of_true (fun h => ?_) rfl
      obtain ⟨-, code, hcode, -⟩ := hfirst h
      rw [hlast] at hcode
      cases hcode
    | some code =>
      rw [Option.getD_some]
      constructor
      · exact fun h => not_not.mp fun hne => h ⟨ws, us, code, rfl, hws, hlast, fun h0 => hne h0.symm⟩
      · intro hzero h
        obtain ⟨-, code', hcode', hne⟩ := hfirst h
        rw [hlast] at hcode'
        cases hcode'
        exact hne hzero.symm

theorem runC_eq (e : Env) (r : ReplyImpl) (ws : List CWrite) :
    runC r ws = run e r (ws.map CWrite.op) := by
  rw [runC, run, List.foldl_map]
  congr 1
  funext r w
  cases w <;> rfl

theorem any_map_op (ws : List CWrite) : (ws.map CWrite.op).any Op.ends = false := by
  rw [List.any_map, List.any_eq_false]
  intro w _
  cases w <;> exact Bool.false_ne_true

/-- A reply carries what was written exactly if it fits the send buffer and no code other than 0 is
followed by `end()`. The C API, which has no other `end`, is the same. -/
theorem reply_carries_iff (e : Env) (c : ApiClient) (callid : Word) :
    (∀ ops, Carries e c callid ops ↔
      Fits e c (written callid ops) ∧ ¬ Overridden ops) ∧
    ∀ ws, CarriesC e c callid ws ↔
      Fits e c (written callid (ws.map CWrite.op ++ [.endReply])) ∧
        ¬ Overridden (ws.map CWrite.op ++ [.endReply]) := by
  constructor
  · intro ops
    obtain hops | ⟨ws, op, us, rfl, hws, hop⟩ := ends_cases ops
    · rw [carries_of_writes hops]
      exact (and_iff_left (not_overridden_of_writes hops)).symm
    · rw [carries_of_end hws hop, not_overridden_iff hws hop]
  · intro ws
    have hws := any_map_op ws
    rw [CarriesC, runC_eq e, handed_of_writes hws, not_overridden_iff hws rfl,
      ← destroyed_of_end hws rfl]
    have hend : floraCallReplyEnd e (run e { client := some c, callid } (ws.map CWrite.op)) =
        (run e { client := some c, callid } (ws.map CWrite.op ++ [.endReply])).destroy e := by
      rw [floraCallReplyEnd, run, run, List.foldl_append]
      rfl
    rw [hend]
    exact and_iff_right rfl

def sampleReplier : ApiClient := { flags := 0, bufsize := 32768, serializeFlags := .host }

/-- A method that fails writes its code and ends the reply: the caller sees code 0. -/
theorem reply_carries_fails_code : ¬ ∀ (e : Env) (c : ApiClient) (callid : Word) (ops : List Op),
    Carries e c callid ops := by
  intro h
  have hcarries := h Dispatcher.sampleEnv sampleReplier 7 [.writeCode 5, .endReply]
  have hsent : ([.reply ⟨7, 0, none⟩] : List ClientMessage) = [.reply ⟨7, 5, none⟩] := hcarries.2
  cases hsent

end ReplyImpl

end Flora
