import Flora.Dispatcher.Subscriptions
import Flora.Dispatcher.Records

/-! # What the service holds for one connection

The names a connection has subscribed to and the methods it has declared, as the four requests of
an agent change them. The dispatcher's tables, seen from one live adapter, change in this way. -/

namespace Flora

/-- The two handler maps of an agent, and the requests about them. -/
inductive Kind where
  | post
  | call
  deriving DecidableEq, Repr

/-- `subscribe` and `declare_method` add a name, `unsubscribe` and `remove_method` take it away. -/
structure Request where
  kind : Kind
  add : Bool
  name : String
  deriving DecidableEq, Repr

def Kind.cmd : Kind → Bool → Word
  | .post, true => cmdSubscribeReq
  | .post, false => cmdUnsubscribeReq
  | .call, true => cmdDeclareMethodReq
  | .call, false => cmdRemoveMethodReq

theorem Kind.cmd_lt (kind : Kind) (add : Bool) : (kind.cmd add).toInt < msgHandlerCount := by
  cases kind <;> cases add <;> decide

namespace Request

def cmd (r : Request) : Word := r.kind.cmd r.add

def caps (r : Request) : Caps :=
  match r.kind, r.add with
  | .post, true => RequestSerializer.serializeSubscribe r.name
  | .post, false => RequestSerializer.serializeUnsubscribe r.name
  | .call, true => RequestSerializer.serializeDeclareMethod r.name
  | .call, false => RequestSerializer.serializeRemoveMethod r.name

theorem caps_eq (r : Request) : r.caps = [.i32 r.cmd, .str r.name] := by
  obtain ⟨kind, add, name⟩ := r
  cases kind <;> cases add <;> rfl

end Request

structure View where
  subscribed : List String := []
  declared : List String := []

namespace View

def names (v : View) : Kind → List String
  | .post => v.subscribed
  | .call => v.declared

def set (v : View) (kind : Kind) (names : List String) : View :=
  match kind with
  | .post => { v with subscribed := names }
  | .call => { v with declared := names }

/-- A request is handled, or it makes the service close the connection: an empty name does, and
so does a method that is declared already. -/
def handle (v : View) (r : Request) : Option View :=
  if r.name.length = 0 then none
  else if r.add then
    if r.kind = .call ∧ r.name ∈ v.declared then none
    else some (v.set r.kind (PubSub.enter r.name (v.names r.kind)))
  else some (v.set r.kind ((v.names r.kind).filter (· ≠ r.name)))

theorem names_set (v : View) (kind kind' : Kind) (names : List String) :
    (v.set kind names).names kind' = if kind = kind' then names else v.names kind' := by
  cases kind <;> cases kind' <;> rfl

theorem handle_cases (v : View) (r : Request) :
    (v.handle r = none ∧ (r.name = "" ∨ r.add = true ∧ r.kind = .call ∧ r.name ∈ v.declared)) ∨
    (r.name ≠ "" ∧ r.add = true ∧ (r.kind = .call → r.name ∉ v.declared) ∧
      v.handle r = some (v.set r.kind (PubSub.enter r.name (v.names r.kind)))) ∨
    (r.name ≠ "" ∧ r.add = false ∧
      v.handle r = some (v.set r.kind ((v.names r.kind).filter (· ≠ r.name)))) := by
  have hlen : r.name.length = 0 ↔ r.name = "" := by simp
  unfold handle
  by_cases hname : r.name.length = 0
  · rw [if_pos hname]
    exact .inl ⟨rfl, .inl (hlen.mp hname)⟩
  · rw [if_neg hname]
    rw [hlen] at hname
    cases hadd : r.add with
    | false => exact .inr (.inr ⟨hname, rfl, rfl⟩)
    | true =>
      rw [if_pos rfl]
      split
      · rename_i hdup
        exact .inl ⟨rfl, .inr ⟨rfl, hdup⟩⟩
      · rename_i hdup
        exact .inr (.inl ⟨hname, rfl, fun hkind hmem => hdup ⟨hkind, hmem⟩, rfl⟩)

theorem mem_names_handle {v v' : View} {r : Request} (h : v.handle r = some v') (kind : Kind)
    (name : String) : name ∈ v'.names kind ↔
      if r.kind = kind ∧ r.name = name then r.add = true else name ∈ v.names kind := by
  obtain ⟨hnone, _⟩ | ⟨_, hadd, _, hsome⟩ | ⟨_, hadd, hsome⟩ := handle_cases v r
  · cases hnone.symm.trans h
  · cases hsome.symm.trans h
    rw [names_set]
    by_cases hkind : r.kind = kind
    · subst hkind
      rw [if_pos rfl, PubSub.mem_enter]
      by_cases hname : r.name = name
      · simp [hname, hadd]
      · simp [hname, Ne.symm hname]
    · simp [hkind]
  · cases hsome.symm.trans h
    rw [names_set]
    by_cases hkind : r.kind = kind
    · subst hkind
      rw [if_pos rfl, List.mem_filter]
      by_cases hname : r.name = name
      · simp [hname, hadd]
      · simp [hname, Ne.symm hname]
    · simp [hkind]

end View

namespace Dispatcher

variable {e : Env} {d d' : Dispatcher} {a : AdapterId} {v : View} {r : Request} {now done : Nat}

/-- The dispatcher holds `v` for the adapter `a`. -/
structure Holds (d : Dispatcher) (a : AdapterId) (v : View) : Prop where
  subscribed : ∀ n, n ∈ v.subscribed ↔ a ∈ d.subscribers n
  declared : ∃ info, d.deref a = some info ∧ ∀ n, n ∈ v.declared ↔ n ∈ info.declaredMethods

theorem request_caps (hgate : isMonitor a d = some false) :
    d.request r.cmd r.caps a = some [.str r.name] := by
  rw [request, if_pos hgate, r.caps_eq]
  exact if_pos rfl

theorem step_request (hgate : isMonitor a d = some false)
    (h : step e d (.msg r.caps a now done) = some d') :
    ∃ d₁ ok, msgHandler e now r.cmd.toInt [.str r.name] a d = some (d₁, ok) ∧
      d' = { (if ok then d₁ else d₁.close a) with handleCmdTp := done } := by
  obtain ⟨_, hnone⟩ | ⟨cmd, rest, d₁, ok, hreq, hh, rfl⟩ := handleMsg_request (step_msg h).2
  · cases (hnone r.cmd (r.kind.cmd_lt r.add)).symm.trans (request_caps hgate)
  · have hread := readWord_of_request hreq
    rw [r.caps_eq] at hread
    cases hread
    exact ⟨d₁, ok, hh, rfl⟩

theorem requestedName_str {parse : Caps → Option String} {info : AdapterInfo}
    (hderef : d.deref a = some info) (hparse : parse [.str r.name] = some r.name) :
    requestedName parse [.str r.name] a d = if r.name = "" then none else some r.name := by
  have hinfo : (d.adapters a).info ≠ none := by
    intro hnone
    simp [deref, hnone] at hderef
  rw [requestedName, if_neg hinfo, hparse]
  simp

theorem pubSubEvent_request (hgate : isMonitor a d = some false) {info : AdapterInfo}
    (hderef : d.deref a = some info) : d.pubSubEvent (.msg r.caps a now done) =
      if r.kind = .post ∧ r.name ≠ "" then
        if r.add then .subscribe r.name a else .unsubscribe r.name a
      else .silent := by
  have hrequest (cmd : Word) : d.request cmd r.caps a =
      if cmd = r.cmd then some [.str r.name] else none := by
    split
    · rename_i hcmd
      rw [hcmd]
      exact request_caps hgate
    · rename_i hcmd
      exact request_unique (request_caps hgate) hcmd
  have hsub : requestedName RequestParser.parseSubscribe [.str r.name] a d =
      if r.name = "" then none else some r.name := requestedName_str hderef rfl
  have hunsub : requestedName RequestParser.parseUnsubscribe [.str r.name] a d =
      if r.name = "" then none else some r.name := requestedName_str hderef rfl
  simp only [pubSubEvent, hrequest]
  have hcmds : cmdSubscribeReq ≠ cmdUnsubscribeReq ∧ cmdSubscribeReq ≠ cmdDeclareMethodReq ∧
      cmdSubscribeReq ≠ cmdRemoveMethodReq ∧ cmdUnsubscribeReq ≠ cmdDeclareMethodReq ∧
      cmdUnsubscribeReq ≠ cmdRemoveMethodReq := by decide
  obtain ⟨kind, add, name⟩ := r
  by_cases hname : name = ""
  · subst hname
    cases kind <;> cases add <;> simp [Request.cmd, Kind.cmd, hcmds, hcmds.1.symm, hsub, hunsub]
  · cases kind <;> cases add <;>
      simp [Request.cmd, Kind.cmd, hcmds, hsub, hunsub, hname]

theorem mem_subscribers_request (hd : (system e).Reachable d) (hgate : isMonitor a d = some false)
    {info : AdapterInfo} (hderef : d.deref a = some info)
    (h : step e d (.msg r.caps a now done) = some d') (hlive : d'.live a = true) (n : String) :
    a ∈ d'.subscribers n ↔
      if r.kind = .post ∧ r.name = n ∧ r.name ≠ "" then r.add = true else a ∈ d.subscribers n := by
  have htopics := (step_effect h).topics ⟨d.subscribers, subscribers_nodup hd⟩ rfl
  rw [htopics]
  change a ∈ List.filter _ _ ↔ _
  rw [List.mem_filter, and_iff_left hlive, pubSubEvent_request hgate hderef]
  by_cases hpost : r.kind = .post ∧ r.name ≠ ""
  · rw [if_pos hpost]
    cases hadd : r.add with
    | true =>
      rw [if_pos rfl, PubSub.Topics.apply_subscribe]
      by_cases hn : n = r.name
      · subst hn
        simp [hpost, PubSub.mem_enter]
      · simp [hn, Ne.symm hn]
    | false =>
      rw [if_neg Bool.false_ne_true, PubSub.Topics.apply_unsubscribe]
      by_cases hn : n = r.name
      · subst hn
        simp [hpost]
      · simp [hn, Ne.symm hn]
  · rw [if_neg hpost, if_neg fun hall => hpost ⟨hall.1, hall.2.2⟩]
    rfl

theorem deref_setInfo {info info' : AdapterInfo} (h : d.deref a = some info) :
    (d.setInfo a info').deref a = some info' := by
  unfold deref at h
  split at h
  · cases h
  · rename_i href
    simp [deref, setInfo, href]
  · rename_i href
    simp [deref, setInfo, href]

theorem msgHandler_request {info : AdapterInfo} {d₁ : Dispatcher} {ok : Bool}
    (hderef : d.deref a = some info)
    (h : msgHandler e now r.cmd.toInt [.str r.name] a d = some (d₁, ok)) :
    (ok = false ↔ r.name = "" ∨ r.add = true ∧ r.kind = .call ∧ r.name ∈ info.declaredMethods) ∧
    ∃ info', d₁.deref a = some info' ∧ ∀ n, n ∈ info'.declaredMethods ↔
      if r.kind = .call ∧ r.name = n ∧ r.name ≠ "" then r.add = true
      else n ∈ info.declaredMethods := by
  have hempty {parse : Caps → Option String} (hparse : parse [.str r.name] = some r.name)
      (hnone : requestedName parse [.str r.name] a d = none) : r.name = "" := by
    rw [requestedName_str hderef hparse] at hnone
    simpa using hnone
  have hname {parse : Caps → Option String} (hparse : parse [.str r.name] = some r.name)
      {name : String} (hsome : requestedName parse [.str r.name] a d = some name) :
      r.name ≠ "" ∧ name = r.name := by
    rw [requestedName_str hderef hparse] at hsome
    split at hsome
    · cases hsome
    · exact ⟨‹_›, (Option.some.inj hsome).symm⟩
  obtain ⟨kind, add, name⟩ := r
  cases kind with
  | post =>
    have hkeep (hsame : d₁.deref a = d.deref a) : ∃ info', d₁.deref a = some info' ∧
        ∀ n, n ∈ info'.declaredMethods ↔ if Kind.post = .call ∧ name = n ∧ name ≠ "" then add = true
          else n ∈ info.declaredMethods := by
      refine ⟨info, hsame.trans hderef, fun n => ?_⟩
      rw [if_neg fun hall => nomatch hall.1]
    cases add with
    | true =>
      have h : handleSubscribeReq e [.str name] a d = some (d₁, ok) := h
      obtain ⟨hnone, rfl, rfl⟩ | ⟨name', hsome, rfl, ⟨_, rfl⟩ | ⟨_, ws, hws, _⟩⟩ :=
        handleSubscribeReq_spec h
      · have hnil : name = "" := hempty rfl hnone
        exact ⟨by simp [hnil], hkeep rfl⟩
      · have hne : name ≠ "" := (hname rfl hsome).1
        exact ⟨by simp [hne], hkeep rfl⟩
      · have hne : name ≠ "" := (hname rfl hsome).1
        exact ⟨by simp [hne], hkeep (hws.deref a)⟩
    | false =>
      have h : handleUnsubscribeReq [.str name] a d = some (d₁, ok) := h
      obtain ⟨hnone, rfl, rfl⟩ | ⟨name', hsome, rfl, ⟨_, rfl⟩ | ⟨adapters, _, rfl⟩⟩ :=
        handleUnsubscribeReq_spec h
      · have hnil : name = "" := hempty rfl hnone
        exact ⟨by simp [hnil], hkeep rfl⟩
      · have hne : name ≠ "" := (hname rfl hsome).1
        exact ⟨by simp [hne], hkeep rfl⟩
      · have hne : name ≠ "" := (hname rfl hsome).1
        exact ⟨by simp [hne], hkeep rfl⟩
  | call =>
    cases add with
    | true =>
      have h : handleDeclareMethod [.str name] a d = some (d₁, ok) := h
      obtain ⟨hnone, rfl, rfl⟩ | ⟨name', info', hsome, hderef', hbody⟩ := nameRequest_spec h
      · have hnil : name = "" := hempty rfl hnone
        exact ⟨by simp [hnil], info, hderef, fun n => by simp [hnil]⟩
      · obtain ⟨hne, heq⟩ : name ≠ "" ∧ name' = name := hname rfl hsome
        subst name'
        cases hderef.symm.trans hderef'
        cases hbody
        refine ⟨?_, _, deref_setInfo hderef, fun n => ?_⟩
        · rw [AdapterInfo.declareMethod_refuses]
          simp [hne]
        · rw [AdapterInfo.mem_declareMethod]
          by_cases hn : name = n
          · simp [← hn, hne]
          · simp [hn, Ne.symm hn]
    | false =>
      have h : handleRemoveMethod [.str name] a d = some (d₁, ok) := h
      obtain ⟨hnone, rfl, rfl⟩ | ⟨name', info', hsome, hderef', hbody⟩ := nameRequest_spec h
      · have hnil : name = "" := hempty rfl hnone
        exact ⟨by simp [hnil], info, hderef, fun n => by simp [hnil]⟩
      · obtain ⟨hne, heq⟩ : name ≠ "" ∧ name' = name := hname rfl hsome
        subst name'
        cases hderef.symm.trans hderef'
        cases hbody
        refine ⟨by simp [hne], _, deref_setInfo hderef, fun n => ?_⟩
        rw [AdapterInfo.mem_removeMethod]
        by_cases hn : name = n
        · simp [← hn, hne]
        · simp [hn, Ne.symm hn]

/-- Handling a request of `a` changes what the dispatcher holds for `a` as the view says, or closes
the connection. -/
theorem Holds.request (hv : d.Holds a v) (hd : (system e).Reachable d)
    (hgate : isMonitor a d = some false) (h : step e d (.msg r.caps a now done) = some d') :
    match v.handle r with
    | some v' => d'.live a = true → d'.Holds a v'
    | none => d'.live a = false := by
  obtain ⟨info, hderef, hdeclared⟩ := hv.declared
  obtain ⟨d₁, ok, hh, hd'⟩ := step_request hgate h
  obtain ⟨hok, info', hderef', hmethods⟩ := msgHandler_request hderef hh
  have hkept : d'.deref a = some info' := by
    rw [hd', ← hderef']
    cases ok
    · exact deref_close d₁ a a
    · rfl
  have hsome {v' : View} (hhandle : v.handle r = some v') (hne : r.name ≠ "") (hlive : d'.live a = true) :
      d'.Holds a v' := by
    refine ⟨fun n => ?_, info', hkept, fun n => ?_⟩
    · rw [show v'.subscribed = v'.names .post from rfl, View.mem_names_handle hhandle,
        mem_subscribers_request hd hgate hderef h hlive, ← hv.subscribed n]
      simp only [hne, ne_eq, not_false_eq_true, and_true]
      rfl
    · rw [show v'.declared = v'.names .call from rfl, View.mem_names_handle hhandle, hmethods,
        ← hdeclared n]
      simp only [hne, ne_eq, not_false_eq_true, and_true]
      rfl
  obtain ⟨hnone, hwhy⟩ | ⟨hne, _, _, hhandle⟩ | ⟨hne, _, hhandle⟩ := v.handle_cases r
  · rw [hnone]
    have hfalse : ok = false := by
      rw [hok]
      simpa only [hdeclared] using hwhy
    rw [hd', hfalse]
    change (d₁.close a).live a = false
    rw [Bool.eq_false_iff]
    exact fun hlive => (live_close.mp hlive).2 rfl
  · rw [hhandle]
    exact hsome hhandle hne
  · rw [hhandle]
    exact hsome hhandle hne

theorem pubSubEvent_other {act : Action} (hact : ¬ act.isOf a) (n : String) :
    d.pubSubEvent act ≠ .subscribe n a ∧ d.pubSubEvent act ≠ .unsubscribe n a := by
  cases act with
  | msg caps sender now done =>
    have hne : sender ≠ a := hact
    simp only [pubSubEvent]
    split
    · simp [hne]
    · split
      · simp [hne]
      · simp
  | erase | expire | close | destroy => simp [pubSubEvent]

/-- What the dispatcher holds for `a` does not change with the steps of others, as long as `a` is
not closed. -/
theorem Holds.other {act : Action} (hv : d.Holds a v) (hd : (system e).Reachable d)
    (hact : ¬ act.isOf a) (h : step e d act = some d') (hlive : d'.live a = true) :
    d'.Holds a v := by
  refine ⟨fun n => ?_, ?_⟩
  · rw [hv.subscribed n, (step_effect h).topics ⟨d.subscribers, subscribers_nodup hd⟩ rfl]
    change _ ↔ a ∈ List.filter _ _
    rw [List.mem_filter, and_iff_left hlive, PubSub.Topics.mem_apply_of_ne _ (pubSubEvent_other hact)]
  · rw [deref_step hact h]
    exact hv.declared

end Dispatcher

end Flora
