import Flora.Dispatcher.Rejections

/-! # Accepted requests

When the handler of a request from a sender with a record returns true: the name is not empty, a
declared method is new, the records that are read exist, and the response to a call has room. -/

namespace Flora

namespace Dispatcher

variable {e : Env} {d d' : Dispatcher} {caps : Caps} {sender : AdapterId} {info : AdapterInfo}

/-- What a handler returns; `none` stands for a read of a record that is gone. -/
def outcome (result : Option (Dispatcher × Bool)) : Option Bool := result.map (·.2)

@[simp] theorem outcome_some (d : Dispatcher) (ok : Bool) : outcome (some (d, ok)) = some ok := rfl

theorem outcome_map (result : Option Dispatcher) (f : Dispatcher → Dispatcher) :
    outcome (result.map fun d => (f d, true)) = some true ↔ result.isSome = true := by
  cases result <;> simp [outcome]

/-- The common end of the handlers that answer: the response is written if it has room. -/
theorem outcome_ite {fits : Bool} {written : Option Dispatcher} (h : written.isSome = true) :
    outcome (if fits then written.map (·, true) else some (d, false)) = some true ↔
      fits = true := by
  cases fits with
  | false => simp
  | true => exact iff_of_true ((outcome_map written id).mpr h) rfl

theorem nameReadable_of_deref {a : AdapterId} (h : (d.deref a).isSome = true) :
    d.nameReadable a = true := by
  simp [nameReadable, h]

theorem writeLogged_isSome {a : AdapterId} {order : ByteOrder} {answers : Option Answer}
    {readers : List AdapterId} (h : ∀ r ∈ readers, (d.deref r).isSome = true) :
    (d.writeLogged e a order caps answers readers).isSome = true := by
  have hall : readers.all (nameReadable d) = true :=
    List.all_eq_true.mpr fun r hr => nameReadable_of_deref (h r hr)
  rw [writeLogged, if_neg fun hboth => hboth.2 hall]
  rfl

theorem nameRequest_of_deref {parse : Caps → Option String} {name : String}
    (body : String → AdapterInfo → Option (Dispatcher × Bool)) (hderef : d.deref sender = some info)
    (hparse : parse caps = some name) : nameRequest parse body caps sender d =
      if name.length = 0 then some (d, false) else body name info := by
  rw [nameRequest, if_neg (info_of_deref hderef), hparse, hderef]
  rfl

/-- Of the requests that carry one name, those with a name are accepted as their body is. -/
theorem outcome_nameRequest {parse : Caps → Option String} {name : String}
    (body : String → AdapterInfo → Option (Dispatcher × Bool)) (hderef : d.deref sender = some info)
    (hparse : parse caps = some name) : outcome (nameRequest parse body caps sender d) = some true ↔
      name ≠ "" ∧ outcome (body name info) = some true := by
  rw [nameRequest_of_deref body hderef hparse]
  split
  · rename_i hlen
    simp [String.length_eq_zero_iff.mp hlen]
  · rename_i hlen
    have hne : name ≠ "" := fun heq => hlen (String.length_eq_zero_iff.mpr heq)
    simp [hne]

theorem replayPersist_isSome (name : String) (h : (d.deref sender).isSome = true) :
    (replayPersist e name sender d).isSome = true := by
  unfold replayPersist
  split
  · rfl
  · dsimp only
    split
    · exact writeLogged_isSome (by simpa using h)
    · rfl

theorem subscribe_accepted_iff {name : String} (hderef : d.deref sender = some info)
    (hparse : RequestParser.parseSubscribe caps = some name) :
    outcome (handleSubscribeReq e caps sender d) = some true ↔ name ≠ "" := by
  rw [handleSubscribeReq, outcome_nameRequest _ hderef hparse]
  refine and_iff_left ?_
  split
  · rfl
  · refine (outcome_map _ id).mpr (replayPersist_isSome name ?_)
    change (d.deref sender).isSome = true
    rw [hderef]
    rfl

theorem unsubscribe_accepted_iff {name : String} (hderef : d.deref sender = some info)
    (hparse : RequestParser.parseUnsubscribe caps = some name) :
    outcome (handleUnsubscribeReq caps sender d) = some true ↔ name ≠ "" := by
  rw [handleUnsubscribeReq, outcome_nameRequest _ hderef hparse]
  refine and_iff_left ?_
  split <;> rfl

theorem declareMethod_accepted_iff {name : String} (hderef : d.deref sender = some info)
    (hparse : RequestParser.parseDeclareMethod caps = some name) :
    outcome (handleDeclareMethod caps sender d) = some true ↔
      name ≠ "" ∧ info.hasMethod name = false := by
  rw [handleDeclareMethod, outcome_nameRequest _ hderef hparse]
  refine and_congr_right fun _ => ?_
  rw [outcome_some, AdapterInfo.declareMethod, AdapterInfo.hasMethod]
  split
  · rename_i hmem
    simp [hmem]
  · rename_i hmem
    simp [hmem]

theorem removeMethod_accepted_iff {name : String} (hderef : d.deref sender = some info)
    (hparse : RequestParser.parseRemoveMethod caps = some name) :
    outcome (handleRemoveMethod caps sender d) = some true ↔ name ≠ "" := by
  rw [handleRemoveMethod, outcome_nameRequest _ hderef hparse]
  exact and_iff_left rfl

/-- The loop of `write_post_msg_to_adapters` reads the records of all adapters it writes to. -/
theorem foldlM_writePostMsgTo_isSome {order : ByteOrder} {adapters : List AdapterId}
    (halive : ∀ a ∈ adapters, d.alive a = true) :
    (adapters.foldlM (writePostMsgTo e order caps) d).isSome = true ↔
      ∀ a ∈ adapters, (d.deref a).isSome = true := by
  induction adapters generalizing d with
  | nil => simp
  | cons a adapters ih =>
    have ha := halive a List.mem_cons_self
    rw [List.foldlM_cons, List.forall_mem_cons]
    cases hderef : d.deref a with
    | none => simp [writePostMsgTo, ha, hderef]
    | some info =>
      obtain ⟨d₁, hd₁⟩ : ∃ d₁, writePostMsgTo e order caps d a = some d₁ := by
        rw [writePostMsgTo, if_pos ha, hderef]
        exact Option.isSome_iff_exists.mp (writeLogged_isSome (by simp [hderef]))
      obtain ⟨ws, hws, _⟩ := writePostMsgTo_spec ha hd₁
      have hrest := ih (d := d₁) fun b hb => by
        rw [alive, hws.destroyed]
        exact halive b (List.mem_cons_of_mem a hb)
      simp only [hws.deref] at hrest
      rw [hd₁]
      exact hrest.trans (by simp)

theorem writePostMsgToAdapters_isSome {order : ByteOrder} {adapters : List AdapterId}
    (halive : ∀ a ∈ adapters, d.alive a = true) :
    (writePostMsgToAdapters e order caps adapters d).isSome = true ↔
      (e.fits order caps = true → ∀ a ∈ adapters, (d.deref a).isSome = true) := by
  unfold writePostMsgToAdapters
  split
  · rename_i hfits
    rw [foldlM_writePostMsgTo_isSome halive]
    simp [hfits]
  · rename_i hfits
    simp [hfits]

/-- The live subscribers that are written to still have their records. -/
def SubscribersKnown (e : Env) (d : Dispatcher) (name : String) (resp : Caps) : Prop :=
  ∀ a ∈ d.subscribers name, e.fits (d.adapters a).serializeFlags resp = true →
    (d.deref a).isSome = true

theorem deliverPost_isSome (name : String) (resp : Caps) :
    (deliverPost e name resp d).isSome = true ↔ SubscribersKnown e d name resp := by
  unfold deliverPost
  split
  · rename_i hnone
    simp [SubscribersKnown, subscribers, hnone]
  · rename_i adapters hsome
    have hsubs : adapters.filter d.live = d.subscribers name := by
      rw [subscribers, hsome]
      rfl
    have halive : ∀ a ∈ d.subscribers name, d.alive a = true := fun a ha =>
      alive_of_live (List.mem_filter.mp ha).2
    dsimp only
    rw [hsubs]
    have hhost : (writePostMsgToAdapters e .host resp ((d.subscribers name).filter fun a =>
        !((d.adapters a).serializeFlags == .net)) d).isSome = true ↔ (e.fits .host resp = true →
          ∀ a ∈ (d.subscribers name).filter fun a => !((d.adapters a).serializeFlags == .net),
            (d.deref a).isSome = true) :=
      writePostMsgToAdapters_isSome fun a ha => halive a (List.mem_filter.mp ha).1
    cases hres : writePostMsgToAdapters e .host resp
        ((d.subscribers name).filter fun a => !((d.adapters a).serializeFlags == .net)) d with
    | none =>
      rw [hres] at hhost
      constructor
      · exact fun h => absurd h (by simp)
      · intro hknown
        exact absurd (hhost.mpr fun hfits a ha => by
          obtain ⟨hmem, horder⟩ := List.mem_filter.mp ha
          refine hknown a hmem ?_
          cases hflags : (d.adapters a).serializeFlags with
          | host => exact hfits
          | net => simp [hflags] at horder) (by simp)
    | some d₁ =>
      rw [hres] at hhost
      obtain ⟨ws, hws, _⟩ :=
        writePostMsgToAdapters_spec (fun a ha => halive a (List.mem_filter.mp ha).1) hres
      have halive₁ : ∀ a ∈ (d.subscribers name).filter fun a => (d.adapters a).serializeFlags == .net,
          d₁.alive a = true := by
        intro a ha
        rw [alive, hws.destroyed]
        exact halive a (List.mem_filter.mp ha).1
      rw [Option.bind_some, Option.isSome_map, writePostMsgToAdapters_isSome halive₁]
      simp only [hws.deref]
      have hfirst := hhost.mp rfl
      constructor
      · intro hsecond a ha hfits
        cases hflags : (d.adapters a).serializeFlags with
        | host =>
          rw [hflags] at hfits
          exact hfirst hfits a (List.mem_filter.mpr ⟨ha, by simp [hflags]⟩)
        | net =>
          rw [hflags] at hfits
          exact hsecond hfits a (List.mem_filter.mpr ⟨ha, by simp [hflags]⟩)
      · intro hknown hfits a ha
        obtain ⟨hmem, horder⟩ := List.mem_filter.mp ha
        refine hknown a hmem ?_
        rw [beq_iff_eq] at horder
        rw [horder]
        exact hfits

theorem post_accepted_iff {req : PostReq} (hderef : d.deref sender = some info)
    (hparse : RequestParser.parsePost caps = some req) (htype : isValidMsgtype req.msgtype = true) :
    outcome (handlePostReq e caps sender d) = some true ↔
      req.name ≠ "" ∧ SubscribersKnown e d req.name (postResp sender d req info) := by
  rw [handlePostReq, if_neg (info_of_deref hderef), hparse]
  simp only [postMsg, htype, hderef, Bool.not_true, Bool.false_eq_true, if_false, Option.bind_some]
  split
  · rename_i hlen
    simp [String.length_eq_zero_iff.mp hlen]
  · rename_i hlen
    have hne : req.name ≠ "" := fun heq => hlen (String.length_eq_zero_iff.mpr heq)
    rw [outcome_map, deliverPost_isSome]
    simp only [hne, ne_eq, not_false_eq_true, true_and]
    rfl

/-- The response to a call has room: the `CMD_CALL_RESP` to the client that has the method, or the
`CMD_REPLY_RESP` that tells the caller that there is none. A named target has its record. -/
def CallAnswerable (e : Env) (d : Dispatcher) (sender : AdapterId) (req : CallReq)
    (info : AdapterInfo) : Prop :=
  match findMethod req.target req.name d with
  | none => False
  | some none => e.fits (d.adapters sender).serializeFlags
      (ResponseSerializer.serializeReply req.id cliEnexists none 0) = true
  | some (some target) =>
    e.fits (d.adapters target).serializeFlags (callResp d sender req info) = true

theorem handleCallReq_of_missing (e : Env) (now : Nat) {req : CallReq}
    (hparse : RequestParser.parseCall caps = some req) (hderef : d.deref sender = some info)
    (hfound : findMethod req.target req.name d = some none) :
    handleCallReq e now caps sender d =
      if e.fits (d.adapters sender).serializeFlags
          (ResponseSerializer.serializeReply req.id cliEnexists none 0) then
        ((refuseCall sender req d).writeLogged e sender (d.adapters sender).serializeFlags
          (ResponseSerializer.serializeReply req.id cliEnexists none 0)
          (some ⟨d.calls.length, .refused⟩) [sender]).map (·, true)
      else some (refuseCall sender req d, false) := by
  rw [handleCallReq, if_neg (info_of_deref hderef), hparse]
  simp only [hderef, hfound, Option.bind_some]
  rfl

theorem call_answered_iff {now : Nat} {req : CallReq} (hderef : d.deref sender = some info)
    (hparse : RequestParser.parseCall caps = some req) :
    outcome (handleCallReq e now caps sender d) = some true ↔ CallAnswerable e d sender req info := by
  have hsender : (d.deref sender).isSome = true := by rw [hderef]; rfl
  unfold CallAnswerable
  cases hfound : findMethod req.target req.name d with
  | none =>
    have hundefined : handleCallReq e now caps sender d = none := by
      rw [handleCallReq, if_neg (info_of_deref hderef), hparse]
      simp only [hderef, hfound, Option.bind_some, Option.bind_none]
    simp [hundefined, outcome]
  | some found =>
    cases found with
    | none =>
      rw [handleCallReq_of_missing e now hparse hderef hfound]
      refine outcome_ite (writeLogged_isSome fun r hr => ?_)
      rw [List.mem_singleton.mp hr]
      exact hsender
    | some target =>
      rw [handleCallReq_of_found e now hparse hderef hfound]
      refine outcome_ite (writeLogged_isSome fun r hr => ?_)
      obtain rfl | rfl : r = sender ∨ r = target := by simpa using hr
      · exact hsender
      · exact deref_of_findMethod hfound

end Dispatcher

end Flora
