import Flora.Dispatcher.Rejections
import Mathlib.Algebra.GroupWithZero.Nat

/-! # Room for relayed messages

The service admits a request by its own length, and relays it with the sender's tag and name added
and, in a call, the target and the timeout left out. Whether the relayed message has room is
another question; for sizes that add up over the members it is a bound on the request's length. -/

namespace Flora

namespace Env

/-- The longest message the serializers return: a non-negative `int32_t` within the buffer. -/
def room (e : Env) : Nat := min e.bufSize (2 ^ 31 - 1)

theorem fits_iff {e : Env} {order : ByteOrder} {caps : Caps} :
    e.fits order caps = true ↔ e.capsSize order caps ≤ e.room := by
  simp only [fits, room, decide_eq_true_eq]
  omega

/-- The size of a container is that of a header and of its members. -/
structure AdditiveSize (e : Env) where
  header : Nat
  member : CapsValue → Nat
  size_eq : ∀ order caps, e.capsSize order caps = header + (caps.map member).sum

end Env

namespace Dispatcher

variable {e : Env} {d d' : Dispatcher} {caps : Caps} {sender : AdapterId} {ok : Bool}

/-- The `CMD_REPLY_RESP` that `handle_reply_req` makes for a pending call. -/
def replyResp (d : Dispatcher) (sender : AdapterId) (req : ReplyReq) (info : AdapterInfo)
    (pc : PendingCall) : Caps :=
  ResponseSerializer.serializeReply pc.cliid cliSuccess (some ⟨req.code, req.values, info.name⟩)
    (d.adapters sender).tag

theorem mem_postFrames_iff {name : String} {a : AdapterId} (ha : a ∈ d.subscribers name)
    (resp : Caps) : (∃ r ∈ postFrames e d name resp, r.1 = a) ↔
      e.fits (d.adapters a).serializeFlags resp = true := by
  constructor
  · rintro ⟨r, hr, rfl⟩
    have group {order : ByteOrder} {p : AdapterId → Bool} (hr : r ∈ ((d.subscribers name).filter
        p).flatMap fun a => frame e a order resp none) :
        p r.1 = true ∧ e.fits order resp = true := by
      obtain ⟨b, hb, hr⟩ := List.mem_flatMap.mp hr
      by_cases hfits : e.fits order resp = true
      · rw [mem_frame hr]
        exact ⟨(List.mem_filter.mp hb).2, hfits⟩
      · rw [frame_of_not_fits hfits] at hr
        cases hr
    obtain hr | hr := List.mem_append.mp hr
    · obtain ⟨horder, hfits⟩ := group hr
      cases hflags : (d.adapters r.1).serializeFlags with
      | host => exact hfits
      | net => simp [hflags] at horder
    · obtain ⟨horder, hfits⟩ := group hr
      rw [beq_iff_eq] at horder
      rw [horder]
      exact hfits
  · intro hfits
    refine ⟨(a, (d.adapters a).serializeFlags, resp, none), ?_, rfl⟩
    cases hflags : (d.adapters a).serializeFlags with
    | host =>
      rw [hflags] at hfits
      refine List.mem_append_left _ (List.mem_flatMap.mpr ⟨a, ?_, ?_⟩)
      · exact List.mem_filter.mpr ⟨ha, by simp [hflags]⟩
      · rw [frame_of_fits hfits]
        exact List.mem_singleton_self _
    | net =>
      rw [hflags] at hfits
      refine List.mem_append_right _ (List.mem_flatMap.mpr ⟨a, ?_, ?_⟩)
      · exact List.mem_filter.mpr ⟨ha, by simp [hflags]⟩
      · rw [frame_of_fits hfits]
        exact List.mem_singleton_self _

theorem post_reaches_iff {req : PostReq} {info : AdapterInfo} {a : AdapterId}
    (h : handlePostReq e caps sender d = some (d', ok))
    (hpost : acceptedPost caps sender d = some (req, info)) (ha : a ∈ d.subscribers req.name) :
    (∃ w ∈ d'.out.drop d.out.length, w.dest = a) ↔
      e.fits (d.adapters a).serializeFlags (postResp sender d req info) = true := by
  obtain ⟨hnone, _⟩ | ⟨req', info', d₁, ws, hpost', _, hws, rfl, hreqs⟩ := handlePostReq_spec h
  · rw [hpost] at hnone
    cases hnone
  · cases hpost.symm.trans hpost'
    have hout : (persistPost req.name req.msgtype req.args d₁).out = d.out ++ ws := by
      rw [persistPost_rest]
      change d₁.out = _
      rw [hws.out, purge_rest]
    rw [hout, List.drop_left, ← mem_postFrames_iff ha, ← hreqs]
    constructor
    · rintro ⟨w, hw, hdest⟩
      exact ⟨w.request, List.mem_map_of_mem hw, hdest⟩
    · rintro ⟨r, hr, hdest⟩
      obtain ⟨w, hw, rfl⟩ := List.mem_map.mp hr
      exact ⟨w, hw, hdest⟩

theorem call_accepted_iff {now : Nat} {req : CallReq} {info : AdapterInfo} {target : AdapterId}
    (h : handleCallReq e now caps sender d = some (d', ok))
    (hparse : RequestParser.parseCall caps = some req) (hderef : d.deref sender = some info)
    (hfound : findMethod req.target req.name d = some (some target)) :
    ok = true ↔ e.fits (d.adapters target).serializeFlags (callResp d sender req info) = true := by
  rw [handleCallReq_of_found e now hparse hderef hfound] at h
  split at h
  · rename_i hfits
    obtain ⟨_, _, heq⟩ := Option.map_eq_some_iff.mp h
    cases heq
    exact ⟨fun _ => hfits, fun _ => rfl⟩
  · rename_i hfits
    cases h
    exact ⟨nofun, fun hroom => absurd hroom hfits⟩

theorem reply_accepted_iff {req : ReplyReq} {info : AdapterInfo} {pc : PendingCall}
    (h : handleReplyReq e caps sender d = some (d', ok))
    (hparse : RequestParser.parseReply caps = some req) (hderef : d.deref sender = some info)
    (hfind : d.pendingCalls.find? (replies req.id sender) = some pc)
    (hopen : (d.adapters pc.sender).closed = false) :
    ok = true ↔ e.fits (d.adapters pc.sender).serializeFlags (replyResp d sender req info pc) =
      true := by
  have hfind : (d.pendingCalls.find? fun pc => pc.svrid == req.id && pc.target == sender) =
      some pc := hfind
  rw [handleReplyReq, if_neg (info_of_deref hderef), hparse] at h
  simp only [hderef, hfind, hopen, Option.bind_some, Bool.false_eq_true, if_false] at h
  split at h
  · rename_i hfits
    obtain ⟨_, _, h⟩ := Option.bind_eq_some_iff.mp h
    obtain ⟨_, _, heq⟩ := Option.map_eq_some_iff.mp h
    cases heq
    exact ⟨fun _ => hfits, fun _ => rfl⟩
  · rename_i hfits
    cases h
    exact ⟨nofun, fun hroom => absurd hroom hfits⟩

/-- For sizes that add up over the members, the length of a `CMD_POST_REQ` bounds that of the
`CMD_POST_RESP` made of it up to the sender's tag and name. -/
theorem post_fits_iff (s : e.AdditiveSize) (order order' : ByteOrder) (req : PostReq)
    (info : AdapterInfo) : e.fits order (postResp sender d req info) = true ↔
      e.capsSize order' (RequestSerializer.serializePost req.name req.msgtype req.args) +
        s.member (.i32 cmdPostResp) + s.member (.i64 (d.adapters sender).tag) +
        s.member (.str info.name) ≤ e.room + s.member (.i32 cmdPostReq) := by
  rw [Env.fits_iff, s.size_eq, s.size_eq]
  simp only [postResp, ResponseSerializer.serializePost, RequestSerializer.serializePost,
    List.map_cons, List.map_nil, List.sum_cons, List.sum_nil]
  omega

/-- A call loses its target and its timeout and gains the sender's tag and name. -/
theorem call_fits_iff (s : e.AdditiveSize) (order order' : ByteOrder) (req : CallReq)
    (info : AdapterInfo) : e.fits order (callResp d sender req info) = true ↔
      e.capsSize order' (RequestSerializer.serializeCall req.name req.args req.target req.id
          req.timeout) + s.member (.i32 cmdCallResp) +
        s.member (.i32 (BitVec.ofNat 32 (d.reqseq + 1))) + s.member (.i64 (d.adapters sender).tag) +
        s.member (.str info.name) ≤
      e.room + s.member (.i32 cmdCallReq) + s.member (.i32 req.id) + s.member (.str req.target) +
        s.member (.i32 req.timeout) := by
  rw [Env.fits_iff, s.size_eq, s.size_eq]
  simp only [callResp, ResponseSerializer.serializeCall, RequestSerializer.serializeCall,
    List.map_cons, List.map_nil, List.sum_cons, List.sum_nil]
  omega

/-- A reply gains the result code, the sender's name and its tag. -/
theorem reply_fits_iff (s : e.AdditiveSize) (order order' : ByteOrder) (req : ReplyReq)
    (info : AdapterInfo) (pc : PendingCall) :
    e.fits order (replyResp d sender req info pc) = true ↔
      e.capsSize order' (RequestSerializer.serializeReply req.id req.code req.values) +
        s.member (.i32 cmdReplyResp) + s.member (.i32 pc.cliid) + s.member (.i32 cliSuccess) +
        s.member (.str info.name) + s.member (.i64 (d.adapters sender).tag) ≤
      e.room + s.member (.i32 cmdReplyReq) + s.member (.i32 req.id) := by
  rw [Env.fits_iff, s.size_eq, s.size_eq]
  simp only [replyResp, ResponseSerializer.serializeReply, RequestSerializer.serializeReply,
    if_true, Option.elim_some, List.cons_append, List.nil_append, List.map_cons, List.map_nil,
    List.sum_cons, List.sum_nil]
  omega

/-- What the service admits it can relay exactly when there is room for what the relay adds: a post
reaches its live subscribers, a call does not close its caller and a reply does not close its
sender, exactly when the request with the added members has room. For sizes that add up over the
members this bounds the length of the request. -/
theorem relayed_iff_room (e : Env) (d d' : Dispatcher) (caps : Caps) (sender : AdapterId)
    (now : Nat) (ok : Bool) :
    (∀ req info a, handlePostReq e caps sender d = some (d', ok) →
      acceptedPost caps sender d = some (req, info) → a ∈ d.subscribers req.name →
      ((∃ w ∈ d'.out.drop d.out.length, w.dest = a) ↔
        e.capsSize (d.adapters a).serializeFlags (postResp sender d req info) ≤ e.room) ∧
      ∀ (s : e.AdditiveSize) (order : ByteOrder),
        ((∃ w ∈ d'.out.drop d.out.length, w.dest = a) ↔
          e.capsSize order (RequestSerializer.serializePost req.name req.msgtype req.args) +
            s.member (.i32 cmdPostResp) + s.member (.i64 (d.adapters sender).tag) +
            s.member (.str info.name) ≤ e.room + s.member (.i32 cmdPostReq))) ∧
    (∀ req info target, handleCallReq e now caps sender d = some (d', ok) →
      RequestParser.parseCall caps = some req → d.deref sender = some info →
      findMethod req.target req.name d = some (some target) →
      (ok = true ↔
        e.capsSize (d.adapters target).serializeFlags (callResp d sender req info) ≤ e.room) ∧
      ∀ (s : e.AdditiveSize) (order : ByteOrder),
        (ok = true ↔
          e.capsSize order (RequestSerializer.serializeCall req.name req.args req.target req.id
              req.timeout) + s.member (.i32 cmdCallResp) +
            s.member (.i32 (BitVec.ofNat 32 (d.reqseq + 1))) +
            s.member (.i64 (d.adapters sender).tag) + s.member (.str info.name) ≤
          e.room + s.member (.i32 cmdCallReq) + s.member (.i32 req.id) +
            s.member (.str req.target) + s.member (.i32 req.timeout))) ∧
    (∀ req info pc, handleReplyReq e caps sender d = some (d', ok) →
      RequestParser.parseReply caps = some req → d.deref sender = some info →
      d.pendingCalls.find? (replies req.id sender) = some pc →
      (d.adapters pc.sender).closed = false →
      (ok = true ↔
        e.capsSize (d.adapters pc.sender).serializeFlags (replyResp d sender req info pc) ≤
          e.room) ∧
      ∀ (s : e.AdditiveSize) (order : ByteOrder),
        (ok = true ↔
          e.capsSize order (RequestSerializer.serializeReply req.id req.code req.values) +
            s.member (.i32 cmdReplyResp) + s.member (.i32 pc.cliid) + s.member (.i32 cliSuccess) +
            s.member (.str info.name) + s.member (.i64 (d.adapters sender).tag) ≤
          e.room + s.member (.i32 cmdReplyReq) + s.member (.i32 req.id))) := by
  refine ⟨fun req info a h hpost ha => ?_, fun req info target h hparse hderef hfound => ?_,
    fun req info pc h hparse hderef hfind hopen => ?_⟩
  · have hiff := post_reaches_iff h hpost ha
    exact ⟨hiff.trans Env.fits_iff, fun s order => hiff.trans (post_fits_iff s _ order req info)⟩
  · have hiff := call_accepted_iff h hparse hderef hfound
    exact ⟨hiff.trans Env.fits_iff, fun s order => hiff.trans (call_fits_iff s _ order req info)⟩
  · have hiff := reply_accepted_iff h hparse hderef hfind hopen
    exact ⟨hiff.trans Env.fits_iff,
      fun s order => hiff.trans (reply_fits_iff s _ order req info pc)⟩

/-- A plain layout: fixed-width numbers, terminated strings, counted data, and a header for a
nested container. -/
def plainSize : CapsValue → Nat
  | .i32 _ => 4
  | .i64 _ => 8
  | .f32 _ => 4
  | .f64 _ => 8
  | .str s => s.length + 1
  | .bin data => 4 + data.length
  | .obj _ => 8

/-- The members of a payload are counted; containers inside a payload are empty. -/
def memberSize : CapsValue → Nat
  | .obj (some members) => 8 + (members.map plainSize).sum
  | v => plainSize v

def relayEnv : Env where
  msgBufSize := 0
  flags := 1
  capsSize _ caps := 8 + (caps.map memberSize).sum
  os _ := .success

def relayEnvSize : relayEnv.AdditiveSize where
  header := 8
  member := memberSize
  size_eq _ _ := rfl

/-- The client "svc" has declared the method "m" and a client without a name is connected. -/
def relayState : Option Dispatcher :=
  TransitionSystem.execute (step relayEnv) {} [sampleAuth 0 "svc" 0,
    .msg (RequestSerializer.serializeDeclareMethod "m") 0 0 0, sampleAuth 1 "" 0]

/-- A call of "m" with `n` bytes of data. -/
def relayCall (n : Nat) : CallReq := ⟨"m", some [.bin (List.replicate n 0)], "svc", 1, 0⟩

/-- The `CMD_CALL_REQ` frame of that call. -/
def relayFrame (n : Nat) : Caps :=
  RequestSerializer.serializeCall "m" (relayCall n).args "svc" 1 0

theorem short_call_relayed : ∃ d d', relayState = some d ∧
    handleCallReq relayEnv 0 (relayFrame 2).tail 1 d = some (d', true) ∧
    relayEnv.capsSize .host (relayFrame 2) + memberSize (.i32 cmdCallResp) +
        memberSize (.i32 (BitVec.ofNat 32 (d.reqseq + 1))) +
        memberSize (.i64 (d.adapters 1).tag) + memberSize (.str "") ≤
      relayEnv.room + memberSize (.i32 cmdCallReq) + memberSize (.i32 1) +
        memberSize (.str "svc") + memberSize (.i32 0) := by
  obtain ⟨d, d', hd, hh, hderef, hfound⟩ : ∃ d d', relayState = some d ∧
      handleCallReq relayEnv 0 (relayFrame 2).tail 1 d = some (d', true) ∧
      d.deref 1 = some ⟨2, 1, "", [], 0⟩ ∧ findMethod "svc" "m" d = some (some 0) :=
    ⟨_, _, rfl, rfl, rfl, rfl⟩
  refine ⟨d, d', hd, hh, ?_⟩
  obtain ⟨_, hroom⟩ := (relayed_iff_room relayEnv d d' (relayFrame 2).tail 1 0 true).2.1
    (relayCall 2) _ 0 hh rfl hderef hfound
  exact (hroom relayEnvSize .host).mp rfl

theorem memberSize_relayCall (n : Nat) : memberSize (.obj (relayCall n).args) = 12 + n := by
  simp only [relayCall, memberSize, List.map_cons, List.map_nil, List.sum_cons, List.sum_nil,
    plainSize, List.length_replicate]
  omega

theorem size_relayFrame (n : Nat) : relayEnv.capsSize .host (relayFrame n) = n + 38 := by
  change 8 + (4 + (2 + (4 + (4 + (4 + (memberSize (.obj (relayCall n).args) + 0)))))) = _
  rw [memberSize_relayCall]
  omega

theorem size_relayResp (d : Dispatcher) (order : ByteOrder) (info : AdapterInfo) (n : Nat) :
    relayEnv.capsSize order (callResp d 1 (relayCall n) info) = n + 39 + info.name.length := by
  have hname : memberSize (.str "m") = 2 := rfl
  have hcall : (relayCall n).name = "m" := rfl
  rw [relayEnvSize.size_eq, callResp, ResponseSerializer.serializeCall, hcall]
  simp only [relayEnvSize, List.map_cons, List.map_nil, List.sum_cons, List.sum_nil,
    memberSize_relayCall, hname]
  simp only [memberSize, plainSize]
  omega

theorem long_call_closes {n : Nat} (hn : 32730 ≤ n) : ∃ d d', relayState = some d ∧
    findMethod "svc" "m" d = some (some 0) ∧
    handleCallReq relayEnv 0 (relayFrame n).tail 1 d = some (d', false) := by
  obtain ⟨d, info, hd, hderef, hfound⟩ : ∃ d info, relayState = some d ∧
      d.deref 1 = some info ∧ findMethod "svc" "m" d = some (some 0) := ⟨_, _, rfl, rfl, rfl⟩
  have hroom : relayEnv.room = 32768 := by decide
  refine ⟨d, enterCall 0 1 0 (relayCall n) d, hd, hfound, ?_⟩
  refine (handleCallReq_of_found relayEnv 0 rfl hderef hfound).trans (if_neg ?_)
  rw [Env.fits_iff, hroom, size_relayResp]
  omega

/-- A call of exactly `buf_size` bytes is admitted and finds a client that has the method, but the
relayed message is one byte longer, so the call closes its caller. -/
theorem full_call_not_relayed : relayEnv.capsSize .host (relayFrame 32730) = relayEnv.bufSize ∧
    ∃ d d', (system relayEnv).Reachable d ∧ findMethod "svc" "m" d = some (some 0) ∧
      handleCallReq relayEnv 0 (relayFrame 32730).tail 1 d = some (d', false) := by
  obtain ⟨d, d', hd, hfound, hh⟩ := long_call_closes (Nat.le_refl 32730)
  exact ⟨size_relayFrame _, d, d', TransitionSystem.execute_reachable initial_default hd, hfound, hh⟩

end Dispatcher

end Flora
