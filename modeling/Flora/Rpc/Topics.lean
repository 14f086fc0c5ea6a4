import Flora.Dispatcher.Rejections
import Flora.Rpc.Net

/-! # A post on its way to a subscriber

The posts that a library client makes on a name are on their way up, queued, on their way down, or
have reached the subscriber; while the client stays registered and the subscriber subscribed, none
is lost, none comes twice, and none overtakes another. -/

namespace Flora

open TransitionSystem

namespace Service

variable {e : Env} {s s' : Service} {p x : AdapterId} {n : String}

/-- The post a message asks for. -/
def postRequest (caps : Caps) : Option PostReq :=
  caps.readWord.bind fun (cmd, rest) =>
    if cmd = cmdPostReq then (RequestParser.parsePost rest).filter fun req =>
      isValidMsgtype req.msgtype && req.name.length != 0
    else none

/-- The post on `n` that a packet of `p` asks for. -/
def postOn (p : AdapterId) (n : String) (q : CmdPacket) : Option PostReq :=
  if q.2 = p then (q.1.bind postRequest).filter (·.name == n) else none

/-- What a client reads from the frame of a post. -/
def postFrame (caps : Caps) : Option PostReq :=
  caps.readWord.bind fun (cmd, rest) =>
    if cmd = cmdPostResp then
      (ResponseParser.parsePost rest).map fun (name, msgtype, args, _, _) => ⟨name, msgtype, args⟩
    else none

/-- Every write with the entry it belongs to. -/
def log (s : Service) : List (Entry × Write) := s.journal.flatMap fun j => j.writes.map (j, ·)

/-- What `x` reads from a write, if that belongs to a post of `p` on `n` and reaches it. -/
def arrival (p : AdapterId) (n : String) (x : AdapterId) (j : Entry × Write) : Option PostReq :=
  if (postOf p n j.1).isSome && Net.arrives x j.2 then postFrame j.2.caps else none

/-- `p` is a registered client and no monitor. -/
def registered (s : Service) (p : AdapterId) : Bool :=
  (s.disp.deref p).any fun info => !hasMonitorFlag info.flags

/-- The next command, if it is a post of `p` on `n`, has room in the send buffer for `x`. -/
def NextFits (e : Env) (s : Service) (p : AdapterId) (n : String) (x : AdapterId) : Prop :=
  ∀ q ∈ s.pendingCmds.head?, ∀ r ∈ commandPost s.disp q, q.2 = p → r.1.name = n →
    e.fits (s.disp.adapters x).serializeFlags r.2 = true

/-- `p` posts on `n` and `x` listens. -/
structure Carries (e : Env) (p : AdapterId) (n : String) (x : AdapterId) (s : Service) : Prop where
  registered : s.registered p = true
  subscribed : x ∈ s.disp.subscribers n
  fits : NextFits e s p n x

instance : Decidable (NextFits e s p n x) :=
  inferInstanceAs (Decidable (∀ q ∈ _, ∀ r ∈ commandPost s.disp q, _ → _ → _))

instance : Decidable (Carries e p n x s) :=
  decidable_of_iff (s.registered p = true ∧ x ∈ s.disp.subscribers n ∧ NextFits e s p n x)
    ⟨fun h => ⟨h.1, h.2.1, h.2.2⟩, fun h => ⟨h.1, h.2, h.3⟩⟩

theorem log_out (h : InOrder s) : s.log.map Prod.snd = s.disp.out := by
  rw [h.out, log, List.map_flatMap]
  congr 1
  funext j
  rw [List.map_map]
  exact List.map_id _

theorem log_of_journal {js : List Entry} (h : s'.journal = s.journal ++ js) :
    s'.log = s.log ++ js.flatMap fun j => j.writes.map (j, ·) := by
  rw [log, h, List.flatMap_append]
  rfl

/-- The dispatcher accepts the posts of a registered client. -/
theorem handledPost_of_registered {d : Dispatcher} {info : AdapterInfo} (caps : Caps)
    (hderef : d.deref p = some info) (hclient : hasMonitorFlag info.flags = false) :
    d.handledPost caps p =
      (postRequest caps).map fun req => (req, Dispatcher.postResp p d req info) := by
  have hgate : Dispatcher.isMonitor p d = some false := by
    unfold Dispatcher.isMonitor
    rw [if_neg (Dispatcher.info_of_deref hderef), hderef, Option.map_some, hclient]
  unfold Dispatcher.handledPost postRequest
  rw [Dispatcher.request, if_pos hgate]
  cases caps.readWord with
  | none => rfl
  | some q =>
    obtain ⟨cmd, rest⟩ := q
    by_cases hcmd : cmd = cmdPostReq
    · simp only [Option.bind_some, hcmd, if_true, Dispatcher.acceptedPost, hderef]
      cases RequestParser.parsePost rest with
      | none => rfl
      | some req =>
        simp only [Option.bind_some, Option.filter]
        by_cases hlen : req.name.length = 0 <;> by_cases htype : isValidMsgtype req.msgtype = true <;>
          simp [hlen, htype]
    · simp [hcmd]

/-- The dispatcher thread handles the next command of its batch, or no command. -/
theorem step_takes {act : Action} (h : step e s act = some s') :
    (∃ js, s'.journal = s.journal ++ js ∧ ∀ j ∈ js, j.cmd = none ∧ j.post = none) ∨
    ∃ q ws, q ∈ s.pendingCmds.head? ∧
      s'.journal = s.journal ++ [⟨some q, commandPost s.disp q, ws⟩] := by
  have hsame {t : Service} (ht : t.journal = s.journal) :
      ∃ js, t.journal = s.journal ++ js ∧ ∀ j ∈ js, j.cmd = none ∧ j.post = none :=
    ⟨[], ht.trans (List.append_nil _).symm, by simp⟩
  cases act with
  | accept a =>
    obtain ⟨-, -, rfl⟩ := step_accept h
    exact .inl (hsame rfl)
  | put a caps =>
    obtain ⟨-, rfl⟩ := step_put h
    exact .inl (hsame rfl)
  | closeAdapter a =>
    obtain ⟨-, rfl⟩ := step_closeAdapter h
    exact .inl (hsame rfl)
  | checkInfo a =>
    obtain ⟨-, rfl⟩ := step_checkInfo h
    exact .inl (hsame rfl)
  | pushErase a =>
    obtain ⟨-, rfl⟩ := step_pushErase h
    exact .inl (hsame rfl)
  | destroy a =>
    obtain ⟨-, -, d, -, rfl⟩ := step_destroy h
    exact .inl (hsame rfl)
  | loop tp =>
    obtain ⟨-, ⟨-, rfl⟩ | ⟨-, -, d, -, rfl⟩ | rfl⟩ := step_loop h
    · exact .inl (hsame rfl)
    · exact .inl ⟨_, rfl, by simp⟩
    · exact .inl (hsame rfl)
  | handle now done =>
    obtain ⟨-, ⟨-, rfl⟩ | ⟨q, rest, d, hcons, -, rfl⟩⟩ := step_handle h
    · exact .inl (hsame rfl)
    · exact .inr ⟨q, _, by rw [hcons]; rfl, rfl⟩
  | wake =>
    obtain ⟨-, rfl⟩ := step_wake h
    exact .inl (hsame rfl)
  | close =>
    cases h
    exact .inl (hsame rfl)

theorem arrivals_of_silent {j : Entry} (h : postOf p n j = none) :
    (j.writes.map (j, ·)).filterMap (arrival p n x) = [] := by
  rw [List.filterMap_map, List.filterMap_eq_nil_iff]
  intro w _
  simp [arrival, h]

/-- An entry whose writes to `x` are one frame arrives as that frame. -/
theorem arrivals_of_post {j : Entry} {order : ByteOrder} {resp : Caps}
    (hpost : postOf p n j = some resp) (hwrites : j.writes.filter (fun w => w.dest == x) =
      [⟨x, order, resp, .success, none⟩]) :
    (j.writes.map (j, ·)).filterMap (arrival p n x) = (postFrame resp).toList := by
  have honly (w : Write) : arrival p n x (j, w) =
      if w.dest == x then arrival p n x (j, w) else none := by
    split
    · rfl
    · rename_i hdest
      simp [arrival, Net.arrives, hdest]
  have hone : (j.writes.map (j, ·)).filterMap (arrival p n x) =
      (j.writes.filter fun w => w.dest == x).filterMap fun w => arrival p n x (j, w) := by
    rw [List.filterMap_map, List.filterMap_filter]
    exact List.filterMap_congr fun w _ => honly w
  rw [hone, hwrites]
  cases hframe : postFrame resp <;> simp [arrival, hpost, Net.arrives, hframe]

theorem postOf_of_ne {caps : CapsPtr} {a : AdapterId} {post : Option (PostReq × Caps)}
    {ws : List Write} (h : a ≠ p) : postOf p n ⟨some (caps, a), post, ws⟩ = none := by
  unfold postOf
  split
  · rename_i hcmd _
    cases hcmd
    exact if_neg fun hboth => h hboth.1
  · rfl

/-- A command brings `x` the post it asks for. -/
theorem command_arrives {q : CmdPacket} {ws : List Write} (hs : Carries e p n x s)
    (hq : q ∈ s.pendingCmds.head?) {order : ByteOrder}
    (hdel : ∀ resp, postOf p n ⟨some q, commandPost s.disp q, ws⟩ = some resp →
      e.fits (s.disp.adapters x).serializeFlags resp = true →
      ws.filter (fun w => w.dest == x) = [⟨x, order, resp, .success, none⟩]) :
    (ws.map (Entry.mk (some q) (commandPost s.disp q) ws, ·)).filterMap (arrival p n x) =
      (postOn p n q).toList := by
  obtain ⟨info, hderef, hclient⟩ := (Option.any_eq_true _ _).mp hs.registered
  rw [Bool.not_eq_true'] at hclient
  obtain ⟨caps, a⟩ := q
  by_cases ha : a = p
  · subst ha
    cases caps with
    | none =>
      refine (arrivals_of_silent rfl).trans ?_
      simp [postOn]
    | some caps =>
      have hpost : commandPost s.disp (some caps, a) =
          (postRequest caps).map fun req => (req, Dispatcher.postResp a s.disp req info) :=
        handledPost_of_registered caps hderef hclient
      cases hreq : postRequest caps with
      | none =>
        rw [hreq] at hpost
        refine (arrivals_of_silent ?_).trans ?_
        · simp [postOf, hpost]
        · simp [postOn, hreq]
      | some req =>
        rw [hreq] at hpost
        by_cases hname : req.name = n
        · have hof : postOf a n ⟨some (some caps, a), commandPost s.disp (some caps, a), ws⟩ =
              some (Dispatcher.postResp a s.disp req info) := by
            simp [postOf, hpost, hname]
          refine (arrivals_of_post hof (hdel _ hof (hs.fits _ hq _ hpost rfl hname))).trans ?_
          simp only [postOn, hreq, hname, if_true, Option.bind_some, Option.filter, beq_self_eq_true]
          rfl
        · refine (arrivals_of_silent ?_).trans ?_
          · simp [postOf, hpost, hname]
          · simp [postOn, hreq, hname]
  · refine (arrivals_of_silent (postOf_of_ne ha)).trans ?_
    simp [postOn, ha]

/-- What reaches `x` in a step is what has been handled in it. -/
theorem step_arrives {act : Action} (hr : (system e).Reachable s) (hs : Carries e p n x s)
    (h : step e s act = some s') (hx : x ∈ s'.disp.subscribers n) :
    ∃ l, s'.log.filterMap (arrival p n x) = s.log.filterMap (arrival p n x) ++ l ∧
      s'.handled.filterMap (postOn p n) = s.handled.filterMap (postOn p n) ++ l := by
  obtain ⟨js, hjs, hnone⟩ | ⟨q, ws, hq, hjournal⟩ := step_takes h
  · refine ⟨[], ?_, ?_⟩
    · rw [log_of_journal hjs, List.filterMap_append, List.filterMap_flatMap]
      congr 1
      rw [List.flatMap_eq_nil_iff]
      intro j hj
      refine arrivals_of_silent ?_
      rw [postOf, (hnone j hj).1]
    · have hcmds : js.filterMap Entry.cmd = [] :=
        List.filterMap_eq_nil_iff.mpr fun j hj => (hnone j hj).1
      rw [handled, hjs, List.filterMap_append, hcmds, List.append_nil, List.append_nil]
      rfl
  · obtain ⟨-, js, hjs, hdel⟩ := step_delivers hr h hs.subscribed hx (p := p)
    cases List.append_cancel_left (hjs.symm.trans hjournal)
    have hhandled : s'.handled = s.handled ++ [q] := by
      rw [handled, hjournal, List.filterMap_append]
      rfl
    refine ⟨(postOn p n q).toList, ?_, ?_⟩
    · rw [log_of_journal hjournal, List.flatMap_singleton, List.filterMap_append,
        command_arrives hs hq (hdel _ (List.mem_singleton_self _))]
    · rw [hhandled, List.filterMap_append]
      cases hon : postOn p n q <;> simp [hon]

end Service

namespace Net

open Service

variable {e : Env} {lib : AdapterId → Bool} {s s' : Net} {p x : AdapterId} {n : String}

/-- The post on `n` that a frame asks for. -/
def topicPost (n : String) (caps : Caps) : Option PostReq := (postRequest caps).filter (·.name == n)

/-- The post on `n` that an action of the client `p` sends. -/
def madePost (p : AdapterId) (n : String) : Action → Option PostReq
  | .request a caps => if a = p then topicPost n caps else none
  | _ => none

/-- The posts of `p` on `n` that the client `x` has read. -/
def got (p : AdapterId) (n : String) (x : AdapterId) (s : Net) : List PostReq :=
  (s.service.log.take (s.received x)).filterMap (arrival p n x)

/-- Those that are on the connection of `x`, in the queue, or on the connection of `p`. -/
def inTransit (p : AdapterId) (n : String) (x : AdapterId) (s : Net) : List PostReq :=
  (s.service.log.drop (s.received x)).filterMap (arrival p n x) ++
    (s.service.pendingCmds ++ s.service.cmdPackets).filterMap (postOn p n) ++
    (s.up p).filterMap (topicPost n)

/-- Everything that `p` has sent. -/
def requested (p : AdapterId) (n : String) (s : Net) : List PostReq :=
  s.service.pushes.filterMap (postOn p n) ++ (s.up p).filterMap (topicPost n)

theorem requested_service {act : Service.Action} (hlib : lib p = true)
    (h : step e lib s (.service act) = some s') : requested p n s' = requested p n s := by
  obtain ⟨hput, service, hservice, rfl⟩ := step_service h
  unfold requested
  congr 1
  obtain hp | ⟨b, hp⟩ | ⟨b, caps, rfl, hp⟩ := step_pushes hservice
  · rw [hp]
  · have hnone : postOn p n (none, b) = none := by simp [postOn]
    simp [hp, hnone]
  · have hne : b ≠ p := by
      rintro rfl
      exact absurd ((hput b rfl).symm.trans hlib) (by simp)
    have hnone : postOn p n (some caps, b) = none := if_neg hne
    simp [hp, hnone]

theorem requested_deliver {a : AdapterId} (h : step e lib s (.deliver a) = some s') :
    requested p n s' = requested p n s := by
  obtain ⟨caps, rest, service, hup, hservice, rfl⟩ := step_deliver h
  obtain ⟨-, rfl⟩ := step_put hservice
  by_cases ha : p = a
  · subst ha
    have hon : postOn p n (some caps, p) = topicPost n caps := if_pos rfl
    simp only [requested, Service.push, Function.update_self, hup, List.filterMap_append,
      List.filterMap_cons, List.filterMap_nil, hon]
    cases topicPost n caps <;> simp
  · have hon : postOn p n (some caps, a) = none := if_neg (Ne.symm ha)
    simp [requested, Service.push, Function.update_of_ne ha, hon]

theorem topicPost_call (n : String) (r : CallReq) : topicPost n
    (RequestSerializer.serializeCall r.name r.args r.target r.id r.timeout) = none := by
  rfl

/-- Only the client `p` adds to its posts. -/
theorem step_requested {act : Action} (hlib : lib p = true) (h : step e lib s act = some s') :
    requested p n s' = requested p n s ++ (madePost p n act).toList := by
  cases act with
  | service sact => exact (requested_service hlib h).trans (List.append_nil _).symm
  | deliver a => exact (requested_deliver h).trans (List.append_nil _).symm
  | client a cact =>
    obtain ⟨-, -, c, -, rfl⟩ := step_client h
    exact (List.append_nil _).symm
  | transmit a ok =>
    obtain ⟨-, key, r, c, -, -, -, rfl⟩ := step_transmit h
    cases ok with
    | false => exact (List.append_nil _).symm
    | true =>
      by_cases ha : p = a
      · subst ha
        simp [requested, send, setClient, madePost, topicPost_call]
      · simp [requested, send, setClient, madePost, Function.update_of_ne ha]
  | request a caps =>
    obtain ⟨-, -, rfl⟩ := step_request h
    by_cases ha : p = a
    · subst ha
      cases hpost : topicPost n caps <;> simp [requested, send, madePost, hpost]
    · simp [requested, send, madePost, Function.update_of_ne ha, Ne.symm ha]
  | receive a =>
    obtain ⟨-, m, w, -, -, -, rfl⟩ := step_receive h
    exact (List.append_nil _).symm

theorem step_log {act : Action} (h : step e lib s act = some s') : s.service.log <+: s'.service.log := by
  obtain hsame | ⟨sact, hservice, -⟩ := step_serviceStep h
  · simp [hsame]
  · obtain ⟨js, hjs, -⟩ | ⟨q, ws, -, hjs⟩ := step_takes hservice <;>
      exact ⟨_, (log_of_journal hjs).symm⟩

theorem step_received {act : Action} (h : step e lib s act = some s') :
    s.received x ≤ s'.received x := by
  cases act with
  | service sact =>
    obtain ⟨-, service, -, rfl⟩ := step_service h
    exact Nat.le_refl _
  | deliver a =>
    obtain ⟨caps, rest, service, -, -, rfl⟩ := step_deliver h
    exact Nat.le_refl _
  | client a cact =>
    obtain ⟨-, -, c, -, rfl⟩ := step_client h
    exact Nat.le_refl _
  | transmit a ok =>
    obtain ⟨-, key, r, c, -, -, -, rfl⟩ := step_transmit h
    cases ok <;> exact Nat.le_refl _
  | request a caps =>
    obtain ⟨-, -, rfl⟩ := step_request h
    exact Nat.le_refl _
  | receive a =>
    obtain ⟨-, m, w, hm, -, -, rfl⟩ := step_receive h
    change s.received x ≤ Function.update s.received a (m + 1) x
    by_cases ha : x = a
    · subst ha
      rw [Function.update_self]
      exact Nat.le_succ_of_le hm
    · rw [Function.update_of_ne ha]

theorem step_got {act : Action} (h : step e lib s act = some s') : got p n x s <+: got p n x s' := by
  obtain ⟨l, hl⟩ := step_log h
  have htake : s.service.log.take (s.received x) <+: s'.service.log.take (s.received x) := by
    rw [← hl, List.take_append]
    exact List.prefix_append _ _
  exact (htake.trans (List.take_prefix_take_left (step_received h))).filterMap _

/-- What has reached the connection of `x` grows by what the dispatcher handles. -/
theorem step_handled {act : Action} (hr : (system e lib).Reachable s)
    (hs : Carries e p n x s.service) (h : step e lib s act = some s')
    (hx : x ∈ s'.service.disp.subscribers n) :
    ∃ l, s'.service.log.filterMap (arrival p n x) = s.service.log.filterMap (arrival p n x) ++ l ∧
      s'.service.handled.filterMap (postOn p n) =
        s.service.handled.filterMap (postOn p n) ++ l := by
  obtain hsame | ⟨sact, hservice, -⟩ := step_serviceStep h
  · rw [hsame]
    exact ⟨[], (List.append_nil _).symm, (List.append_nil _).symm⟩
  · exact step_arrives (service_reachable hr) hs hservice hx

theorem run_handled {as : List Action} (hr : (system e lib).Reachable s) (hlib : lib p = true)
    (h : ((system e lib).guard fun s _ => Carries e p n x s.service).Run s as s')
    (hx : x ∈ s'.service.disp.subscribers n) :
    got p n x s <+: got p n x s' ∧
    requested p n s' = requested p n s ++ as.filterMap (madePost p n) ∧
    ∃ l, s'.service.log.filterMap (arrival p n x) = s.service.log.filterMap (arrival p n x) ++ l ∧
      s'.service.handled.filterMap (postOn p n) =
        s.service.handled.filterMap (postOn p n) ++ l := by
  induction h with
  | nil => exact ⟨List.prefix_rfl, (List.append_nil _).symm, [], by simp, by simp⟩
  | @cons s t r act as hst hrest ih =>
    obtain ⟨hs, hstep⟩ := hst
    have ht : x ∈ t.service.disp.subscribers n := by
      cases hrest with
      | nil => exact hx
      | cons hnext _ => exact hnext.1.subscribed
    obtain ⟨l, hl, hhandled⟩ := step_handled hr hs hstep ht
    obtain ⟨hgot, hrequested, k, hk, hhandled'⟩ := ih (hr.next hstep) hx
    refine ⟨(step_got hstep).trans hgot, ?_, l ++ k, ?_, ?_⟩
    · rw [hrequested, step_requested hlib hstep, List.append_assoc]
      cases hmade : madePost p n act <;> simp [hmade]
    · rw [hk, hl, List.append_assoc]
    · rw [hhandled', hhandled, List.append_assoc]

/-- Over any stretch in which `p` stays registered and `x` subscribed, the posts that `p` makes reach
`x` in the order they are made: what `x` has got, with what is on its way, grows by exactly these.
The place where `x` reads is one in the log, as that lists all writes. -/
theorem posts_arrive_in_order {as : List Action} (hr : (system e lib).Reachable s)
    (hlib : lib p = true)
    (h : ((system e lib).guard fun s _ => Carries e p n x s.service).Run s as s')
    (hx : x ∈ s'.service.disp.subscribers n) :
    s'.service.log.map Prod.snd = s'.service.disp.out ∧ got p n x s <+: got p n x s' ∧
    got p n x s' ++ inTransit p n x s' =
      got p n x s ++ inTransit p n x s ++ as.filterMap (madePost p n) := by
  obtain ⟨hgot, hrequested, l, hl, hhandled⟩ := run_handled hr hlib h hx
  have hr' := hr.run h.of_guard
  refine ⟨log_out (inOrder_reachable (service_reachable hr')), hgot, ?_⟩
  have hsplit (t : Net) : got p n x t ++ inTransit p n x t =
      t.service.log.filterMap (arrival p n x) ++
        ((t.service.pendingCmds ++ t.service.cmdPackets).filterMap (postOn p n) ++
          (t.up p).filterMap (topicPost n)) := by
    rw [got, inTransit, ← List.append_assoc, ← List.append_assoc, ← List.filterMap_append,
      List.take_append_drop, List.append_assoc]
  have hpushed (t : Net) (ht : (system e lib).Reachable t) : requested p n t =
      t.service.handled.filterMap (postOn p n) ++
        ((t.service.pendingCmds ++ t.service.cmdPackets).filterMap (postOn p n) ++
          (t.up p).filterMap (topicPost n)) := by
    rw [requested, (inOrder_reachable (service_reachable ht)).fifo, List.append_assoc,
      List.filterMap_append, List.append_assoc]
  rw [hpushed s hr, hpushed s' hr', hhandled, List.append_assoc, List.append_assoc]
    at hrequested
  rw [hsplit s, hsplit s', hl, List.append_assoc, List.append_assoc,
    List.append_cancel_left hrequested]

/-- Client 0 is registered; client 1 is registered and subscribed to `t`. -/
def topicJoins : List Action :=
  [.service (.accept 0), .service (.accept 1),
    .request 0 (RequestSerializer.serializeAuth floraVersion "p" 1 0), .deliver 0,
    .request 1 (RequestSerializer.serializeAuth floraVersion "s" 2 0), .deliver 1,
    .request 1 (RequestSerializer.serializeSubscribe "t"), .deliver 1, .service (.loop 0),
    .service (.handle 0 0), .service (.handle 0 0), .service (.handle 0 0), .service (.handle 0 0)]

/-- Two posts are made; the first one is read when the second one has come to the queue. -/
def topicPosts : List Action :=
  [.request 0 (RequestSerializer.serializePost "t" 0 none),
    .request 0 (RequestSerializer.serializePost "t" 0 (some [])), .deliver 0, .service (.loop 0),
    .service (.handle 0 0), .service (.handle 0 0), .deliver 0, .receive 1, .receive 1]

def topicJoined : Net := (execute (step Dispatcher.sampleEnv fun _ => true) {} topicJoins).getD {}

theorem posts_arrive_in_order_two : ∃ s', execute (step Dispatcher.sampleEnv fun _ => true)
      topicJoined topicPosts = some s' ∧
    got 0 "t" 1 s' = [⟨"t", 0, none⟩] ∧
    got 0 "t" 1 s' ++ inTransit 0 "t" 1 s' = [⟨"t", 0, none⟩, ⟨"t", 0, some []⟩] := by
  have hjoins : execute (step Dispatcher.sampleEnv fun _ => true) {} topicJoins =
      some topicJoined := rfl
  have hposts : execute (fun s act => if Carries Dispatcher.sampleEnv 0 "t" 1 s.service then
    step Dispatcher.sampleEnv (fun _ => true) s act else none) topicJoined topicPosts = some _ := rfl
  obtain ⟨-, -, hall⟩ := posts_arrive_in_order
    (execute_reachable ⟨{}, Service.initial_default, rfl⟩ hjoins) rfl (execute_guarded_run hposts)
    (by decide)
  exact ⟨_, rfl, rfl, hall⟩

end Net

end Flora
