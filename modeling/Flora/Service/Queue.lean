import Flora.Service.System

/-! # Commands are handled in the order of their pushes

Batches are spliced out of `cmd_packets` while the poll threads keep pushing; what has been
handled, the rest of the batch and the queue together are always the sequence of pushes. Posts of
one sender therefore reach a subscriber in the order they were put. -/

namespace Flora

open TransitionSystem

namespace Service

variable {e : Env} {s s' : Service}

/-- The commands that have been handled. -/
def handled (s : Service) : List CmdPacket := s.journal.filterMap Entry.cmd

structure InOrder (s : Service) : Prop where
  fifo : s.pushes = s.handled ++ s.pendingCmds ++ s.cmdPackets
  batch : s.pc ≠ .handling → s.pendingCmds = []
  /-- The thread does not wait with a command in the queue, unless it is about to be woken. -/
  woken : s.pc = .waiting → s.notified = false → s.cmdPackets = []
  out : s.disp.out = s.journal.flatMap Entry.writes

theorem out_append {d d' : Dispatcher} {x : Dispatcher.Action}
    (h : Dispatcher.step e d x = some d') : d'.out = d.out ++ d'.out.drop d.out.length := by
  obtain ⟨ws, hout, -⟩ := (Dispatcher.step_effect h).writes
  rw [hout, List.drop_left]

theorem InOrder.push (h : InOrder s) (p : CmdPacket) : InOrder (s.push p) where
  fifo := by
    change s.pushes ++ [p] = s.handled ++ s.pendingCmds ++ (s.cmdPackets ++ [p])
    rw [h.fifo, List.append_assoc]
  batch := h.batch
  woken hpc hnot := by
    have hpc : s.pc = .waiting := hpc
    have hnot : (s.notified || decide (s.pc = .waiting)) = false := hnot
    exact absurd hpc (of_decide_eq_false (Bool.or_eq_false_iff.mp hnot).2)
  out := h.out

theorem record_out (h : InOrder s) {cmd : Option CmdPacket} {post : Option (PostReq × Caps)}
    {d : Dispatcher} {x : Dispatcher.Action} (hd : Dispatcher.step e s.disp x = some d) :
    (s.record cmd post d).disp.out = (s.record cmd post d).journal.flatMap Entry.writes := by
  change d.out = (s.journal ++ [Entry.mk cmd post (d.out.drop s.disp.out.length)]).flatMap
    Entry.writes
  rw [List.flatMap_append, ← h.out, List.flatMap_singleton]
  exact out_append hd

theorem inOrder_step {act : Action} (hs : InOrder s) (h : step e s act = some s') :
    InOrder s' := by
  cases act with
  | accept a =>
    obtain ⟨_, _, rfl⟩ := step_accept h
    exact ⟨hs.fifo, hs.batch, hs.woken, hs.out⟩
  | put a caps =>
    obtain ⟨_, rfl⟩ := step_put h
    exact hs.push _
  | closeAdapter a =>
    obtain ⟨_, rfl⟩ := step_closeAdapter h
    exact ⟨hs.fifo, hs.batch, hs.woken, hs.out⟩
  | checkInfo a =>
    obtain ⟨_, rfl⟩ := step_checkInfo h
    exact ⟨hs.fifo, hs.batch, hs.woken, hs.out⟩
  | pushErase a =>
    obtain ⟨_, rfl⟩ := step_pushErase h
    have hpush := hs.push (none, a)
    exact ⟨hpush.fifo, hpush.batch, hpush.woken, hpush.out⟩
  | destroy a =>
    obtain ⟨_, _, d, hd, rfl⟩ := step_destroy h
    obtain ⟨_, _, rfl⟩ := Dispatcher.step_destroy hd
    exact ⟨hs.fifo, hs.batch, hs.woken, hs.out⟩
  | loop tp =>
    obtain ⟨hpc, ⟨_, rfl⟩ | ⟨hcmds, hpending, d, hd, rfl⟩ | rfl⟩ := step_loop h
    · have hbatch := hs.batch (by rw [hpc]; nofun)
      exact ⟨hs.fifo, fun _ => hbatch, nofun, hs.out⟩
    · refine ⟨?_, fun _ => hpending, fun _ _ => hcmds, record_out hs hd⟩
      change s.pushes = (s.journal ++ [_]).filterMap Entry.cmd ++ s.pendingCmds ++ s.cmdPackets
      rw [List.filterMap_append]
      exact (List.append_nil s.handled).symm ▸ hs.fifo
    · have hbatch := hs.batch (by rw [hpc]; nofun)
      refine ⟨?_, fun hne => absurd rfl hne, nofun, hs.out⟩
      change s.pushes = s.handled ++ (s.cmdPackets ++ s.pendingCmds) ++ []
      rw [hs.fifo, hbatch, List.append_nil, List.append_nil, List.append_nil]
  | handle now done =>
    obtain ⟨hpc, ⟨hnil, rfl⟩ | ⟨p, rest, d, hcons, hd, rfl⟩⟩ := step_handle h
    · exact ⟨hs.fifo, fun _ => hnil, nofun, hs.out⟩
    · refine ⟨?_, fun hne => absurd hpc hne, fun hwait => ?_, record_out hs hd⟩
      · change s.pushes = (s.journal ++ [_]).filterMap Entry.cmd ++ rest ++ s.cmdPackets
        rw [List.filterMap_append, hs.fifo, hcons]
        simp [handled]
      · rw [show s.pc = .waiting from hwait] at hpc
        cases hpc
  | wake =>
    obtain ⟨hpc, rfl⟩ := step_wake h
    have hbatch := hs.batch (by rw [hpc]; nofun)
    exact ⟨hs.fifo, fun _ => hbatch, nofun, hs.out⟩
  | close =>
    cases h
    refine ⟨hs.fifo, hs.batch, fun hpc hnot => ?_, hs.out⟩
    exact hs.woken hpc (Bool.or_eq_false_iff.mp hnot).1

theorem inOrder_reachable (h : (system e).Reachable s) : InOrder s := by
  apply h.invariant (P := InOrder)
  · rintro s ⟨d, ⟨adapters, rfl, -⟩, rfl⟩
    exact ⟨rfl, fun _ => rfl, nofun, rfl⟩
  · exact fun s act t hs hst => inOrder_step hs hst

/-- The frame of a post of `p` on the name `n`, if the entry is one. -/
def postOf (p : AdapterId) (n : String) (j : Entry) : Option Caps :=
  match j.cmd, j.post with
  | some (_, a), some (req, resp) => if a = p ∧ req.name = n then some resp else none
  | _, _ => none

/-- The frames of the posts of `p` on `n` that fit, in the order they were handled. -/
def frames (e : Env) (order : ByteOrder) (p : AdapterId) (n : String) (js : List Entry) :
    List Caps :=
  js.filterMap fun j => (postOf p n j).filter (e.fits order)

/-- What handling these posts wrote to `x`. -/
def deliveries (e : Env) (order : ByteOrder) (p : AdapterId) (n : String) (x : AdapterId)
    (js : List Entry) : List Write :=
  js.flatMap fun j => if (postOf p n j).any (e.fits order) then
    j.writes.filter fun w => w.dest == x else []

theorem postOf_none {p : AdapterId} {n : String} {ws : List Write} :
    postOf p n ⟨none, none, ws⟩ = none := rfl

theorem delivered_once {p : CmdPacket} {req : PostReq} {resp : Caps} {now done : Nat}
    {d d' : Dispatcher} {x : AdapterId} (hd : (Dispatcher.system e).Reachable d)
    (h : Dispatcher.step e d (command now done p) = some d')
    (hpost : commandPost d p = some (req, resp)) (hx : x ∈ d.subscribers req.name)
    (hlive : d'.live x = true) (hfits : e.fits (d.adapters x).serializeFlags resp = true) :
    (d'.out.drop d.out.length).filter (fun w => w.dest == x) =
      [⟨x, (d.adapters x).serializeFlags, resp, .success, none⟩] := by
  obtain ⟨caps, sender⟩ := p
  cases caps with
  | none => cases hpost
  | some caps =>
    obtain ⟨us, hus, hreqs⟩ := Dispatcher.handledPost_writes (Dispatcher.step_msg h).2 hpost
    obtain ⟨ws, hws, hgone, -⟩ := (Dispatcher.step_effect h).writes
    have hsame := List.append_cancel_left (hws.symm.trans hus)
    subst hsame
    rw [hws, List.drop_left]
    have hone : (ws.filter fun w => w.dest == x).map Write.request =
        [(x, (d.adapters x).serializeFlags, resp, none)] := by
      rw [← Dispatcher.filter_postFrames (Dispatcher.subscribers_nodup hd _) hx hfits, ← hreqs,
        List.filter_map]
      rfl
    obtain ⟨w, hw, hreq⟩ := List.map_eq_singleton_iff.mp hone
    have hmem : w ∈ ws.filter fun w => w.dest == x := by
      rw [hw]
      exact List.mem_singleton_self w
    obtain ⟨hmem, hdest⟩ := List.mem_filter.mp hmem
    have hresult := hgone x hlive w hmem (beq_iff_eq.mp hdest)
    have hwrite : w = ⟨x, (d.adapters x).serializeFlags, resp, .success, none⟩ := by
      obtain ⟨dest, order, caps', result, answers⟩ := w
      simp only [Write.request, Prod.mk.injEq] at hreq
      obtain ⟨rfl, rfl, rfl, rfl⟩ := hreq
      rw [show result = .success from hresult]
    rw [hw, hwrite]

theorem step_delivers {act : Action} {x p : AdapterId} {n : String}
    (hs : (system e).Reachable s) (h : step e s act = some s')
    (hx : x ∈ s.disp.subscribers n) (hx' : x ∈ s'.disp.subscribers n) :
    (s'.disp.adapters x).serializeFlags = (s.disp.adapters x).serializeFlags ∧
    ∃ js, s'.journal = s.journal ++ js ∧ ∀ j ∈ js, ∀ resp, postOf p n j = some resp →
      e.fits (s.disp.adapters x).serializeFlags resp = true →
      j.writes.filter (fun w => w.dest == x) =
        [⟨x, (s.disp.adapters x).serializeFlags, resp, .success, none⟩] := by
  constructor
  · obtain heq | ⟨y, hy, -⟩ := step_disp h
    · rw [heq]
    · exact (Dispatcher.step_effect hy).order x
  · obtain ⟨hjournal, -, -⟩ | ⟨tp, -, hjournal⟩ | ⟨c, now, done, hd, hjournal⟩ := step_record h
    · exact ⟨[], by rw [hjournal, List.append_nil], fun _ hj => absurd hj List.not_mem_nil⟩
    · refine ⟨_, hjournal, fun j hj resp hpost => ?_⟩
      rw [List.mem_singleton.mp hj, postOf_none] at hpost
      cases hpost
    · refine ⟨_, hjournal, fun j hj resp hpost hfits => ?_⟩
      rw [List.mem_singleton.mp hj] at hpost ⊢
      unfold postOf at hpost
      split at hpost
      · rename_i a req resp' hcmd hpost'
        split at hpost
        · rename_i hboth
          cases hpost
          have hlive : s'.disp.live x = true := (List.mem_filter.mp hx').2
          rw [← hboth.2] at hx
          exact delivered_once (disp_reachable hs) hd hpost' hx hlive hfits
        · cases hpost
      · cases hpost

theorem subscribed_at_start {x : AdapterId} {n : String} {as : List Action}
    (h : ((system e).guard fun s _ => x ∈ s.disp.subscribers n).Run s as s')
    (hx' : x ∈ s'.disp.subscribers n) : x ∈ s.disp.subscribers n := by
  cases h with
  | nil => exact hx'
  | cons hst _ => exact hst.1

theorem run_delivers {x p : AdapterId} {n : String} {as : List Action}
    (hs : (system e).Reachable s)
    (h : ((system e).guard fun s _ => x ∈ s.disp.subscribers n).Run s as s')
    (hx' : x ∈ s'.disp.subscribers n) :
    (s'.disp.adapters x).serializeFlags = (s.disp.adapters x).serializeFlags ∧
    ∃ js, s'.journal = s.journal ++ js ∧ ∀ j ∈ js, ∀ resp, postOf p n j = some resp →
      e.fits (s.disp.adapters x).serializeFlags resp = true →
      j.writes.filter (fun w => w.dest == x) =
        [⟨x, (s.disp.adapters x).serializeFlags, resp, .success, none⟩] := by
  induction h with
  | nil => exact ⟨rfl, [], by rw [List.append_nil], nofun⟩
  | cons hst hrest ih =>
    obtain ⟨horder, js, hjs, hdel⟩ :=
      step_delivers hs hst.2 hst.1 (subscribed_at_start hrest hx') (p := p)
    obtain ⟨horder', ks, hks, hdel'⟩ := ih (hs.next hst.2) hx'
    refine ⟨horder'.trans horder, js ++ ks, by rw [hks, hjs, List.append_assoc], fun j hj => ?_⟩
    obtain hj | hj := List.mem_append.mp hj
    · exact hdel j hj
    · rw [horder] at hdel'
      exact hdel' j hj

theorem deliveries_eq {order : ByteOrder} {p x : AdapterId} {n : String} {js : List Entry}
    (h : ∀ j ∈ js, ∀ resp, postOf p n j = some resp → e.fits order resp = true →
      j.writes.filter (fun w => w.dest == x) = [⟨x, order, resp, .success, none⟩]) :
    deliveries e order p n x js =
      (frames e order p n js).map fun resp => ⟨x, order, resp, .success, none⟩ := by
  induction js with
  | nil => rfl
  | cons j js ih =>
    have htail := ih fun k hk => h k (List.mem_cons_of_mem j hk)
    simp only [deliveries, frames] at htail ⊢
    rw [List.flatMap_cons, List.filterMap_cons, htail]
    cases hpost : postOf p n j with
    | none => rfl
    | some resp =>
      cases hfits : e.fits order resp with
      | false => simp [Option.filter, hfits]
      | true =>
        rw [h j List.mem_cons_self resp hpost hfits]
        simp [Option.filter, hfits]

/-- Commands are handled in the order of their pushes, each once and none left behind when the
thread waits. Over any stretch in which `x` stays subscribed to `n` and open, the posts of `p` on
`n` are written to `x` in that order, each once. -/
theorem handled_in_order (hs' : (system e).Reachable s') :
    s'.pushes = s'.handled ++ s'.pendingCmds ++ s'.cmdPackets ∧
    (s'.pc = .waiting → s'.notified = false → s'.handled = s'.pushes) ∧
    s'.disp.out = s'.journal.flatMap Entry.writes ∧
    ∀ s as x p n, (system e).Reachable s →
      ((system e).guard fun s _ => x ∈ s.disp.subscribers n).Run s as s' →
      x ∈ s'.disp.subscribers n →
      ∃ js, s'.journal = s.journal ++ js ∧
        deliveries e (s'.disp.adapters x).serializeFlags p n x js =
          (frames e (s'.disp.adapters x).serializeFlags p n js).map fun resp =>
            ⟨x, (s'.disp.adapters x).serializeFlags, resp, .success, none⟩ := by
  have horder := inOrder_reachable hs'
  refine ⟨horder.fifo, ?_, horder.out, ?_⟩
  · intro hpc hnot
    rw [horder.fifo, horder.batch (by rw [hpc]; nofun), horder.woken hpc hnot, List.append_nil,
      List.append_nil]
  · intro s as x p n hs hrun hx
    obtain ⟨hflags, js, hjs, hdel⟩ := run_delivers hs hrun hx (p := p)
    rw [hflags]
    exact ⟨js, hjs, deliveries_eq hdel⟩

/-- Adapter 0 is registered; adapter 1 is registered and subscribed to `t`. -/
def sampleJoins : List Action :=
  [.accept 0, .accept 1, .put 0 (RequestSerializer.serializeAuth floraVersion "p" 1 0),
    .put 1 (RequestSerializer.serializeAuth floraVersion "s" 2 0),
    .put 1 (RequestSerializer.serializeSubscribe "t"), .loop 0, .handle 0 0, .handle 0 0,
    .handle 0 0, .handle 0 0]

def samplePosts : List Action :=
  [.put 0 (RequestSerializer.serializePost "t" 0 none),
    .put 0 (RequestSerializer.serializePost "t" 0 (some [])), .loop 0, .handle 0 0, .handle 0 0]

def sampleSubscribed : Service := (execute (step Dispatcher.sampleEnv) {} sampleJoins).getD {}

theorem handled_in_order_two_posts :
    ∃ s' js, execute (step Dispatcher.sampleEnv) sampleSubscribed samplePosts = some s' ∧
      s'.pushes = s'.handled ∧ s'.journal = sampleSubscribed.journal ++ js ∧
      deliveries Dispatcher.sampleEnv .host 0 "t" 1 js =
        [⟨1, .host, ResponseSerializer.serializePost "t" 0 none 1 "p", .success, none⟩,
          ⟨1, .host, ResponseSerializer.serializePost "t" 0 (some []) 1 "p", .success, none⟩] := by
  have hjoins : execute (step Dispatcher.sampleEnv) {} sampleJoins = some sampleSubscribed := rfl
  have hposts : execute (fun s a => if 1 ∈ s.disp.subscribers "t" then
    step Dispatcher.sampleEnv s a else none) sampleSubscribed samplePosts = some _ := rfl
  have hs := execute_reachable initial_default hjoins
  have hrun : ((system Dispatcher.sampleEnv).guard fun s _ => 1 ∈ s.disp.subscribers "t").Run
    sampleSubscribed samplePosts _ := execute_guarded_run hposts
  obtain ⟨hfifo, -, -, hdel⟩ := handled_in_order (hs.run hrun.of_guard)
  obtain ⟨js, hjs, hwrites⟩ := hdel sampleSubscribed samplePosts 1 0 "t" hs hrun (by decide)
  refine ⟨_, js, rfl, hfifo, hjs, ?_⟩
  cases List.append_cancel_left (hjs.symm.trans rfl)
  exact hwrites

end Service

end Flora
