import Flora.Agent.Wake
import Flora.Agent.Sync

/-! # Closing an agent

`Agent::close` around the sections that the agent has already: it takes `cg_mutex`, closes the
client, joins its receive thread and its keepalive thread and then the run thread, which
`start(false)` has started. The handlers run on the receive threads, so a receive thread that is in a
handler is not joined. `clean_gabages` takes `cg_mutex` as well and closes and joins all clients. A
`::write` holds the `write_mutex` of its connection, which the close of that connection takes. -/

namespace Flora

open TransitionSystem

/-- The thread that calls `close`: one of the user's, or the receive thread of a client. -/
inductive Closer where
  | user
  | handler (c : Nat)
  deriving DecidableEq, Repr

/-- Where `close` stands after its locked section: at `cg_mutex`, at the client, or at a join. From
`closing` to `joiningKeepalive` it holds `cg_mutex`. -/
inductive ClosePc where
  | locking
  | closing
  | joiningClient (c : Nat)
  | joiningKeepalive (c : Nat)
  | joiningRun
  | returned
  deriving DecidableEq, Repr

def ClosePc.left : ClosePc → Nat
  | .locking => 5
  | .closing => 4
  | .joiningClient _ => 3
  | .joiningKeepalive _ => 2
  | .joiningRun => 1
  | .returned => 0

structure AgentThreads where
  agent : Agent := {}
  /-- The receive threads that are in a handler. -/
  inHandler : Nat → Bool := fun _ => false
  /-- The keepalive threads that have not ended. -/
  keepalive : Nat → Bool := fun _ => false
  /-- The connections that a thread is writing to: one of the user's, or the keepalive thread. -/
  writing : Nat → Bool := fun _ => false
  /-- The call of `close` that has found `working` set. -/
  close : Option (Closer × ClosePc) := none

/-- All clients have been cleaned and no new one is connected. -/
def RunPc.idle : RunPc → Bool
  | .testing | .connecting | .failed | .pausing | .paused | .exited => true
  | _ => false

/-- The run thread has tested `working` and does not wait yet. -/
def RunPc.inWindow : RunPc → Bool
  | .connecting | .authed _ | .initPosts _ _ | .initCalls _ _ | .publishing _ => true
  | _ => false

/-- The steps a thread has left once `working` is false. -/
def RunPc.left : RunPc → Nat
  | .failed => 5
  | .waiting _ | .pausing => 4
  | .woken _ | .paused => 3
  | .cleaning => 2
  | .testing => 1
  | _ => 0

def Receiver.left : Receiver → Nat
  | .reading => 2
  | .reporting => 1
  | .ended => 0

namespace Agent

variable {o : Options} {s s' : Agent} {c : Nat} {act : Action}

/-- The threads around the agent see no difference but where the run thread stands. -/
structure Frame (s s' : Agent) : Prop where
  working : s'.working = s.working
  connected : s'.connected = s.connected
  closing : s'.closing = s.closing
  floraCli : s'.floraCli = s.floraCli
  links : ∀ c, (s'.links c).receiver = (s.links c).receiver ∧
    (s'.links c).closed = (s.links c).closed

namespace Frame

theorem of_links (hworking : s'.working = s.working) (hconn : s'.connected = s.connected)
    (hclosing : s'.closing = s.closing) (hcli : s'.floraCli = s.floraCli)
    (hlinks : s'.links = s.links) : Frame s s' :=
  ⟨hworking, hconn, hclosing, hcli, fun c => by rw [hlinks]; exact ⟨rfl, rfl⟩⟩

theorem setLink (s : Agent) {l : Link} (hreceiver : l.receiver = (s.links c).receiver)
    (hclosed : l.closed = (s.links c).closed) : Frame s (s.setLink c l) where
  working := rfl
  connected := rfl
  closing := rfl
  floraCli := rfl
  links x := ⟨setLink_congr Link.receiver hreceiver x, setLink_congr Link.closed hclosed x⟩

theorem change (s : Agent) (kind : Kind) (keys : List String) (r : Request) (cli : Option Nat) :
    Frame s ((s.setHandlers kind keys).enter r cli) ∧
      ((s.setHandlers kind keys).enter r cli).pc = s.pc := by
  cases kind <;> cases cli <;> exact ⟨of_links rfl rfl rfl rfl rfl, rfl⟩

theorem addHandler (s : Agent) (kind : Kind) (name : String) :
    Frame s (s.addHandler kind name) ∧ (s.addHandler kind name).pc = s.pc := by
  unfold Agent.addHandler
  split
  · exact ⟨of_links rfl rfl rfl rfl rfl, rfl⟩
  · exact change ..

theorem removeHandler (s : Agent) (kind : Kind) (name : String) :
    Frame s (s.removeHandler kind name) ∧ (s.removeHandler kind name).pc = s.pc := by
  unfold Agent.removeHandler
  split
  · exact change ..
  · exact ⟨of_links rfl rfl rfl rfl rfl, rfl⟩

theorem send (o : Options) (s : Agent) (c : Nat) (r : Request) : Frame s (s.send o c r) := by
  obtain heq | ⟨-, -, -, heq⟩ := send_cases o s c r
  · rw [heq]
    exact of_links rfl rfl rfl rfl rfl
  · rw [heq]
    exact setLink s rfl rfl

theorem notify (s : Agent) : Frame s s.notify := by
  rw [notify_eq]
  exact of_links rfl rfl rfl rfl rfl

theorem setPc (h : Frame s s') (pc : RunPc) : Frame s { s' with pc := pc } :=
  ⟨h.working, h.connected, h.closing, h.floraCli, h.links⟩

end Frame

/-- The clients the agent knows of are connected, and the receive thread of one that the run thread
is done with has ended. -/
structure Live (s : Agent) : Prop where
  ended : ∀ c < s.connected, c + 1 < s.connected ∨ s.pc.idle = true →
    (s.links c).receiver = .ended
  current : ∀ c, s.pc.initializing = some c → c < s.connected
  published : ∀ c, s.floraCli = some c → c < s.connected
  closing : ∀ c ∈ s.closing, c < s.connected

theorem Frame.live (h : Frame s s') (hs : Live s) (hidle : s'.pc.idle = true → s.pc.idle = true)
    (hcur : ∀ c, s'.pc.initializing = some c → c < s.connected) : Live s' where
  ended c hc hdone := by
    rw [h.connected] at hc hdone
    rw [(h.links c).1]
    exact hs.ended c hc (hdone.imp_right hidle)
  current c hc := by
    rw [h.connected]
    exact hcur c hc
  published c hc := by
    rw [h.connected]
    exact hs.published c (h.floraCli ▸ hc)
  closing c hc := by
    rw [h.connected]
    exact hs.closing c (h.closing ▸ hc)

theorem Frame.live_pc (h : Frame s s') (hs : Live s) (hpc : s'.pc = s.pc) : Live s' :=
  h.live hs (fun hidle => hpc ▸ hidle) fun c hc => hs.current c (hpc ▸ hc)

theorem notify_idle (s : Agent) : s.notify.pc.idle = s.pc.idle := by
  unfold Agent.notify
  split <;> simp [*, RunPc.idle]

theorem notify_inWindow (s : Agent) : s.notify.pc.inWindow = s.pc.inWindow := by
  unfold Agent.notify
  split <;> simp [*, RunPc.inWindow]

theorem notify_left (s : Agent) : s.notify.pc.left ≤ s.pc.left := by
  unfold Agent.notify
  split <;> simp [*, RunPc.left]

theorem Live.notify (hs : Live s) : Live s.notify := by
  apply (Frame.notify s).live hs
  · rw [notify_idle]
    exact id
  · rw [(notify_pc s).2.1]
    exact hs.current

theorem Live.setPc (hs : Live s) {pc : RunPc} (hidle : pc.idle = true → s.pc.idle = true)
    (hcur : ∀ c, pc.initializing = some c → c < s.connected) : Live { s with pc := pc } :=
  ((Frame.of_links rfl rfl rfl rfl rfl : Frame s s).setPc pc).live hs hidle hcur

/-- A receive thread goes on, and its connection may be closed. -/
theorem Live.setLink (hs : Live s) {l : Link}
    (hl : (s.links c).receiver = .ended → l.receiver = .ended) : Live (s.setLink c l) where
  ended x hx hdone := by
    rw [setLink_links]
    split
    · rename_i heq
      subst heq
      exact hl (hs.ended x hx hdone)
    · exact hs.ended x hx hdone
  current := hs.current
  published := hs.published
  closing := hs.closing

theorem Live.close (hs : Live s) : Live s.close := by
  unfold Agent.close
  split
  · have hn : Live (Agent.notify { s with working := false, missed := true }) :=
      Live.notify ⟨hs.ended, hs.current, hs.published, hs.closing⟩
    have hframe := Frame.notify { s with working := false, missed := true }
    refine ⟨hn.ended, hn.current, by simp, fun c hc => ?_⟩
    have hc : c < s.connected := by
      obtain hc | hc := List.mem_append.mp hc
      · exact hs.closing c hc
      · exact hs.published c (Option.mem_toList.mp hc)
    exact lt_of_lt_of_eq hc hframe.connected.symm
  · exact hs

theorem live_step (hs : Live s) (h : step o s act = some s') : Live s' := by
  cases act with
  | addHandler kind name =>
    cases h
    exact (Frame.addHandler s kind name).1.live_pc hs (Frame.addHandler s kind name).2
  | removeHandler kind name =>
    cases h
    exact (Frame.removeHandler s kind name).1.live_pc hs (Frame.removeHandler s kind name).2
  | request n =>
    obtain ⟨p, -, rfl⟩ := Option.map_eq_some_iff.mp h
    have hcalls : Live { s with calls := s.calls.eraseIdx n } :=
      ⟨hs.ended, hs.current, hs.published, hs.closing⟩
    exact (Frame.send o _ p.2 p.1).live_pc hcalls (send_pc ..)
  | beginPost =>
    obtain ⟨c, -, rfl⟩ := Option.map_eq_some_iff.mp h
    exact ⟨hs.ended, hs.current, hs.published, hs.closing⟩
  | endPost n ok =>
    obtain ⟨c, -, rfl⟩ := Option.map_eq_some_iff.mp h
    exact ⟨hs.ended, hs.current, hs.published, hs.closing⟩
  | destroyClient =>
    obtain ⟨-, rfl⟩ := step_destroyClient h
    have hn := hs.notify
    exact ⟨hn.ended, hn.current, hn.published, hn.closing⟩
  | close =>
    cases h
    exact hs.close
  | closeClient n =>
    obtain ⟨c, -, rfl⟩ := Option.map_eq_some_iff.mp h
    have herase : Live { s with closing := s.closing.eraseIdx n } :=
      ⟨hs.ended, hs.current, hs.published, fun x hx => hs.closing x (List.mem_of_mem_eraseIdx hx)⟩
    exact herase.setLink id
  | test =>
    obtain ⟨hpc, ⟨-, rfl⟩ | ⟨-, rfl⟩⟩ := step_test h
    · have hnext : Live { s with missed := false } :=
        ⟨hs.ended, hs.current, hs.published, hs.closing⟩
      exact hnext.setPc (fun _ => by simp [hpc, RunPc.idle]) (by simp [RunPc.initializing])
    · exact hs.setPc (fun _ => by simp [hpc, RunPc.idle]) (by simp [RunPc.initializing])
  | connect ok =>
    obtain ⟨hpc, ⟨-, rfl⟩ | ⟨-, rfl⟩⟩ := step_connect h
    · have hidle : s.pc.idle = true := by simp [hpc, RunPc.idle]
      refine ⟨fun c _ hdone => ?_, fun c hc => ?_, fun c hc => ?_, fun c hc => ?_⟩
      · have hold : c < s.connected := by simpa [RunPc.idle] using hdone
        exact hs.ended c hold (.inr hidle)
      · have hc : s.connected = c := by simpa [RunPc.initializing] using hc
        exact Nat.lt_succ_of_le hc.ge
      · exact Nat.lt_succ_of_lt (hs.published c hc)
      · exact Nat.lt_succ_of_lt (hs.closing c hc)
    · exact hs.setPc (fun _ => by simp [hpc, RunPc.idle]) (by simp [RunPc.initializing])
  | setCallback =>
    obtain ⟨c, hpc, rfl⟩ := step_setCallback h
    have hset : Live (s.setLink c { s.links c with callback := true }) := hs.setLink id
    exact hset.setPc (by simp [RunPc.idle]) (fun x hx => hs.current x (by rw [hpc]; exact hx))
  | walk name =>
    obtain ⟨c, last, hpc, -, rfl⟩ | ⟨c, last, hpc, -, rfl⟩ := walk_cases h
    · exact ((Frame.send o s c _).setPc _).live hs (by simp [RunPc.idle])
        fun x hx => hs.current x (by rw [hpc]; exact hx)
    · exact ((Frame.send o s c _).setPc _).live hs (by simp [RunPc.idle])
        fun x hx => hs.current x (by rw [hpc]; exact hx)
  | walkEnd =>
    obtain ⟨c, last, hpc, -, rfl⟩ | ⟨c, last, hpc, -, rfl⟩ := walkEnd_cases h
    · exact hs.setPc (by simp [RunPc.idle]) fun x hx => hs.current x (by rw [hpc]; exact hx)
    · exact hs.setPc (by simp [RunPc.idle]) fun x hx => hs.current x (by rw [hpc]; exact hx)
  | publish =>
    obtain ⟨c, hpc, rfl⟩ := step_publish h
    have hcur := hs.current c (by rw [hpc]; rfl)
    have hnext : Live { s with floraCli := some c } :=
      ⟨hs.ended, hs.current, fun x hx => Option.some.inj hx ▸ hcur, hs.closing⟩
    exact hnext.setPc (by simp [RunPc.idle]) (by simp [RunPc.initializing])
  | wake =>
    obtain rfl := step_wake h
    exact hs.notify
  | resume =>
    obtain ⟨c, hpc, rfl⟩ | ⟨hpc, rfl⟩ := step_resume h
    · have hnext : Live { s with floraCli := none } := ⟨hs.ended, hs.current, by simp, hs.closing⟩
      exact hnext.setPc (by simp [RunPc.idle]) (by simp [RunPc.initializing])
    · exact hs.setPc (by simp [RunPc.idle]) (by simp [RunPc.initializing])
  | pause =>
    obtain ⟨hpc, rfl⟩ := step_pause h
    exact hs.setPc (fun _ => by simp [hpc, RunPc.idle]) (by simp [RunPc.initializing])
  | clean =>
    obtain ⟨hpc, -, rfl⟩ := step_clean h
    refine ⟨fun c hc _ => ?_, by simp [Agent.clean, RunPc.initializing], hs.published, hs.closing⟩
    have hc : c < s.connected := hc
    simp [Agent.clean, hc]
  | drop c =>
    obtain ⟨-, hreading, ⟨-, rfl⟩ | rfl⟩ := drop_cases h
    · exact hs.setLink (by simp)
    · exact hs.setLink (by simp [hreading])
  | report c =>
    obtain ⟨-, ⟨-, rfl⟩ | ⟨-, rfl⟩⟩ := report_cases h
    · have hset : Live (s.setLink c { s.links c with receiver := .ended, reported := true }) :=
        hs.setLink (by simp)
      have hn := hset.notify
      exact ⟨hn.ended, hn.current, hn.published, hn.closing⟩
    · exact hs.setLink (by simp)
  | lose c =>
    obtain ⟨-, rfl⟩ := step_lose h
    exact hs.setLink id
  | handle c =>
    obtain ⟨r, rest, -, -, ⟨v, -, rfl⟩ | rfl⟩ := handle_cases h
    · exact hs.setLink id
    · exact hs.setLink id

/-- What a step does to the receive threads. -/
structure Moves (s : Agent) (act : Action) (s' : Agent) : Prop where
  working : act ≠ .close → s'.working = s.working
  connected : s.connected ≤ s'.connected
  closed : ∀ c, (s.links c).closed = true → (s'.links c).closed = true
  shut : ∀ c, (s'.links c).closed = (s.links c).closed ∨ act = .drop c ∨ act = .clean ∨
    ∃ n, act = .closeClient n ∧ s.closing[n]? = some c
  receiver : ∀ c, (s'.links c).receiver = (s.links c).receiver ∨ act = .drop c ∨
    (act = .clean ∧ c < s.connected) ∨ (act = .report c ∧ (s.links c).receiver = .reporting)

theorem Moves.of_links (hworking : s'.working = s.working) (hconn : s.connected ≤ s'.connected)
    (hlinks : s'.links = s.links) : Moves s act s' where
  working _ := hworking
  connected := hconn
  closed c hc := by
    rw [hlinks]
    exact hc
  shut c := .inl (by rw [hlinks])
  receiver c := .inl (by rw [hlinks])

theorem Frame.moves (h : Frame s s') : Moves s act s' where
  working _ := h.working
  connected := h.connected.ge
  closed c hc := (h.links c).2.trans hc
  shut c := .inl (h.links c).2
  receiver c := .inl (h.links c).1

theorem Moves.frame {s'' : Agent} (h : Moves s act s') (hframe : Frame s' s'') :
    Moves s act s'' where
  working hact := hframe.working.trans (h.working hact)
  connected := hframe.connected ▸ h.connected
  closed c hc := (hframe.links c).2.trans (h.closed c hc)
  shut c := by
    rw [(hframe.links c).2]
    exact h.shut c
  receiver c := by
    rw [(hframe.links c).1]
    exact h.receiver c

theorem Moves.setLink (s : Agent) {l : Link} (hclosed : (s.links c).closed = true → l.closed = true)
    (hshut : l.closed = (s.links c).closed ∨ act = .drop c)
    (hact : act = .drop c ∨ act = .report c ∧ (s.links c).receiver = .reporting) :
    Moves s act (s.setLink c l) where
  working _ := rfl
  connected := le_rfl
  closed x hx := by
    rw [setLink_links]
    split
    · rename_i heq
      subst heq
      exact hclosed hx
    · exact hx
  shut x := by
    rw [setLink_links]
    split
    · rename_i heq
      subst heq
      exact hshut.imp_right .inl
    · exact .inl rfl
  receiver x := by
    rw [setLink_links]
    split
    · rename_i heq
      subst heq
      exact .inr (hact.imp_right .inr)
    · exact .inl rfl

theorem step_moves (h : step o s act = some s') : Moves s act s' := by
  cases act with
  | addHandler kind name =>
    cases h
    exact (Frame.addHandler s kind name).1.moves
  | removeHandler kind name =>
    cases h
    exact (Frame.removeHandler s kind name).1.moves
  | request n =>
    obtain ⟨p, -, rfl⟩ := Option.map_eq_some_iff.mp h
    have hframe := Frame.send o { s with calls := s.calls.eraseIdx n } p.2 p.1
    exact Frame.moves ⟨hframe.working, hframe.connected, hframe.closing, hframe.floraCli,
      hframe.links⟩
  | beginPost =>
    obtain ⟨c, -, rfl⟩ := Option.map_eq_some_iff.mp h
    exact .of_links rfl le_rfl rfl
  | endPost n ok =>
    obtain ⟨c, -, rfl⟩ := Option.map_eq_some_iff.mp h
    exact .of_links rfl le_rfl rfl
  | destroyClient =>
    obtain ⟨-, rfl⟩ := step_destroyClient h
    have hframe := Frame.notify s
    exact Frame.moves ⟨hframe.working, hframe.connected, hframe.closing, hframe.floraCli,
      hframe.links⟩
  | close =>
    cases h
    unfold Agent.close
    split
    · have hframe := Frame.notify { s with working := false, missed := true }
      exact ⟨fun hne => absurd rfl hne, hframe.connected.ge,
        fun c hc => (hframe.links c).2.trans hc, fun c => .inl (hframe.links c).2,
        fun c => .inl (hframe.links c).1⟩
    · exact .of_links rfl le_rfl rfl
  | closeClient n =>
    obtain ⟨c, hc, rfl⟩ := Option.map_eq_some_iff.mp h
    refine ⟨fun _ => rfl, le_rfl, fun x hx => ?_, fun x => ?_, fun x => .inl ?_⟩
    · simp only [shut, setLink_links]
      split
      · rfl
      · exact hx
    · by_cases hx : x = c
      · exact .inr (.inr (.inr ⟨n, rfl, hx ▸ hc⟩))
      · exact .inl (by simp [shut, setLink_links, hx])
    · exact setLink_congr (s := { s with closing := s.closing.eraseIdx n }) (c := c)
        (l := { s.links c with up := false, closed := true }) Link.receiver rfl x
  | test =>
    obtain ⟨-, ⟨-, rfl⟩ | ⟨-, rfl⟩⟩ := step_test h <;> exact .of_links rfl le_rfl rfl
  | connect ok =>
    obtain ⟨-, ⟨-, rfl⟩ | ⟨-, rfl⟩⟩ := step_connect h
    · exact .of_links rfl (Nat.le_succ _) rfl
    · exact .of_links rfl le_rfl rfl
  | setCallback =>
    obtain ⟨c, -, rfl⟩ := step_setCallback h
    have hset : Frame s (s.setLink c { s.links c with callback := true }) :=
      Frame.setLink s rfl rfl
    exact (hset.setPc _).moves
  | walk name =>
    obtain ⟨c, last, -, -, rfl⟩ | ⟨c, last, -, -, rfl⟩ := walk_cases h
    · exact ((Frame.send o s c _).setPc _).moves
    · exact ((Frame.send o s c _).setPc _).moves
  | walkEnd =>
    obtain ⟨c, last, -, -, rfl⟩ | ⟨c, last, -, -, rfl⟩ := walkEnd_cases h <;>
      exact .of_links rfl le_rfl rfl
  | publish =>
    obtain ⟨c, -, rfl⟩ := step_publish h
    exact .of_links rfl le_rfl rfl
  | wake =>
    obtain rfl := step_wake h
    exact (Frame.notify s).moves
  | resume =>
    obtain ⟨c, -, rfl⟩ | ⟨-, rfl⟩ := step_resume h <;> exact .of_links rfl le_rfl rfl
  | pause =>
    obtain ⟨-, rfl⟩ := step_pause h
    exact .of_links rfl le_rfl rfl
  | clean =>
    obtain ⟨-, -, rfl⟩ := step_clean h
    refine ⟨fun _ => rfl, le_rfl, fun c hc => ?_, fun _ => .inr (.inr (.inl rfl)), fun c => ?_⟩
    · simp only [Agent.clean]
      split
      · rfl
      · exact hc
    · by_cases hlt : c < s.connected
      · exact .inr (.inr (.inl ⟨rfl, hlt⟩))
      · exact .inl (by simp [Agent.clean, hlt])
  | drop c =>
    obtain ⟨-, -, ⟨-, rfl⟩ | rfl⟩ := drop_cases h
    · exact .setLink s id (.inr rfl) (.inl rfl)
    · exact .setLink s (fun _ => rfl) (.inr rfl) (.inl rfl)
  | report c =>
    obtain ⟨hrep, ⟨-, rfl⟩ | ⟨-, rfl⟩⟩ := report_cases h
    · have hset : Moves s (.report c)
          (s.setLink c { s.links c with receiver := .ended, reported := true }) :=
        .setLink s id (.inl rfl) (.inr ⟨rfl, hrep⟩)
      have hnotified := hset.frame (Frame.notify _)
      exact ⟨hnotified.working, hnotified.connected, hnotified.closed, hnotified.shut,
        hnotified.receiver⟩
    · exact .setLink s id (.inl rfl) (.inr ⟨rfl, hrep⟩)
  | lose c =>
    obtain ⟨-, rfl⟩ := step_lose h
    have hset : Frame s (s.setLink c { s.links c with up := false }) := Frame.setLink s rfl rfl
    exact hset.moves
  | handle c =>
    obtain ⟨r, rest, -, -, ⟨v, -, rfl⟩ | rfl⟩ := handle_cases h
    · have hset : Frame s (s.setLink c { s.links c with requests := rest, view := v }) :=
        Frame.setLink s rfl rfl
      exact hset.moves
    · have hset : Frame s (s.setLink c { s.links c with requests := rest, up := false }) :=
        Frame.setLink s rfl rfl
      exact hset.moves

/-- The receive thread of a client comes to its end on a closed connection only. -/
def Shut (s : Agent) : Prop := ∀ c, (s.links c).receiver ≠ .reading → (s.links c).closed = true

theorem shut_step (hs : Shut s) (h : step o s act = some s') : Shut s' := by
  intro c hc
  have hmoves := step_moves h
  obtain hsame | rfl | ⟨rfl, hlt⟩ | ⟨rfl, hrep⟩ := hmoves.receiver c
  · exact hmoves.closed c (hs c (hsame ▸ hc))
  · obtain ⟨-, -, ⟨hclosed, -⟩ | rfl⟩ := drop_cases h
    · exact hmoves.closed c hclosed
    · rw [setLink_links, if_pos rfl]
  · obtain ⟨-, -, rfl⟩ := step_clean h
    simp [Agent.clean, hlt]
  · exact hmoves.closed c (hs c (by simp [hrep]))

/-- A round of the run thread begins with `connect` and ends with `clean_gabages`. -/
structure Rounds (s : Agent) (act : Action) (s' : Agent) : Prop where
  connected : act ≠ .connect true → s'.connected = s.connected
  begun : act = .connect true →
    s.pc.idle = true ∧ s'.pc.idle = false ∧ s'.connected = s.connected + 1
  idle : s'.pc.idle = true → s.pc.idle = true ∨ act = .clean

theorem step_rounds (h : step o s act = some s') : Rounds s act s' := by
  have hkeep (hact : act ≠ .connect true) (hconn : s'.connected = s.connected)
      (hidle : s'.pc.idle = true → s.pc.idle = true ∨ act = .clean) : Rounds s act s' :=
    ⟨fun _ => hconn, fun heq => absurd heq hact, hidle⟩
  cases act with
  | addHandler kind name =>
    cases h
    obtain ⟨hframe, hpc⟩ := Frame.addHandler s kind name
    exact hkeep nofun hframe.connected fun hidle => .inl (hpc ▸ hidle)
  | removeHandler kind name =>
    cases h
    obtain ⟨hframe, hpc⟩ := Frame.removeHandler s kind name
    exact hkeep nofun hframe.connected fun hidle => .inl (hpc ▸ hidle)
  | request n =>
    obtain ⟨p, -, rfl⟩ := Option.map_eq_some_iff.mp h
    have hframe := Frame.send o { s with calls := s.calls.eraseIdx n } p.2 p.1
    exact hkeep nofun hframe.connected fun hidle => .inl (by rw [send_pc] at hidle; exact hidle)
  | beginPost =>
    obtain ⟨c, -, rfl⟩ := Option.map_eq_some_iff.mp h
    exact hkeep nofun rfl .inl
  | endPost n ok =>
    obtain ⟨c, -, rfl⟩ := Option.map_eq_some_iff.mp h
    exact hkeep nofun rfl .inl
  | destroyClient =>
    obtain ⟨-, rfl⟩ := step_destroyClient h
    exact hkeep nofun (Frame.notify s).connected fun hidle => .inl (notify_idle s ▸ hidle)
  | close =>
    cases h
    unfold Agent.close
    split
    · have hframe := Frame.notify { s with working := false, missed := true }
      have hpc := notify_idle { s with working := false, missed := true }
      exact ⟨fun _ => hframe.connected, nofun, fun hidle => .inl (hpc ▸ hidle)⟩
    · exact ⟨fun _ => rfl, nofun, .inl⟩
  | closeClient n =>
    obtain ⟨c, -, rfl⟩ := Option.map_eq_some_iff.mp h
    exact hkeep nofun rfl .inl
  | test =>
    obtain ⟨hpc, ⟨-, rfl⟩ | ⟨-, rfl⟩⟩ := step_test h <;>
      exact hkeep nofun rfl fun _ => .inl (by rw [hpc]; rfl)
  | connect ok =>
    obtain ⟨hpc, ⟨rfl, rfl⟩ | ⟨rfl, rfl⟩⟩ := step_connect h
    · exact ⟨fun hne => absurd rfl hne, fun _ => ⟨by rw [hpc]; rfl, rfl, rfl⟩, nofun⟩
    · exact hkeep nofun rfl fun _ => .inl (by rw [hpc]; rfl)
  | setCallback =>
    obtain ⟨c, -, rfl⟩ := step_setCallback h
    exact hkeep nofun rfl nofun
  | walk name =>
    obtain ⟨c, last, -, -, rfl⟩ | ⟨c, last, -, -, rfl⟩ := walk_cases h
    · exact hkeep nofun (Frame.send o s c _).connected nofun
    · exact hkeep nofun (Frame.send o s c _).connected nofun
  | walkEnd =>
    obtain ⟨c, last, -, -, rfl⟩ | ⟨c, last, -, -, rfl⟩ := walkEnd_cases h <;>
      exact hkeep nofun rfl nofun
  | publish =>
    obtain ⟨c, -, rfl⟩ := step_publish h
    exact hkeep nofun rfl nofun
  | wake =>
    obtain rfl := step_wake h
    exact hkeep nofun (Frame.notify s).connected fun hidle => .inl (notify_idle s ▸ hidle)
  | resume =>
    obtain ⟨c, -, rfl⟩ | ⟨-, rfl⟩ := step_resume h <;> exact hkeep nofun rfl nofun
  | pause =>
    obtain ⟨hpc, rfl⟩ := step_pause h
    exact hkeep nofun rfl fun _ => .inl (by rw [hpc]; rfl)
  | clean =>
    obtain ⟨-, -, rfl⟩ := step_clean h
    exact hkeep nofun rfl fun _ => .inr rfl
  | drop c =>
    obtain ⟨-, -, ⟨-, rfl⟩ | rfl⟩ := drop_cases h <;> exact hkeep nofun rfl .inl
  | report c =>
    obtain ⟨-, ⟨-, rfl⟩ | ⟨-, rfl⟩⟩ := report_cases h
    · have hpc := notify_idle (s.setLink c { s.links c with receiver := .ended, reported := true })
      exact hkeep nofun (Frame.notify _).connected fun hidle => .inl (hpc ▸ hidle)
    · exact hkeep nofun rfl .inl
  | lose c =>
    obtain ⟨-, rfl⟩ := step_lose h
    exact hkeep nofun rfl .inl
  | handle c =>
    obtain ⟨r, rest, -, -, ⟨v, -, rfl⟩ | rfl⟩ := handle_cases h <;> exact hkeep nofun rfl .inl

end Agent

namespace AgentThreads

inductive Action where
  | agent (a : Agent.Action)
  /-- `recv_post` or `recv_call` finds a handler. -/
  | enter (c : Nat) (kind : Kind) (name : String)
  | leave (c : Nat)
  /-- A thread comes to the `::write` of a send; `written` is its return. -/
  | write (c : Nat)
  | written (c : Nat)
  /-- The keepalive thread finds the connection closed. -/
  | endKeepalive (c : Nat)
  | close (w : Closer)
  | closer

variable (o : Options) (t : AgentThreads)

def cgLocked : Bool :=
  match t.close with
  | some (_, .closing) | some (_, .joiningClient _) | some (_, .joiningKeepalive _) => true
  | _ => false

/-- `FLORA_CLI_EDEADLOCK` has handed the client to a detached thread. -/
def detached : Bool :=
  match t.close with
  | some (.handler _, .joiningRun) | some (.handler _, .returned) => true
  | _ => false

/-- `close` runs on the receive thread of `c`. -/
def closedBy (c : Nat) : Bool :=
  match t.close with
  | some (_, .returned) => false
  | some (w, _) => w = .handler c
  | none => false

/-- What the threads let the agent do. `connection->close()` waits for a `::write`, and so does the
test in `SocketConn::recv`. -/
def allows : Agent.Action → Bool
  | .close => false
  | .closeClient n => t.detached && (t.agent.closing[n]?).all fun c => !t.writing c
  | .clean =>
    !t.cgLocked && (List.range t.agent.connected).all fun c => !t.inHandler c && !t.writing c
  | .drop c => !t.inHandler c && !t.writing c
  | _ => true

/-- `connect` has started a keepalive thread, and `clean_gabages` has joined those there were. -/
def keepaliveAfter : Agent.Action → Nat → Bool
  | .connect true => Function.update t.keepalive t.agent.connected true
  | .clean => fun c => t.keepalive c && decide (t.agent.connected ≤ c)
  | _ => t.keepalive

/-- A receive thread calls `close` from a handler only. -/
def mayClose : Closer → Bool
  | .user => true
  | .handler c => t.inHandler c

def closerStep : Option AgentThreads :=
  match t.close with
  | some (w, .locking) => some { t with close := some (w, .closing) }
  | some (w, .closing) =>
    match t.agent.closing with
    | [] => some { t with close := some (w, .joiningRun) }
    | c :: _ =>
      if w = .handler c then some { t with close := some (w, .joiningRun) }
      else if t.writing c then none
      else (Agent.step o t.agent (.closeClient 0)).map fun s =>
        { t with agent := s, close := some (w, .joiningClient c) }
  | some (w, .joiningClient c) =>
    if (t.agent.links c).receiver = .ended then some { t with close := some (w, .joiningKeepalive c) }
    else none
  | some (w, .joiningKeepalive c) =>
    if t.keepalive c then none else some { t with close := some (w, .joiningRun) }
  | some (w, .joiningRun) =>
    if t.agent.pc = .exited then some { t with close := some (w, .returned) } else none
  | _ => none

def step : Action → Option AgentThreads
  | .agent a =>
    if t.allows a then
      (Agent.step o t.agent a).map fun s => { t with agent := s, keepalive := t.keepaliveAfter a }
    else none
  | .enter c kind name =>
    if c < t.agent.connected ∧ (t.agent.links c).receiver = .reading ∧
        (t.agent.links c).callback = true ∧ name ∈ t.agent.handlers kind ∧
        t.inHandler c = false then
      some { t with inHandler := Function.update t.inHandler c true }
    else none
  | .leave c =>
    if t.inHandler c = true ∧ t.closedBy c = false then
      some { t with inHandler := Function.update t.inHandler c false }
    else none
  | .write c =>
    if c < t.agent.connected ∧ (t.agent.links c).closed = false ∧ t.writing c = false then
      some { t with writing := Function.update t.writing c true }
    else none
  | .written c =>
    if t.writing c then some { t with writing := Function.update t.writing c false } else none
  | .endKeepalive c =>
    if t.keepalive c ∧ (t.agent.links c).closed then
      some { t with keepalive := Function.update t.keepalive c false }
    else none
  | .close w =>
    if t.agent.working ∧ t.mayClose w then
      some { t with agent := t.agent.close, close := some (w, .locking) }
    else none
  | .closer => t.closerStep o

def Initial : Prop := t = {}

def system : System AgentThreads Action := System.ofStep Initial (step o)

variable {o : Options} {t t' : AgentThreads}

theorem step_agent {a : Agent.Action} (h : step o t (.agent a) = some t') :
    t.allows a = true ∧ ∃ s, Agent.step o t.agent a = some s ∧
      t' = { t with agent := s, keepalive := t.keepaliveAfter a } := by
  simp only [step, Option.ite_none_right_eq_some] at h
  obtain ⟨s, hs, rfl⟩ := Option.map_eq_some_iff.mp h.2
  exact ⟨h.1, s, hs, rfl⟩

theorem step_enter {c : Nat} {kind : Kind} {name : String}
    (h : step o t (.enter c kind name) = some t') :
    c < t.agent.connected ∧ (t.agent.links c).receiver = .reading ∧
      t' = { t with inHandler := Function.update t.inHandler c true } := by
  simp only [step, Option.ite_none_right_eq_some, Option.some.injEq] at h
  exact ⟨h.1.1, h.1.2.1, h.2.symm⟩

theorem step_leave {c : Nat} (h : step o t (.leave c) = some t') :
    t.closedBy c = false ∧ t' = { t with inHandler := Function.update t.inHandler c false } := by
  simp only [step, Option.ite_none_right_eq_some, Option.some.injEq] at h
  exact ⟨h.1.2, h.2.symm⟩

theorem step_write {c : Nat} (h : step o t (.write c) = some t') :
    c < t.agent.connected ∧ (t.agent.links c).closed = false ∧
      t' = { t with writing := Function.update t.writing c true } := by
  simp only [step, Option.ite_none_right_eq_some, Option.some.injEq] at h
  exact ⟨h.1.1, h.1.2.1, h.2.symm⟩

theorem step_written {c : Nat} (h : step o t (.written c) = some t') :
    t' = { t with writing := Function.update t.writing c false } := by
  simp only [step, Option.ite_none_right_eq_some, Option.some.injEq] at h
  exact h.2.symm

theorem step_endKeepalive {c : Nat} (h : step o t (.endKeepalive c) = some t') :
    t' = { t with keepalive := Function.update t.keepalive c false } := by
  simp only [step, Option.ite_none_right_eq_some, Option.some.injEq] at h
  exact h.2.symm

theorem step_close {w : Closer} (h : step o t (.close w) = some t') :
    t.agent.working = true ∧ t.mayClose w = true ∧
      t' = { t with agent := t.agent.close, close := some (w, .locking) } := by
  simp only [step, Option.ite_none_right_eq_some, Option.some.injEq] at h
  exact ⟨h.1.1, h.1.2, h.2.symm⟩

/-- The next step of the thread in `close`. -/
theorem step_closer (h : step o t .closer = some t') : ∃ w,
    (t.close = some (w, .locking) ∧ t' = { t with close := some (w, .closing) }) ∨
    (t.close = some (w, .closing) ∧
      (t.agent.closing = [] ∨ ∃ c rest, t.agent.closing = c :: rest ∧ w = .handler c) ∧
      t' = { t with close := some (w, .joiningRun) }) ∨
    (∃ c rest s, t.close = some (w, .closing) ∧ t.agent.closing = c :: rest ∧ w ≠ .handler c ∧
      t.writing c = false ∧ Agent.step o t.agent (.closeClient 0) = some s ∧
      t' = { t with agent := s, close := some (w, .joiningClient c) }) ∨
    (∃ c, t.close = some (w, .joiningClient c) ∧ (t.agent.links c).receiver = .ended ∧
      t' = { t with close := some (w, .joiningKeepalive c) }) ∨
    (∃ c, t.close = some (w, .joiningKeepalive c) ∧ t.keepalive c = false ∧
      t' = { t with close := some (w, .joiningRun) }) ∨
    (t.close = some (w, .joiningRun) ∧ t.agent.pc = .exited ∧
      t' = { t with close := some (w, .returned) }) := by
  have h : t.closerStep o = some t' := h
  unfold closerStep at h
  split at h
  · rename_i w hclose
    cases h
    exact ⟨w, .inl ⟨hclose, rfl⟩⟩
  · rename_i w hclose
    split at h
    · rename_i hclosing
      cases h
      exact ⟨w, .inr (.inl ⟨hclose, .inl hclosing, rfl⟩)⟩
    · rename_i c rest hclosing
      split at h
      · rename_i hw
        cases h
        exact ⟨w, .inr (.inl ⟨hclose, .inr ⟨c, rest, hclosing, hw⟩, rfl⟩)⟩
      · rename_i hw
        rw [Option.ite_none_left_eq_some] at h
        obtain ⟨hfree, h⟩ := h
        obtain ⟨s, hs, rfl⟩ := Option.map_eq_some_iff.mp h
        exact ⟨w, .inr (.inr (.inl
          ⟨c, rest, s, hclose, hclosing, hw, Bool.eq_false_iff.mpr hfree, hs, rfl⟩))⟩
  · rename_i w c hclose
    simp only [Option.ite_none_right_eq_some, Option.some.injEq] at h
    exact ⟨w, .inr (.inr (.inr (.inl ⟨c, hclose, h.1, h.2.symm⟩)))⟩
  · rename_i w c hclose
    simp only [Option.ite_none_left_eq_some, Option.some.injEq] at h
    exact ⟨w, .inr (.inr (.inr (.inr (.inl ⟨c, hclose, Bool.eq_false_iff.mpr h.1, h.2.symm⟩))))⟩
  · rename_i w hclose
    simp only [Option.ite_none_right_eq_some, Option.some.injEq] at h
    exact ⟨w, .inr (.inr (.inr (.inr (.inr ⟨hclose, h.1, h.2.symm⟩))))⟩
  · cases h

/-- The client that `close` joins the threads of. -/
def joined (t : AgentThreads) : Option Nat :=
  match t.close with
  | some (_, .joiningClient c) | some (_, .joiningKeepalive c) => some c
  | _ => none

structure Placed (t : AgentThreads) : Prop where
  live : t.agent.Live
  shut : t.agent.Shut
  /-- A connection is not closed under a `::write`. -/
  writing : ∀ c, t.writing c = true →
    c < t.agent.connected ∧ (t.agent.links c).closed = false
  keepalive : ∀ c, t.keepalive c = true →
    c + 1 = t.agent.connected ∧ t.agent.pc.idle = false
  reading : ∀ c, t.inHandler c = true →
    c < t.agent.connected ∧ (t.agent.links c).receiver = .reading
  inside : ∀ c, t.closedBy c = true → t.inHandler c = true
  stopped : t.close ≠ none → t.agent.working = false
  joining : ∀ c, t.joined = some c → c < t.agent.connected ∧ (t.agent.links c).closed = true

theorem closedBy_iff {c : Nat} : t.closedBy c = true ↔
    ∃ pc, t.close = some (.handler c, pc) ∧ pc ≠ .returned := by
  unfold closedBy
  split
  · rename_i w hclose
    simp [hclose]
  · rename_i w pc hne hclose
    simp only [decide_eq_true_eq, hclose, Option.some.injEq, Prod.mk.injEq]
    constructor
    · rintro rfl
      exact ⟨pc, ⟨rfl, rfl⟩, fun hpc => hne (hpc ▸ rfl)⟩
    · rintro ⟨_, ⟨rfl, -⟩, -⟩
      rfl
  · rename_i hclose
    simp [hclose]

/-- What the agent does around a `::write` leaves that connection open. -/
theorem Placed.open_step {a : Agent.Action} {s : Agent} (hp : Placed t)
    (hs : Agent.step o t.agent a = some s) {c : Nat} (hc : t.writing c = true)
    (hdrop : a ≠ .drop c) (hclean : a ≠ .clean)
    (hclose : ∀ n, a = .closeClient n → t.agent.closing[n]? ≠ some c) :
    c < s.connected ∧ (s.links c).closed = false := by
  have hmoves := Agent.step_moves hs
  obtain ⟨hlt, hopen⟩ := hp.writing c hc
  refine ⟨lt_of_lt_of_le hlt hmoves.connected, ?_⟩
  obtain hsame | heq | heq | ⟨n, heq, hn⟩ := hmoves.shut c
  · exact hsame.trans hopen
  · exact absurd heq hdrop
  · exact absurd heq hclean
  · exact absurd hn (hclose n heq)

theorem writing_agent {a : Agent.Action} {s : Agent} (hp : Placed t) (hallows : t.allows a = true)
    (hs : Agent.step o t.agent a = some s) {c : Nat} (hc : t.writing c = true) :
    c < s.connected ∧ (s.links c).closed = false := by
  refine hp.open_step hs hc ?_ ?_ ?_
  · rintro rfl
    simp [allows, hc] at hallows
  · rintro rfl
    simp only [allows, Bool.and_eq_true, List.all_eq_true, List.mem_range] at hallows
    exact absurd (hallows.2 c (hp.writing c hc).1).2 (by simp [hc])
  · rintro n rfl hn
    simp [allows, hn, hc] at hallows

theorem keepalive_agent {a : Agent.Action} {s : Agent} (hp : Placed t)
    (hs : Agent.step o t.agent a = some s) {c : Nat} (hc : t.keepaliveAfter a c = true) :
    c + 1 = s.connected ∧ s.pc.idle = false := by
  have hrounds := Agent.step_rounds hs
  have hold (hconnect : a ≠ .connect true) (hclean : a ≠ .clean) (hc : t.keepalive c = true) :
      c + 1 = s.connected ∧ s.pc.idle = false := by
    obtain ⟨hlast, hbusy⟩ := hp.keepalive c hc
    refine ⟨hlast.trans (hrounds.connected hconnect).symm, Bool.eq_false_iff.mpr fun hidle => ?_⟩
    obtain hidle | heq := hrounds.idle hidle
    · exact absurd hidle (by simp [hbusy])
    · exact hclean heq
  unfold keepaliveAfter at hc
  split at hc
  · obtain ⟨hidle, hbusy, hconn⟩ := hrounds.begun rfl
    by_cases hcc : c = t.agent.connected
    · exact ⟨by omega, hbusy⟩
    · rw [Function.update_of_ne hcc] at hc
      exact absurd (hp.keepalive c hc).2 (by simp [hidle])
  · rw [Bool.and_eq_true, decide_eq_true_eq] at hc
    have hlast := (hp.keepalive c hc.1).1
    omega
  · rename_i hconnect hclean
    exact hold hconnect hclean hc

theorem placed_agent {a : Agent.Action} (hp : Placed t) (h : step o t (.agent a) = some t') :
    Placed t' := by
  obtain ⟨hallows, s, hs, rfl⟩ := step_agent h
  have hmoves := Agent.step_moves hs
  refine ⟨Agent.live_step hp.live hs, Agent.shut_step hp.shut hs,
    fun c hc => writing_agent hp hallows hs hc, fun c hc => keepalive_agent hp hs hc,
    fun c hc => ?_, hp.inside, fun hclose => ?_, fun c hc => ?_⟩
  · have hinside : t.inHandler c = true := hc
    obtain ⟨hlt, hreading⟩ := hp.reading c hc
    refine ⟨lt_of_lt_of_le hlt hmoves.connected, ?_⟩
    obtain hsame | rfl | ⟨rfl, -⟩ | ⟨-, hrep⟩ := hmoves.receiver c
    · exact hsame.trans hreading
    · simp [allows, hinside] at hallows
    · simp only [allows, Bool.and_eq_true, List.all_eq_true, List.mem_range] at hallows
      exact absurd (hallows.2 c hlt).1 (by simp [hinside])
    · exact absurd (hreading.symm.trans hrep) (by simp)
  · have hne : a ≠ .close := by
      rintro rfl
      cases hallows
    exact (hmoves.working hne).trans (hp.stopped hclose)
  · obtain ⟨hlt, hclosed⟩ := hp.joining c hc
    exact ⟨lt_of_lt_of_le hlt hmoves.connected, hmoves.closed c hclosed⟩

theorem Placed.setClose (hp : Placed t) {w : Closer} {pc pc' : ClosePc}
    (hclose : t.close = some (w, pc)) (hpc : pc ≠ .returned)
    (hjoin : ∀ c, joined { t with close := some (w, pc') } = some c →
      c < t.agent.connected ∧ (t.agent.links c).closed = true) :
    Placed { t with close := some (w, pc') } where
  live := hp.live
  shut := hp.shut
  writing := hp.writing
  keepalive := hp.keepalive
  reading := hp.reading
  inside c hc := by
    obtain ⟨_, heq, -⟩ := closedBy_iff.mp hc
    cases heq
    exact hp.inside c (closedBy_iff.mpr ⟨pc, hclose, hpc⟩)
  stopped _ := hp.stopped (by simp [hclose])
  joining := hjoin

theorem placed_closer (hp : Placed t) (h : step o t .closer = some t') : Placed t' := by
  obtain ⟨w, ⟨hclose, rfl⟩ | ⟨hclose, -, rfl⟩ | ⟨c, rest, s, hclose, hclosing, -, hfree, hs, rfl⟩ |
    ⟨c, hclose, -, rfl⟩ | ⟨c, hclose, -, rfl⟩ | ⟨hclose, -, rfl⟩⟩ := step_closer h
  · exact hp.setClose hclose (by simp) fun c hc => by cases hc
  · exact hp.setClose hclose (by simp) fun c hc => by cases hc
  · have hmoves := Agent.step_moves hs
    have hlt := hp.live.closing c (by simp [hclosing])
    have hshut : (s.links c).closed = true := by
      simp only [Agent.step, hclosing, List.getElem?_cons_zero, Option.map_some,
        Option.some.injEq] at hs
      rw [← hs, Agent.shut, Agent.setLink_links, if_pos rfl]
    have hagent : Placed { t with agent := s } := by
      refine ⟨Agent.live_step hp.live hs, Agent.shut_step hp.shut hs, fun x hx => ?_,
        fun x hx => keepalive_agent hp hs hx, fun x hx => ?_, hp.inside, fun hne => ?_,
        fun x hx => ?_⟩
      · refine hp.open_step hs hx (by simp) (by simp) ?_
        rintro n ⟨⟩ hn
        rw [hclosing, List.getElem?_cons_zero, Option.some.injEq] at hn
        exact absurd (hn ▸ hfree) (by simp [show t.writing x = true from hx])
      · obtain ⟨hlt', hreading⟩ := hp.reading x hx
        refine ⟨lt_of_lt_of_le hlt' hmoves.connected, ?_⟩
        obtain hsame | hdrop | ⟨hclean, -⟩ | ⟨hrep, -⟩ := hmoves.receiver x
        · exact hsame.trans hreading
        · cases hdrop
        · cases hclean
        · cases hrep
      · exact (hmoves.working (by simp)).trans (hp.stopped hne)
      · simp [joined, hclose] at hx
    refine hagent.setClose hclose (by simp) ?_
    rintro _ ⟨⟩
    exact ⟨lt_of_lt_of_le hlt hmoves.connected, hshut⟩
  · refine hp.setClose hclose (by simp) ?_
    rintro _ ⟨⟩
    exact hp.joining c (by simp [joined, hclose])
  · exact hp.setClose hclose (by simp) fun c hc => by cases hc
  · exact hp.setClose hclose (by simp) fun c hc => by cases hc

theorem placed_step {act : Action} (hp : Placed t) (h : step o t act = some t') : Placed t' := by
  cases act with
  | agent a => exact placed_agent hp h
  | enter c kind name =>
    obtain ⟨hlt, hreading, rfl⟩ := step_enter h
    refine ⟨hp.live, hp.shut, hp.writing, hp.keepalive, fun x hx => ?_, fun x hx => ?_, hp.stopped,
      hp.joining⟩
    · by_cases hxc : x = c
      · subst hxc
        exact ⟨hlt, hreading⟩
      · exact hp.reading x (by simpa [Function.update_of_ne hxc] using hx)
    · by_cases hxc : x = c
      · simp [hxc]
      · simpa [Function.update_of_ne hxc] using hp.inside x hx
  | leave c =>
    obtain ⟨hfree, rfl⟩ := step_leave h
    refine ⟨hp.live, hp.shut, hp.writing, hp.keepalive, fun x hx => ?_, fun x hx => ?_, hp.stopped,
      hp.joining⟩
    · by_cases hxc : x = c
      · simp [hxc] at hx
      · exact hp.reading x (by simpa [Function.update_of_ne hxc] using hx)
    · have hxc : x ≠ c := by
        rintro rfl
        exact absurd (hfree.symm.trans hx) (by simp)
      simpa [Function.update_of_ne hxc] using hp.inside x hx
  | write c =>
    obtain ⟨hlt, hopen, rfl⟩ := step_write h
    refine ⟨hp.live, hp.shut, fun x hx => ?_, hp.keepalive, hp.reading, hp.inside, hp.stopped,
      hp.joining⟩
    by_cases hxc : x = c
    · subst hxc
      exact ⟨hlt, hopen⟩
    · exact hp.writing x (by simpa [Function.update_of_ne hxc] using hx)
  | written c =>
    obtain rfl := step_written h
    refine ⟨hp.live, hp.shut, fun x hx => ?_, hp.keepalive, hp.reading, hp.inside, hp.stopped,
      hp.joining⟩
    by_cases hxc : x = c
    · simp [hxc] at hx
    · exact hp.writing x (by simpa [Function.update_of_ne hxc] using hx)
  | endKeepalive c =>
    obtain rfl := step_endKeepalive h
    refine ⟨hp.live, hp.shut, hp.writing, fun x hx => ?_, hp.reading, hp.inside, hp.stopped,
      hp.joining⟩
    by_cases hxc : x = c
    · simp [hxc] at hx
    · exact hp.keepalive x (by simpa [Function.update_of_ne hxc] using hx)
  | close w =>
    obtain ⟨hworking, hmay, rfl⟩ := step_close h
    have hs : Agent.step o t.agent .close = some t.agent.close := rfl
    have hmoves := Agent.step_moves hs
    refine ⟨Agent.live_step hp.live hs, Agent.shut_step hp.shut hs,
      fun x hx => hp.open_step hs hx nofun nofun nofun, fun x hx => keepalive_agent hp hs hx,
      fun x hx => ?_, fun x hx => ?_, fun _ => ?_, nofun⟩
    · obtain ⟨hlt, hreading⟩ := hp.reading x hx
      refine ⟨lt_of_lt_of_le hlt hmoves.connected, ?_⟩
      obtain hsame | hdrop | ⟨hclean, -⟩ | ⟨hrep, -⟩ := hmoves.receiver x
      · exact hsame.trans hreading
      · cases hdrop
      · cases hclean
      · cases hrep
    · obtain ⟨_, heq, -⟩ := closedBy_iff.mp hx
      cases heq
      exact hmay
    · have hframe := Agent.Frame.notify { t.agent with working := false, missed := true }
      simpa [Agent.close, hworking] using hframe.working
  | closer => exact placed_closer hp h

theorem placed_reachable (h : (system o).Reachable t) : Placed t := by
  apply h.invariant
  · rintro s rfl
    have hlive : Agent.Live {} := ⟨by simp, by simp [RunPc.initializing], by simp, by simp⟩
    refine ⟨hlive, fun c hc => absurd rfl hc, by simp, by simp, by simp, by simp [closedBy],
      by simp, by simp [joined]⟩
  · exact fun s act r hs hst => placed_step hs hst

/-- A `close` on the receive thread of `c` waits for the run thread, which waits for this thread. -/
theorem closedBy_step {act : Action} {c : Nat} (hp : Placed t) (hc : t.closedBy c = true)
    (h : step o t act = some t') : t'.closedBy c = true := by
  obtain ⟨pc, hclose, hpc⟩ := closedBy_iff.mp hc
  cases act with
  | agent a =>
    obtain ⟨-, s, -, rfl⟩ := step_agent h
    exact hc
  | enter x kind name =>
    obtain ⟨-, -, rfl⟩ := step_enter h
    exact hc
  | leave x =>
    obtain ⟨-, rfl⟩ := step_leave h
    exact hc
  | write x =>
    obtain ⟨-, -, rfl⟩ := step_write h
    exact hc
  | written x =>
    obtain rfl := step_written h
    exact hc
  | endKeepalive x =>
    obtain rfl := step_endKeepalive h
    exact hc
  | close w =>
    obtain ⟨hworking, -, -⟩ := step_close h
    have hstopped := hp.stopped (by simp [hclose])
    exact absurd (hworking.symm.trans hstopped) (by simp)
  | closer =>
    apply closedBy_iff.mpr
    obtain ⟨w, ⟨hclose', rfl⟩ | ⟨hclose', -, rfl⟩ | ⟨x, rest, s, hclose', -, -, -, -, rfl⟩ |
      ⟨x, hclose', -, rfl⟩ | ⟨x, hclose', -, rfl⟩ | ⟨hclose', hexited, rfl⟩⟩ := step_closer h <;>
      cases hclose.symm.trans hclose'
    · exact ⟨_, rfl, by simp⟩
    · exact ⟨_, rfl, by simp⟩
    · exact ⟨_, rfl, by simp⟩
    · exact ⟨_, rfl, by simp⟩
    · exact ⟨_, rfl, by simp⟩
    · obtain ⟨hlt, hreading⟩ := hp.reading c (hp.inside c hc)
      have hended := hp.live.ended c hlt (.inr (by rw [hexited]; rfl))
      exact absurd (hreading.symm.trans hended) (by simp)

theorem closedBy_run {as : List Action} {c : Nat} (hp : Placed t) (hc : t.closedBy c = true)
    (h : (system o).Run t as t') : t'.closedBy c = true := by
  have hrun := h.invariant (P := fun t => Placed t ∧ t.closedBy c = true) ⟨hp, hc⟩
    (fun s act r hs hst => ⟨placed_step hs.1 hst, closedBy_step hs.1 hs.2 hst⟩)
  exact hrun.2

/-- The steps that the threads of the agent take by themselves: nothing is lost, no user acts, and
only a timed wait ends without a notification. Handlers and writes return. -/
def Own (t : AgentThreads) : Action → Prop
  | .closer | .leave _ | .written _ | .endKeepalive _ => True
  | .agent (.drop c) => (t.agent.links c).closed = true
  | .agent .wake => t.agent.pc = .pausing
  | .agent (.report _) | .agent .destroyClient => True
  | .agent .test | .agent .resume | .agent .pause | .agent .clean => True
  | _ => False

/-- A call of `close` on a thread of the user, and a run thread that is not between its test of
`working` and its wait, and does not sleep through its wake-up. -/
structure Ready (t : AgentThreads) : Prop where
  placed : Placed t
  heard : t.agent.Heard
  awake : t.agent.Awake
  close : ∃ pc, t.close = some (.user, pc)
  outside : t.agent.pc.inWindow = false

/-- Only the client connected last can have a receive thread that goes on. -/
def left (t : AgentThreads) : Nat :=
  (t.close.map (·.2.left)).getD 0 + t.agent.pc.left +
    (if t.inHandler (t.agent.connected - 1) then 1 else 0) +
    (if t.keepalive (t.agent.connected - 1) then 1 else 0) +
    (if t.writing (t.agent.connected - 1) then 1 else 0) +
    (t.agent.links (t.agent.connected - 1)).receiver.left

theorem Placed.last (hp : Placed t) {c : Nat} (hlt : c < t.agent.connected)
    (hc : (t.agent.links c).receiver ≠ .ended) : c = t.agent.connected - 1 := by
  have hnot : ¬ c + 1 < t.agent.connected := fun h => hc (hp.live.ended c hlt (.inl h))
  omega

/-- A step of the threads that leads on. -/
def Next (o : Options) (t : AgentThreads) : Prop :=
  ∃ act t', Own t act ∧ step o t act = some t' ∧ Ready t' ∧ t'.left < t.left

theorem keepaliveAfter_le {a : Agent.Action} (ha : a ≠ .connect true) {c : Nat}
    (hc : t.keepaliveAfter a c = true) : t.keepalive c = true := by
  unfold keepaliveAfter at hc
  split at hc
  · exact absurd rfl ha
  · exact (Bool.and_eq_true _ _ ▸ hc).1
  · exact hc

theorem left_lt {a : Agent.Action} {s : Agent} (ha : a ≠ .connect true)
    (hconn : s.connected = t.agent.connected) (hpc : s.pc.left ≤ t.agent.pc.left)
    (hreceiver : (s.links (t.agent.connected - 1)).receiver.left ≤
      (t.agent.links (t.agent.connected - 1)).receiver.left)
    (hlt : s.pc.left < t.agent.pc.left ∨ (s.links (t.agent.connected - 1)).receiver.left <
      (t.agent.links (t.agent.connected - 1)).receiver.left) :
    left { t with agent := s, keepalive := t.keepaliveAfter a } < t.left := by
  have hle : (if t.keepaliveAfter a (t.agent.connected - 1) then 1 else 0) ≤
      if t.keepalive (t.agent.connected - 1) then 1 else 0 := by
    split
    · rename_i hc
      rw [if_pos (keepaliveAfter_le ha hc)]
    · exact Nat.zero_le _
  simp only [left, hconn]
  omega

theorem Ready.agent (hr : Ready t) (a : Agent.Action) {s : Agent} (hown : Own t (.agent a))
    (hallows : t.allows a = true) (hsleep : t.agent.SleepsInTime a)
    (hs : Agent.step o t.agent a = some s) (hwindow : s.pc.inWindow = false)
    (hconn : s.connected = t.agent.connected) (hpc : s.pc.left ≤ t.agent.pc.left)
    (hreceiver : (s.links (t.agent.connected - 1)).receiver.left ≤
      (t.agent.links (t.agent.connected - 1)).receiver.left)
    (hlt : s.pc.left < t.agent.pc.left ∨ (s.links (t.agent.connected - 1)).receiver.left <
      (t.agent.links (t.agent.connected - 1)).receiver.left) : Next o t := by
  have hst : step o t (.agent a) =
      some { t with agent := s, keepalive := t.keepaliveAfter a } := by
    simp [step, hallows, hs]
  obtain ⟨hheard, hawake⟩ := Agent.wake_step hr.heard hr.awake hs
  exact ⟨.agent a, _, hown, hst,
    ⟨placed_step hr.placed hst, hheard, hawake.mpr hsleep, hr.close, hwindow⟩,
    left_lt (fun ha => by rw [ha] at hown; exact hown) hconn hpc hreceiver hlt⟩

theorem Ready.leave (hr : Ready t) {c : Nat} (hc : t.inHandler c = true) : Next o t := by
  obtain ⟨pc, hclose⟩ := hr.close
  have hfree : t.closedBy c = false := by
    apply Bool.eq_false_iff.mpr
    intro hby
    obtain ⟨_, heq, -⟩ := closedBy_iff.mp hby
    cases hclose.symm.trans heq
  obtain ⟨hlt, hreading⟩ := hr.placed.reading c hc
  have hlast := hr.placed.last hlt (by simp [hreading])
  have hst : step o t (.leave c) =
      some { t with inHandler := Function.update t.inHandler c false } := by
    simp [step, hc, hfree]
  refine ⟨.leave c, _, trivial, hst,
    ⟨placed_step hr.placed hst, hr.heard, hr.awake, hr.close, hr.outside⟩, ?_⟩
  subst hlast
  simp [left, hc]

theorem Ready.report (hr : Ready t) {c : Nat} (hc : (t.agent.links c).receiver = .reporting) :
    Next o t := by
  have hlt : c < t.agent.connected := by
    apply Nat.lt_of_not_le
    intro hle
    exact absurd ((hr.heard.fresh c hle).2.symm.trans hc) (by simp)
  have hlast := hr.placed.last hlt (by simp [hc])
  cases hcallback : (t.agent.links c).callback with
  | true =>
    have hs : Agent.step o t.agent (.report c) = some
        { (t.agent.setLink c { t.agent.links c with receiver := .ended, reported := true }).notify
          with missed := t.agent.missed || t.agent.pc.initializing == some c } := by
      simp only [Agent.step, Agent.report, hc, hcallback, if_true]
    have hframe := Agent.Frame.notify
      (t.agent.setLink c { t.agent.links c with receiver := .ended, reported := true })
    have hended := (hframe.links c).1
    rw [Agent.setLink_links, if_pos rfl] at hended
    subst hlast
    refine hr.agent (.report _) trivial rfl trivial hs ?_ hframe.connected (Agent.notify_left _) ?_ ?_
    · exact (Agent.notify_inWindow _).trans hr.outside
    · simp [hended, Receiver.left]
    · simp [hended, hc, Receiver.left]
  | false =>
    have hs : Agent.step o t.agent (.report c) =
        some (t.agent.setLink c { t.agent.links c with receiver := .ended }) := by
      simp only [Agent.step, Agent.report, hc, hcallback, if_true]
      rfl
    subst hlast
    refine hr.agent (.report _) trivial rfl trivial hs hr.outside rfl le_rfl ?_ ?_
    · simp [Agent.setLink, Receiver.left]
    · simp [Agent.setLink, hc, Receiver.left]

/-- The run thread goes on to `pc`. -/
theorem Ready.run (hr : Ready t) (a : Agent.Action) {s : Agent} (hown : Own t (.agent a))
    (hallows : t.allows a = true) (hsleep : t.agent.SleepsInTime a)
    (hs : Agent.step o t.agent a = some s) (hconn : s.connected = t.agent.connected)
    (hlinks : s.links = t.agent.links) (hwindow : s.pc.inWindow = false)
    (hleft : s.pc.left < t.agent.pc.left) : Next o t := by
  refine hr.agent a hown hallows hsleep hs hwindow hconn hleft.le ?_ (.inl hleft)
  rw [hlinks]

/-- Only the connection of the last client can be open. -/
theorem Ready.written (hr : Ready t) {c : Nat} (hc : t.writing c = true) : Next o t := by
  obtain ⟨hlt, hopen⟩ := hr.placed.writing c hc
  have hlast : c = t.agent.connected - 1 := by
    refine hr.placed.last hlt fun hended => ?_
    exact absurd (hr.placed.shut c (by simp [hended])) (by simp [hopen])
  have hst : step o t (.written c) =
      some { t with writing := Function.update t.writing c false } := by
    simp [step, hc]
  refine ⟨.written c, _, trivial, hst,
    ⟨placed_step hr.placed hst, hr.heard, hr.awake, hr.close, hr.outside⟩, ?_⟩
  subst hlast
  simp [left, hc]

theorem Ready.endKeepalive (hr : Ready t) {c : Nat} (hc : t.keepalive c = true)
    (hclosed : (t.agent.links c).closed = true) : Next o t := by
  have hlast : c = t.agent.connected - 1 := by
    have hlast := (hr.placed.keepalive c hc).1
    omega
  have hst : step o t (.endKeepalive c) =
      some { t with keepalive := Function.update t.keepalive c false } := by
    simp [step, hc, hclosed]
  refine ⟨.endKeepalive c, _, trivial, hst,
    ⟨placed_step hr.placed hst, hr.heard, hr.awake, hr.close, hr.outside⟩, ?_⟩
  subst hlast
  simp [left, hc]

theorem Ready.clean (hr : Ready t) (hpc : t.agent.pc = .cleaning) (hfree : t.cgLocked = false) :
    Next o t := by
  by_cases hhandler : ∃ c, t.inHandler c = true
  · obtain ⟨c, hc⟩ := hhandler
    exact hr.leave hc
  by_cases hreporting : ∃ c, (t.agent.links c).receiver = .reporting
  · obtain ⟨c, hc⟩ := hreporting
    exact hr.report hc
  by_cases hwriting : ∃ c, t.writing c = true
  · obtain ⟨c, hc⟩ := hwriting
    exact hr.written hc
  simp only [not_exists, Bool.not_eq_true] at hhandler hreporting hwriting
  have hs : Agent.step o t.agent .clean = some t.agent.clean := by
    simp [Agent.step, hpc, hreporting]
  refine hr.agent .clean trivial ?_ trivial hs rfl rfl ?_ ?_ ?_
  · simp [allows, hfree, hhandler, hwriting]
  · simp [Agent.clean, hpc, RunPc.left]
  · simp only [Agent.clean]
    split <;> simp [Receiver.left]
  · simp [Agent.clean, hpc, RunPc.left]

/-- The run thread goes on to its end once `working` is false. -/
theorem Ready.toExit (hr : Ready t) (hworking : t.agent.working = false)
    (hfree : t.cgLocked = false) (hexit : t.agent.pc ≠ .exited) : Next o t := by
  have houtside := hr.outside
  cases hpc : t.agent.pc with
  | testing =>
    have hs : Agent.step o t.agent .test = some { t.agent with pc := .exited } := by
      simp [Agent.step, hpc, hworking]
    exact hr.run .test trivial rfl trivial hs rfl rfl rfl (by simp [hpc, RunPc.left])
  | waiting c =>
    obtain (hpos | ⟨x, hx, -⟩) | ⟨hworking', -⟩ := hr.awake c hpc
    · have hs : Agent.step o t.agent .destroyClient =
          some { t.agent.notify with destroyers := t.agent.destroyers - 1 } := by
        simp [Agent.step, Nat.ne_of_gt hpos]
      have hframe := Agent.Frame.notify t.agent
      refine hr.run .destroyClient trivial rfl trivial hs hframe.connected ?_ ?_ ?_
      · simp [Agent.notify, hpc]
      · simp [Agent.notify, hpc, RunPc.inWindow]
      · simp [Agent.notify, hpc, RunPc.left]
    · exact hr.report hx
    · exact absurd (hworking'.symm.trans hworking) (by simp)
  | woken c =>
    have hs : Agent.step o t.agent .resume =
        some { t.agent with floraCli := none, pc := .cleaning } := by
      simp [Agent.step, hpc]
    exact hr.run .resume trivial rfl trivial hs rfl rfl rfl (by simp [hpc, RunPc.left])
  | failed =>
    have hs : Agent.step o t.agent .pause = some { t.agent with pc := .pausing } := by
      simp [Agent.step, hpc]
    exact hr.run .pause trivial rfl trivial hs rfl rfl rfl (by simp [hpc, RunPc.left])
  | pausing =>
    have hs : Agent.step o t.agent .wake = some { t.agent with pc := .paused } := by
      simp [Agent.step, Agent.notify, hpc]
    exact hr.run .wake hpc rfl trivial hs rfl rfl rfl (by simp [hpc, RunPc.left])
  | paused =>
    have hs : Agent.step o t.agent .resume = some { t.agent with pc := .cleaning } := by
      simp [Agent.step, hpc]
    exact hr.run .resume trivial rfl trivial hs rfl rfl rfl (by simp [hpc, RunPc.left])
  | cleaning => exact hr.clean hpc hfree
  | exited => exact absurd hpc hexit
  | connecting | authed | initPosts | initCalls | publishing =>
    rw [hpc] at houtside
    cases houtside

theorem Ready.closer (hr : Ready t) (pc : ClosePc)
    (hst : step o t .closer = some { t with close := some (.user, pc) })
    (hleft : pc.left < (t.close.map (·.2.left)).getD 0) : Next o t := by
  refine ⟨.closer, _, trivial, hst,
    ⟨placed_step hr.placed hst, hr.heard, hr.awake, ⟨pc, rfl⟩, hr.outside⟩, ?_⟩
  simp only [left, Option.map_some, Option.getD_some]
  omega

theorem closeClient_eq {c : Nat} {rest : List Nat} (hclosing : t.agent.closing = c :: rest) :
    ∃ s, Agent.step o t.agent (.closeClient 0) = some s ∧ s.pc = t.agent.pc ∧
      s.connected = t.agent.connected ∧
      ∀ x, (s.links x).receiver = (t.agent.links x).receiver := by
  refine ⟨({ t.agent with closing := rest } : Agent).shut c, ?_, rfl, rfl, fun x => ?_⟩
  · simp [Agent.step, hclosing]
  · exact Agent.setLink_congr (s := { t.agent with closing := rest }) (c := c)
      (l := { t.agent.links c with up := false, closed := true }) Link.receiver rfl x

theorem Ready.closeClient (hr : Ready t) {c : Nat} {rest : List Nat}
    (hclose : t.close = some (.user, .closing)) (hclosing : t.agent.closing = c :: rest) :
    Next o t := by
  cases hwriting : t.writing c with
  | true => exact hr.written hwriting
  | false =>
    obtain ⟨s, hs, hpc, hconn, hreceiver⟩ := closeClient_eq (o := o) hclosing
    have hst : step o t .closer =
        some { t with agent := s, close := some (.user, .joiningClient c) } := by
      simp [step, closerStep, hclose, hclosing, hwriting, hs]
    obtain ⟨hheard, hawake⟩ := Agent.wake_step hr.heard hr.awake hs
    refine ⟨.closer, _, trivial, hst, ⟨placed_step hr.placed hst, hheard, hawake.mpr trivial,
      ⟨_, rfl⟩, ?_⟩, ?_⟩
    · exact (congrArg RunPc.inWindow hpc).trans hr.outside
    · simp only [left, hclose, hpc, hconn, hreceiver, Option.map_some, Option.getD_some,
        ClosePc.left]
      omega

theorem Ready.joinClient (hr : Ready t) {c : Nat}
    (hclose : t.close = some (.user, .joiningClient c)) : Next o t := by
  obtain ⟨hlt, hclosed⟩ := hr.placed.joining c (by simp [joined, hclose])
  cases hc : (t.agent.links c).receiver with
  | ended =>
    refine hr.closer (.joiningKeepalive c) ?_ (by simp [hclose, ClosePc.left])
    simp [step, closerStep, hclose, hc]
  | reporting => exact hr.report hc
  | reading =>
    cases hhandler : t.inHandler c with
    | true => exact hr.leave hhandler
    | false =>
      have hlast := hr.placed.last hlt (by simp [hc])
      have hwriting : t.writing c = false := by
        apply Bool.eq_false_iff.mpr
        intro hwriting
        exact absurd (hr.placed.writing c hwriting).2 (by simp [hclosed])
      have hs : Agent.step o t.agent (.drop c) =
          some (t.agent.setLink c { t.agent.links c with receiver := .ended }) := by
        simp [Agent.step, Agent.drop, hlt, hc, hclosed]
      have hallows : t.allows (.drop c) = true := by simp [allows, hhandler, hwriting]
      subst hlast
      refine hr.agent (.drop _) hclosed hallows trivial hs hr.outside rfl le_rfl ?_ ?_
      · simp [Agent.setLink, Receiver.left]
      · simp [Agent.setLink, hc, Receiver.left]

theorem Ready.joinKeepalive (hr : Ready t) {c : Nat}
    (hclose : t.close = some (.user, .joiningKeepalive c)) : Next o t := by
  obtain ⟨-, hclosed⟩ := hr.placed.joining c (by simp [joined, hclose])
  cases hc : t.keepalive c with
  | true => exact hr.endKeepalive hc hclosed
  | false =>
    refine hr.closer .joiningRun ?_ (by simp [hclose, ClosePc.left])
    simp [step, closerStep, hclose, hc]

theorem Ready.next (hr : Ready t) : t.close = some (.user, .returned) ∨ Next o t := by
  obtain ⟨pc, hclose⟩ := hr.close
  cases pc with
  | locking =>
    refine .inr (hr.closer .closing ?_ (by simp [hclose, ClosePc.left]))
    simp [step, closerStep, hclose]
  | closing =>
    cases hclosing : t.agent.closing with
    | nil =>
      refine .inr (hr.closer .joiningRun ?_ (by simp [hclose, ClosePc.left]))
      simp [step, closerStep, hclose, hclosing]
    | cons c rest => exact .inr (hr.closeClient hclose hclosing)
  | joiningClient c => exact .inr (hr.joinClient hclose)
  | joiningKeepalive c => exact .inr (hr.joinKeepalive hclose)
  | joiningRun =>
    right
    by_cases hexit : t.agent.pc = .exited
    · refine hr.closer .returned ?_ (by simp [hclose, ClosePc.left])
      simp [step, closerStep, hclose, hexit]
    · exact hr.toExit (hr.placed.stopped (by simp [hclose])) (by simp [cgLocked, hclose]) hexit
  | returned => exact .inl hclose

/-- The run thread goes to sleep only if it has not missed its wake-up. -/
def InTime (t : AgentThreads) : Action → Prop
  | .agent a => t.agent.SleepsInTime a
  | _ => True

theorem wake_reachable (h : ((system o).guard InTime).Reachable t) :
    t.agent.Heard ∧ t.agent.Awake := by
  apply h.invariant (P := fun t => t.agent.Heard ∧ t.agent.Awake)
  · rintro s rfl
    exact ⟨⟨fun _ _ => ⟨rfl, rfl⟩, by simp, by simp [RunPc.initializing]⟩, fun c hc => by cases hc⟩
  · rintro s act r ⟨hheard, hawake⟩ ⟨hin, hst⟩
    cases act with
    | agent a =>
      obtain ⟨-, x, hx, rfl⟩ := step_agent hst
      exact (Agent.wake_step hheard hawake hx).imp_right fun hiff => hiff.mpr hin
    | enter c kind name =>
      obtain ⟨-, -, rfl⟩ := step_enter hst
      exact ⟨hheard, hawake⟩
    | leave c =>
      obtain ⟨-, rfl⟩ := step_leave hst
      exact ⟨hheard, hawake⟩
    | write c =>
      obtain ⟨-, -, rfl⟩ := step_write hst
      exact ⟨hheard, hawake⟩
    | written c =>
      obtain rfl := step_written hst
      exact ⟨hheard, hawake⟩
    | endKeepalive c =>
      obtain rfl := step_endKeepalive hst
      exact ⟨hheard, hawake⟩
    | close w =>
      obtain ⟨-, -, rfl⟩ := step_close hst
      exact ⟨Agent.heard_close hheard, Agent.awake_close hawake⟩
    | closer =>
      obtain ⟨w, ⟨-, rfl⟩ | ⟨-, -, rfl⟩ | ⟨c, rest, x, -, -, -, -, hx, rfl⟩ | ⟨c, -, -, rfl⟩ |
        ⟨c, -, -, rfl⟩ | ⟨-, -, rfl⟩⟩ := step_closer hst
      · exact ⟨hheard, hawake⟩
      · exact ⟨hheard, hawake⟩
      · exact (Agent.wake_step hheard hawake hx).imp_right fun hiff => hiff.mpr trivial
      · exact ⟨hheard, hawake⟩
      · exact ⟨hheard, hawake⟩
      · exact ⟨hheard, hawake⟩

/-- A call of `close` returns exactly if a thread of the user makes it, when the run thread is not
between its test of `working` and its wait and always goes to sleep in time. By their own steps,
among which are the returns of handlers and of writes, the threads come to its end. A handler that
calls it waits for good. -/
theorem close_returns_iff {w : Closer} {pc : ClosePc}
    (h : ((system o).guard InTime).Reachable t) (hclose : t.close = some (w, pc))
    (hpc : pc ≠ .returned) (houtside : t.agent.pc.inWindow = false) :
    (w = .user → ∃ as t', ((system o).guard Own).Run t as t' ∧
      t'.close = some (.user, .returned)) ∧
    (w ≠ .user → ∀ as t', (system o).Run t as t' → ∃ pc', t'.close = some (w, pc') ∧
      pc' ≠ .returned) := by
  have hp := placed_reachable h.of_guard
  constructor
  · rintro rfl
    obtain ⟨hheard, hawake⟩ := wake_reachable h
    have hready : Ready t := ⟨hp, hheard, hawake, ⟨pc, hclose⟩, houtside⟩
    refine System.exists_run_of_rank (v := left) hready fun s hs => ?_
    exact hs.next.imp_right fun ⟨act, r, hown, hst, hr, hlt⟩ => ⟨act, r, ⟨hown, hst⟩, hr, hlt⟩
  · intro hw as t' hrun
    cases w with
    | user => exact absurd rfl hw
    | handler c => exact closedBy_iff.mp (closedBy_run hp (closedBy_iff.mpr ⟨pc, hclose, hpc⟩) hrun)

/-- A handler of the first client runs, and a ping is being written, while the agent waits. -/
def sampleHandling : List Action :=
  [.agent (.addHandler .post "n"), .agent .test, .agent (.connect true), .agent .setCallback,
    .agent (.walk "n"), .agent .walkEnd, .agent .walkEnd, .agent .publish, .enter 0 .post "n",
    .write 0]

def sampleHandled : AgentThreads := (execute (step sampleOptions) {} sampleHandling).getD {}

theorem sampleHandled_reachable :
    ((system sampleOptions).guard InTime).Reachable sampleHandled := by
  refine ⟨{}, sampleHandling, rfl, .cons ⟨trivial, rfl⟩ (.cons ⟨trivial, rfl⟩
    (.cons ⟨trivial, rfl⟩ (.cons ⟨trivial, rfl⟩ (.cons ⟨trivial, rfl⟩ ?_))))⟩
  exact .cons ⟨trivial, rfl⟩ (.cons ⟨trivial, rfl⟩ (.cons ⟨.inl rfl, rfl⟩ (.cons ⟨trivial, rfl⟩
    (.cons ⟨trivial, rfl⟩ (.nil _)))))

/-- The call that the thread `w` makes then. -/
def sampleClosed (w : Closer) : AgentThreads :=
  (step sampleOptions sampleHandled (.close w)).getD {}

theorem close_returns_iff_handling :
    (∃ as t', ((system sampleOptions).guard Own).Run (sampleClosed .user) as t' ∧
      t'.close = some (.user, .returned)) ∧
    ∀ as t', (system sampleOptions).Run (sampleClosed (.handler 0)) as t' →
      ∃ pc', t'.close = some (.handler 0, pc') ∧ pc' ≠ .returned := by
  have huser : ((system sampleOptions).guard InTime).Reachable (sampleClosed .user) :=
    sampleHandled_reachable.next (a := .close .user) ⟨trivial, rfl⟩
  have hhandler : ((system sampleOptions).guard InTime).Reachable (sampleClosed (.handler 0)) :=
    sampleHandled_reachable.next (a := .close (.handler 0)) ⟨trivial, rfl⟩
  constructor
  · exact (close_returns_iff huser rfl (by simp) rfl).1 rfl
  · exact (close_returns_iff hhandler rfl (by simp) rfl).2 (by simp)

end AgentThreads

end Flora
