import Flora.Socket.Downlink

/-! # The client's end of a connection

`SocketConn::send`, `recv` and `close` share `write_mutex`. The receive thread passes through it
before each `::read`: it waits while another thread of the client is in a `::write`, and reads no
more once one has closed the connection. -/

namespace Flora

open TransitionSystem Framing

universe u

structure ClientEnd (σ : Type u) where
  link : Channel SentMessage (RecvThread σ)
  /-- Another thread of the client is in the `::write` of `SocketConn::send` and holds
  `write_mutex`. -/
  writing : Bool := false
  sockReady : Bool := true
  /-- The receive thread is in the `::read` of `SocketConn::recv`. -/
  reading : Bool := false

namespace ClientEnd

/-- `send` and `shut` are the service's; `write`, `written` and `close` are other threads of the
client; `recv`, `read` and `handle` are its receive thread. -/
inductive Action where
  | send (message : SentMessage) (order : ByteOrder) (os : OsWrite)
  | shut
  | write
  | written
  | close
  | recv (authWaiting : Bool)
  | read (received : Option (List Byte)) (authWaiting : Bool)
  | handle (authWaiting : Bool)

section Model

variable {σ : Type u} (w : CapsLibrary) (cmdHandler : CmdHandler σ) (size : Nat) (c : ClientEnd σ)

def follow (act : Channel.Action SentMessage RecvThread.Action) : Option (ClientEnd σ) :=
  (c.link.step (downlink w.toCapsFormat cmdHandler) w size act).map fun link =>
    { c with link := link }

/-- `recv_loop` up to the `::read`. A full buffer ends it before `SocketConn::recv`, which takes
`write_mutex` and returns -1 unless `sock_ready`. -/
def recv (authWaiting : Bool) : Option (ClientEnd σ) :=
  if c.reading then none
  else if c.link.receiver.rbufOff = c.link.receiver.bufsize then
    c.follow w cmdHandler size (.receive (.recv none authWaiting))
  else if c.writing then none
  else if c.sockReady then
    if c.link.receiver.pc = .receiving then some { c with reading := true } else none
  else c.follow w cmdHandler size (.receive (.recv none authWaiting))

def step : Action → Option (ClientEnd σ)
  | .send message order os => c.follow w cmdHandler size (.send message order os)
  | .shut => c.follow w cmdHandler size .close
  | .write => if c.sockReady ∧ c.writing = false then some { c with writing := true } else none
  | .written => if c.writing then some { c with writing := false } else none
  | .close => if c.writing then none else some { c with sockReady := false }
  | .recv authWaiting => c.recv w cmdHandler size authWaiting
  | .read received authWaiting =>
    if c.reading then
      ({ c with reading := false } : ClientEnd σ).follow w cmdHandler size
        (.receive (.recv received authWaiting))
    else none
  | .handle authWaiting => c.follow w cmdHandler size (.receive (.handle authWaiting))

/-- As in `Channel.Regular`: the container library works for the messages of the service, and no
write is short. -/
def Regular : Action → Prop
  | .send message order os =>
    Channel.Regular (downlink w.toCapsFormat cmdHandler) w size c.link (.send message order os)
  | _ => True

/-- A step of the receive thread. -/
def Action.OfReceiver : Action → Prop
  | .recv _ | .read .. | .handle _ => True
  | _ => False

def Initial (bufsize : Word) (start : σ) : Prop :=
  ∃ r, RecvThread.Initial r bufsize start ∧ c = { link := { receiver := r } }

end Model

variable {σ : Type u} {w : CapsLibrary} {cmdHandler : CmdHandler σ} {size : Nat} {bufsize : Word}
  {start : σ} {c c' : ClientEnd σ}

def system (w : CapsLibrary) (cmdHandler : CmdHandler σ) (size : Nat) (bufsize : Word) (start : σ) :
    System (ClientEnd σ) Action :=
  (System.ofStep (Initial · bufsize start) (step w cmdHandler size)).guard
    (Regular w cmdHandler size)

def receiverSteps (w : CapsLibrary) (cmdHandler : CmdHandler σ) (size : Nat) (bufsize : Word)
    (start : σ) : System (ClientEnd σ) Action :=
  (system w cmdHandler size bufsize start).guard fun _ act => act.OfReceiver

theorem follow_link {act : Channel.Action SentMessage RecvThread.Action}
    (h : c.follow w cmdHandler size act = some c') :
    c.link.step (downlink w.toCapsFormat cmdHandler) w size act = some c'.link := by
  obtain ⟨link, hlink, rfl⟩ := Option.map_eq_some_iff.mp h
  exact hlink

theorem run_single {act : Action} (h : c.step w cmdHandler size act = some c')
    (hact : act.OfReceiver) :
    (receiverSteps w cmdHandler size bufsize start).Run c [act] c' := by
  refine .single ⟨hact, ?_, h⟩
  cases act with
  | send => cases hact
  | _ => trivial

theorem follow_of_link {act : Channel.Action SentMessage RecvThread.Action}
    {link : Channel SentMessage (RecvThread σ)}
    (h : c.link.step (downlink w.toCapsFormat cmdHandler) w size act = some link) :
    c.follow w cmdHandler size act = some { c with link := link } := by
  rw [follow, h, Option.map_some]

/-- What the threads of the client add to the connection are steps of the connection or none. -/
theorem step_link {act : Action} (hregular : c.Regular w cmdHandler size act)
    (h : c.step w cmdHandler size act = some c') :
    c'.link = c.link ∨ ∃ a, (Downlink.system w cmdHandler size bufsize start).step c.link a
      c'.link := by
  cases act with
  | send message order os => exact .inr ⟨.send message order os, hregular, follow_link h⟩
  | shut => exact .inr ⟨.close, trivial, follow_link h⟩
  | write =>
    obtain ⟨-, heq⟩ := Option.ite_none_right_eq_some.mp h
    cases heq
    exact .inl rfl
  | written =>
    obtain ⟨-, heq⟩ := Option.ite_none_right_eq_some.mp h
    cases heq
    exact .inl rfl
  | close =>
    obtain ⟨-, heq⟩ := Option.ite_none_left_eq_some.mp h
    cases heq
    exact .inl rfl
  | recv authWaiting =>
    simp only [step, recv] at h
    split_ifs at h with hreading hfull hwriting hready hpc
    · exact .inr ⟨.receive (.recv none authWaiting), trivial, follow_link h⟩
    · cases h
      exact .inl rfl
    · exact .inr ⟨.receive (.recv none authWaiting), trivial, follow_link h⟩
  | read received authWaiting =>
    obtain ⟨-, hread⟩ := Option.ite_none_right_eq_some.mp h
    have hlink := follow_link hread
    exact .inr ⟨.receive (.recv received authWaiting), trivial, hlink⟩
  | handle authWaiting =>
    exact .inr ⟨.receive (.handle authWaiting), trivial, follow_link h⟩

/-- Without its threads, the client's end is the receiving end of the connection. -/
theorem reachable_link (h : (system w cmdHandler size bufsize start).Reachable c) :
    (Downlink.system w cmdHandler size bufsize start).Reachable c.link := by
  obtain ⟨c₀, as, ⟨r, hr, rfl⟩, hrun⟩ := h
  have hsimulate := hrun.simulate (R := fun c l => c.link = l)
    (S := Downlink.system w cmdHandler size bufsize start) (p := { receiver := r })
  obtain ⟨bs, l, hlinks, rfl⟩ := hsimulate (by
    rintro c act c' l rfl ⟨hregular, hstep⟩
    obtain heq | ⟨a, hlink⟩ := step_link hregular hstep
    · exact ⟨[], c.link, .nil _, heq⟩
    · exact ⟨[a], c'.link, .single hlink, rfl⟩) rfl
  exact ⟨_, bs, ⟨r, hr, rfl⟩, hlinks⟩

/-- The connection is not closed by the client, and none of its threads is in a `::write`. -/
structure Idle (l : Channel SentMessage (RecvThread σ)) (c : ClientEnd σ) : Prop where
  link : c.link = l
  ready : c.sockReady = true
  unlocked : c.writing = false

/-- A read of the connection is one of the receive thread: it passes `write_mutex` and reads, or it
is reading already. -/
theorem Idle.recv {l l' : Channel SentMessage (RecvThread σ)} (h : Idle l c)
    {received : Option (List Byte)} {authWaiting : Bool}
    (hstep : l.step (downlink w.toCapsFormat cmdHandler) w size
      (.receive (.recv received authWaiting)) = some l') :
    ∃ acts c', (receiverSteps w cmdHandler size bufsize start).Run c acts c' ∧ Idle l' c' := by
  obtain ⟨rfl, hready, hunlocked⟩ := h
  obtain ⟨r, hr, -⟩ := Option.bind_eq_some_iff.mp hstep
  obtain ⟨hpc, hr⟩ := Option.ite_none_right_eq_some.mp hr
  cases hreading : c.reading with
  | true =>
    have hread : c.step w cmdHandler size (.read received authWaiting) =
        some { c with link := l', reading := false } := by
      rw [step, if_pos hreading]
      exact follow_of_link hstep
    exact ⟨_, _, run_single hread trivial, rfl, hready, hunlocked⟩
  | false =>
    by_cases hfull : c.link.receiver.rbufOff = c.link.receiver.bufsize
    · have hstop : c.step w cmdHandler size (.recv authWaiting) = some { c with link := l' } := by
        have hlink : c.link.step (downlink w.toCapsFormat cmdHandler) w size
            (.receive (.recv none authWaiting)) = some l' := by
          rw [← hstep]
          simp only [Channel.step, downlink, RecvThread.step, RecvThread.recv, hfull, if_true]
        rw [step, ClientEnd.recv, if_neg (Bool.not_eq_true _ ▸ hreading), if_pos hfull]
        exact follow_of_link hlink
      exact ⟨_, _, run_single hstop trivial, rfl, hready, hunlocked⟩
    · have henter : c.step w cmdHandler size (.recv authWaiting) =
          some { c with reading := true } := by
        simp only [step, ClientEnd.recv, hreading, hfull, hunlocked, hready, hpc,
          Bool.false_eq_true, if_false, if_true]
      have hread : ({ c with reading := true } : ClientEnd σ).step w cmdHandler size
          (.read received authWaiting) = some { c with link := l', reading := false } := by
        rw [step, if_pos rfl]
        exact follow_of_link hstep
      exact ⟨_, _, (run_single henter trivial).append (run_single hread trivial), rfl, hready,
        hunlocked⟩

theorem Idle.step {l l' : Channel SentMessage (RecvThread σ)} (h : Idle l c)
    {act : Channel.Action SentMessage RecvThread.Action}
    (hstep : (Downlink.clientSteps w cmdHandler size bufsize start).step l act l') :
    ∃ acts c', (receiverSteps w cmdHandler size bufsize start).Run c acts c' ∧ Idle l' c' := by
  obtain ⟨⟨a, rfl⟩, -, hstep⟩ := hstep
  cases a with
  | recv received authWaiting => exact h.recv hstep
  | handle authWaiting =>
    obtain ⟨rfl, hready, hunlocked⟩ := h
    have hhandle : c.step w cmdHandler size (.handle authWaiting) = some { c with link := l' } :=
      follow_of_link hstep
    exact ⟨_, _, run_single hhandle trivial, rfl, hready, hunlocked⟩

/-- The service's messages do not get stuck: as long as the client has not stopped, no other thread
of it has closed the connection or is in a `::write`, the messages fit its buffer and its command
handler accepts them, its receive thread hands all of them over. -/
theorem service_messages_pass (w : CapsLibrary) (cmdHandler : CmdHandler σ) (size : Nat)
    (bufsize : Word) (hsize : 32768 ≤ bufsize.toNat) (start : σ) {c : ClientEnd σ}
    (h : (system w cmdHandler size bufsize start).Reachable c)
    (hready : c.sockReady = true) (hunlocked : c.writing = false)
    (hrunning : ∀ err, c.link.receiver.pc ≠ .stopped err)
    (hfits : ∀ m ∈ c.link.sent, m.2.length ≤ bufsize.toNat)
    (haccepts : ∀ m ∈ c.link.sent, ∀ p, m.1.1.HandedAs p →
      ∀ s, (cmdHandler s p.1 p.2).2 = true) :
    ∃ acts c', (receiverSteps w cmdHandler size bufsize start).Run c acts c' ∧
      c'.link.sent = c.link.sent ∧
      List.Forall₂ (fun p m => m.1.1.HandedAs p) c'.link.receiver.handed c'.link.sent := by
  obtain ⟨as, l, hrun, hsent, hhanded⟩ := Downlink.exists_handed_run w cmdHandler size bufsize hsize
    start (reachable_link h) hrunning hfits haccepts
  obtain ⟨acts, c', hrun', rfl, -, -⟩ :=
    hrun.simulate (R := Idle) (fun _ _ _ _ hidle hstep => hidle.step hstep) (p := c)
      ⟨rfl, hready, hunlocked⟩
  exact ⟨acts, c', hrun', hsent, hhanded⟩

/-- The receive thread has entered `::read` behind a `::write` of another thread, while the service
was sending. -/
def sampleEnd : ClientEnd Unit where
  link := Downlink.sampleSent
  reading := true

theorem sampleEnd_reachable :
    (system Downlink.sampleLibrary Downlink.sampleHandler 32768 32768 ()).Reachable sampleEnd := by
  have hregular : ∀ message : SentMessage,
      Downlink.sampleLibrary.Sound .net message.1.caps → ∀ c : ClientEnd Unit,
      c.Regular Downlink.sampleLibrary Downlink.sampleHandler 32768
        (.send message .net (.accepted 8)) := by
    intro message hsound c
    refine ⟨hsound, fun bytes hwrite => ?_⟩
    cases hwrite
    exact fun _ => .inl rfl
  refine ⟨{ link := { receiver := RecvThread.sampleThread } },
    [.write, .send ⟨Downlink.samplePost, trivial⟩ .net (.accepted 8), .written, .recv false,
      .send ⟨.pong, trivial⟩ .net (.accepted 8)],
    ⟨_, ⟨List.replicate 32768 0, List.length_replicate, rfl⟩, rfl⟩, ?_⟩
  have hpost : Downlink.sampleLibrary.Sound .net Downlink.samplePost.caps :=
    CapsLibrary.sample_sound .net rfl
  have hpong : Downlink.sampleLibrary.Sound .net ServiceMessage.pong.caps :=
    CapsLibrary.sample_sound .net rfl
  exact .cons ⟨trivial, rfl⟩ (.cons ⟨hregular ⟨Downlink.samplePost, trivial⟩ hpost _, rfl⟩
    (.cons ⟨trivial, rfl⟩ (.cons ⟨trivial, rfl⟩
      (.single ⟨hregular ⟨ServiceMessage.pong, trivial⟩ hpong _, rfl⟩))))

theorem service_messages_pass_pong : ∃ acts c',
    (receiverSteps Downlink.sampleLibrary Downlink.sampleHandler 32768 32768 ()).Run sampleEnd acts
      c' ∧ c'.link.sent = Downlink.sampleSent.sent ∧
      List.Forall₂ (fun p m => m.1.1.HandedAs p) c'.link.receiver.handed c'.link.sent := by
  apply service_messages_pass Downlink.sampleLibrary Downlink.sampleHandler 32768 32768 (by decide)
    () sampleEnd_reachable rfl rfl
  · intro err hstop
    cases hstop
  · decide
  · exact fun _ _ _ _ _ => rfl

/-- A thread in a `::write` holds the receive thread up. -/
example : ClientEnd.step Downlink.sampleLibrary Downlink.sampleHandler 32768
    { link := Downlink.sampleSent, writing := true } (.recv false) = none := rfl

end ClientEnd

end Flora
