import Flora.Client.Requests
import Flora.Service.Calls

/-! # Library clients around the service

Every connection of the library is one client and one adapter of the service, under one name; a
client that reconnects comes back under another. What the adapters that are not of the library
put into the queue is arbitrary. Each connection delivers frames in order. -/

namespace Flora

open TransitionSystem

structure Net where
  service : Service := {}
  clients : AdapterId → Client := fun _ => {}
  /-- Frames on their way to the service. -/
  up : AdapterId → List Caps := fun _ => []
  /-- How far a client has come among all writes of the service. -/
  received : AdapterId → Nat := fun _ => 0

namespace Net

inductive Action where
  | service (act : Service.Action)
  | deliver (a : AdapterId)
  | client (a : AdapterId) (act : Client.Action)
  | transmit (a : AdapterId) (ok : Bool)
  | request (a : AdapterId) (caps : Caps)
  | receive (a : AdapterId)

/-- The adapter whose frame a poll thread puts into the queue. -/
def putter : Service.Action → Option AdapterId
  | .put a _ => some a
  | _ => none

/-- The frame in the send buffer of the call `key`. -/
def callFrame (c : Client) (key : Nat) : Option Caps :=
  (c.asked[key - 1]?).map fun r =>
    RequestSerializer.serializeCall r.name r.args r.target r.id r.timeout

/-- What a received frame records. A frame that cannot be read makes the client close, which is an
action of its own; other frames concern no call of this client. -/
def handleReceived (c : Client) (caps : Caps) (frame : Nat) : Client :=
  match caps.readWord with
  | some (cmd, rest) =>
    if cmd = cmdReplyResp then
      match ResponseParser.parseReply rest with
      | some (id, rescode, response) => c.recordReply id rescode response frame
      | none => c
    else c
  | none => c

/-- The frame has reached the connection of `a`. -/
def arrives (a : AdapterId) (w : Write) : Bool := w.dest == a && w.result == .success

variable (e : Env) (lib : AdapterId → Bool) (s : Net)

def setClient (a : AdapterId) (c : Client) : Net :=
  { s with clients := Function.update s.clients a c }

/-- `connection->send()` of a client. -/
def send (a : AdapterId) (caps : Caps) : Net :=
  { s with up := Function.update s.up a (s.up a ++ [caps]) }

def transmit (a : AdapterId) (ok : Bool) : Option Net :=
  ((s.clients a).sender.bind (callFrame (s.clients a))).bind fun caps =>
    ((s.clients a).send ok).map fun c => if ok then (s.setClient a c).send a caps else s.setClient a c

def receive (a : AdapterId) : Option Net :=
  ((s.service.disp.out.drop (s.received a)).findIdx? (arrives a)).bind fun n =>
    (s.service.disp.out[s.received a + n]?).map fun w =>
      { s.setClient a (handleReceived (s.clients a) w.caps (s.received a + n)) with
        received := Function.update s.received a (s.received a + n + 1) }

def step : Action → Option Net
  | .service act =>
    if (putter act).any lib then none
    else (Service.step e s.service act).map fun service => { s with service := service }
  | .deliver a =>
    match s.up a with
    | [] => none
    | caps :: rest => (Service.step e s.service (.put a caps)).map fun service =>
      { s with service := service, up := Function.update s.up a rest }
  | .client a act =>
    if lib a && act.inner then ((s.clients a).step act).map (s.setClient a) else none
  | .transmit a ok => if lib a then s.transmit a ok else none
  | .request a caps =>
    if lib a ∧ (s.clients a).sender.isNone ∧ (s.clients a).connClosed = false ∧
        ¬ (caps.readWord.any fun (cmd, _) => cmd == cmdCallReq) then
      some (s.send a caps)
    else none
  | .receive a => if lib a then s.receive a else none

def Initial : Prop := ∃ service, Service.Initial service ∧ s = { service := service }

def system : System Net Action := System.ofStep Initial (step e lib)

variable {e : Env} {lib : AdapterId → Bool} {s s' : Net}

theorem setClient_clients (a b : AdapterId) (c : Client) :
    (s.setClient a c).clients b = if b = a then c else s.clients b := by
  simp [setClient, Function.update_apply]

theorem send_up (a b : AdapterId) (caps : Caps) :
    (s.send a caps).up b = if b = a then s.up a ++ [caps] else s.up b := by
  simp [send, Function.update_apply]

theorem step_service {act : Service.Action} (h : step e lib s (.service act) = some s') :
    (∀ a ∈ putter act, lib a = false) ∧
      ∃ service, Service.step e s.service act = some service ∧ s' = { s with service := service } := by
  simp only [step, Option.ite_none_left_eq_some] at h
  obtain ⟨hput, h⟩ := h
  obtain ⟨service, hst, rfl⟩ := Option.map_eq_some_iff.mp h
  refine ⟨fun a ha => ?_, service, hst, rfl⟩
  rw [Option.mem_def] at ha
  rw [ha] at hput
  exact Bool.eq_false_iff.mpr hput

theorem step_deliver {a : AdapterId} (h : step e lib s (.deliver a) = some s') :
    ∃ caps rest service, s.up a = caps :: rest ∧
      Service.step e s.service (.put a caps) = some service ∧
      s' = { s with service := service, up := Function.update s.up a rest } := by
  simp only [step] at h
  split at h
  · cases h
  · rename_i caps rest hup
    obtain ⟨service, hst, rfl⟩ := Option.map_eq_some_iff.mp h
    exact ⟨caps, rest, service, hup, hst, rfl⟩

theorem step_client {a : AdapterId} {act : Client.Action}
    (h : step e lib s (.client a act) = some s') : lib a = true ∧ act.inner = true ∧
      ∃ c, (s.clients a).step act = some c ∧ s' = s.setClient a c := by
  simp only [step, Option.ite_none_right_eq_some, Bool.and_eq_true] at h
  obtain ⟨⟨hlib, hin⟩, h⟩ := h
  obtain ⟨c, hc, rfl⟩ := Option.map_eq_some_iff.mp h
  exact ⟨hlib, hin, c, hc, rfl⟩

theorem step_transmit {a : AdapterId} {ok : Bool} (h : step e lib s (.transmit a ok) = some s') :
    lib a = true ∧ ∃ key r c, (s.clients a).sender = some key ∧
      (s.clients a).asked[key - 1]? = some r ∧ (s.clients a).step (.send ok) = some c ∧
      s' = if ok then (s.setClient a c).send a
        (RequestSerializer.serializeCall r.name r.args r.target r.id r.timeout)
        else s.setClient a c := by
  simp only [step, Option.ite_none_right_eq_some] at h
  obtain ⟨hlib, h⟩ := h
  obtain ⟨caps, hcaps, h⟩ := Option.bind_eq_some_iff.mp h
  obtain ⟨key, hkey, hframe⟩ := Option.bind_eq_some_iff.mp hcaps
  obtain ⟨r, hr, rfl⟩ := Option.map_eq_some_iff.mp hframe
  obtain ⟨c, hc, rfl⟩ := Option.map_eq_some_iff.mp h
  exact ⟨hlib, key, r, c, hkey, hr, hc, rfl⟩

theorem step_request {a : AdapterId} {caps : Caps} (h : step e lib s (.request a caps) = some s') :
    lib a = true ∧ Service.callRequest caps = none ∧ s' = s.send a caps := by
  simp only [step, Option.ite_none_right_eq_some] at h
  obtain ⟨⟨hlib, _, _, hcmd⟩, h⟩ := h
  cases h
  refine ⟨hlib, ?_, rfl⟩
  unfold Service.callRequest
  cases hread : caps.readWord with
  | none => rfl
  | some p =>
    rw [hread] at hcmd
    exact if_neg fun heq => hcmd (beq_iff_eq.mpr heq)

theorem step_receive {a : AdapterId} (h : step e lib s (.receive a) = some s') :
    lib a = true ∧ ∃ n w, s.received a ≤ n ∧ s.service.disp.out[n]? = some w ∧ w.dest = a ∧
      s' = { s.setClient a (handleReceived (s.clients a) w.caps n) with
        received := Function.update s.received a (n + 1) } := by
  simp only [step, Option.ite_none_right_eq_some] at h
  obtain ⟨hlib, h⟩ := h
  obtain ⟨n, hn, h⟩ := Option.bind_eq_some_iff.mp h
  obtain ⟨w, hw, rfl⟩ := Option.map_eq_some_iff.mp h
  refine ⟨hlib, s.received a + n, w, Nat.le_add_right _ _, hw, ?_, rfl⟩
  obtain ⟨hlt, harrives, -⟩ := List.findIdx?_eq_some_iff_getElem.mp hn
  rw [List.getElem_drop, (List.getElem?_eq_some_iff.mp hw).2] at harrives
  exact beq_iff_eq.mp (Bool.and_eq_true_iff.mp harrives).1

/-- The service takes no part in an action, or one step. -/
theorem step_serviceStep {act : Action} (h : step e lib s act = some s') :
    s'.service = s.service ∨ ∃ sact, Service.step e s.service sact = some s'.service ∧
      (act = .service sact ∨ ∃ a caps, sact = .put a caps) := by
  cases act with
  | service sact =>
    obtain ⟨_, service, hservice, rfl⟩ := step_service h
    exact .inr ⟨sact, hservice, .inl rfl⟩
  | deliver a =>
    obtain ⟨caps, rest, service, _, hservice, rfl⟩ := step_deliver h
    exact .inr ⟨.put a caps, hservice, .inr ⟨a, caps, rfl⟩⟩
  | client a cact =>
    obtain ⟨_, _, c, _, rfl⟩ := step_client h
    exact .inl rfl
  | transmit a ok =>
    obtain ⟨_, key, r, c, _, _, _, rfl⟩ := step_transmit h
    cases ok <;> exact .inl rfl
  | request a caps =>
    obtain ⟨_, _, rfl⟩ := step_request h
    exact .inl rfl
  | receive a =>
    obtain ⟨_, n, w, _, _, _, rfl⟩ := step_receive h
    exact .inl rfl

theorem service_reachable (h : (system e lib).Reachable s) :
    (Service.system e).Reachable s.service := by
  apply h.invariant (P := fun s => (Service.system e).Reachable s.service)
  · rintro s ⟨service, hservice, rfl⟩
    exact .start hservice
  · intro s act t hs hst
    obtain hsame | ⟨sact, hservice, -⟩ := step_serviceStep hst
    · rw [hsame]
      exact hs
    · exact hs.next hservice

end Net

end Flora
