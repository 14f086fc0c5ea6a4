import Flora.Client.Commands
import Flora.Dispatcher.Notices

/-! # The monitor's view of the clients

`MonitorView` of `monitor/main.cc` keeps a list of the clients from the callbacks of its receive
thread: what it makes of each message on its connection. -/

namespace Flora

structure MonitorView where
  floraClients : List MonitorListItem := []
  /-- History: `list_all` has been called in this session. -/
  listed : Bool := false

namespace MonitorView

def listAll (v : MonitorView) (infos : List MonitorListItem) : MonitorView where
  floraClients := v.floraClients ++ infos
  listed := true

def listAdd (v : MonitorView) (info : MonitorListItem) : MonitorView :=
  { v with floraClients := v.floraClients ++ [info] }

def listRemove (v : MonitorView) (id : Word) : MonitorView :=
  { v with floraClients := v.floraClients.eraseP (·.id == id) }

/-- The callback for what the receive thread hands on. -/
def callback (v : MonitorView) : Received → MonitorView
  | .listAll infos => v.listAll infos
  | .listAdd info => v.listAdd info
  | .listRemove id => v.listRemove id
  | _ => v

/-- A message on the monitor's connection, after its auth response. -/
def receive (v : MonitorView) (caps : Caps) : MonitorView :=
  match caps.readWord with
  | none => v
  | some (cmd, resp) =>
    match Client.handleCmdAfterAuth true cmd resp with
    | .error _ => v
    | .ok received => v.callback received

theorem callback_ordinary (v : MonitorView) {cmd : Word} {resp : Caps} {received : Received}
    (hcmd : cmd ≠ cmdMonitorResp) (h : Client.handleCmdAfterAuth true cmd resp = .ok received) :
    v.callback received = v := by
  unfold Client.handleCmdAfterAuth at h
  split at h
  · obtain ⟨_, rfl⟩ := Client.of_orInvalid_map h
    rfl
  · split at h
    · obtain ⟨_, rfl⟩ := Client.of_orInvalid_map h
      rfl
    · split at h
      · obtain ⟨_, rfl⟩ := Client.of_orInvalid_map h
        rfl
      · split at h
        · cases h
          rfl
        · cases h

theorem receive_ordinary (v : MonitorView) {caps : Caps}
    (h : Dispatcher.isMonitorResp caps = false) : v.receive caps = v := by
  unfold receive
  split
  · rfl
  · rename_i cmd resp hread
    have hcmd : cmd ≠ cmdMonitorResp := by
      rintro rfl
      simp [Dispatcher.isMonitorResp, hread] at h
    split
    · rfl
    · rename_i received hhandler
      exact callback_ordinary v hcmd hhandler

theorem receive_listAll (v : MonitorView) {infos : List MonitorListItem}
    (h : infos.length < 2 ^ 32) :
    v.receive (ResponseSerializer.serializeMonitorListAll infos) = v.listAll infos := by
  change (match Except.map Received.listAll (ResponseParser.parseMonitorListAll
      ((ResponseSerializer.serializeMonitorListAll infos).drop 2)) with
    | .error _ => v
    | .ok received => v.callback received) = _
  rw [ResponseParser.parseMonitorListAll_serialized infos h]
  rfl

/-- The messages that `m` received among some writes. -/
def receiveAll (v : MonitorView) (m : AdapterId) (ws : List Write) : MonitorView :=
  (ws.filter (·.dest == m)).foldl (fun v w => v.receive w.caps) v

theorem receiveAll_eq (v : MonitorView) (m : AdapterId) (ws : List Write) :
    v.receiveAll m ws = (Dispatcher.noticesTo m (ws.map Write.request)).foldl receive v := by
  unfold receiveAll Dispatcher.noticesTo
  induction ws generalizing v with
  | nil => rfl
  | cons w ws ih =>
    rw [List.map_cons, List.filter_cons, List.filter_cons]
    cases hdest : w.dest == m with
    | false =>
      rw [if_neg Bool.false_ne_true, if_neg (by simp [Write.request, hdest]), ih]
    | true =>
      rw [if_pos rfl, List.foldl_cons, ih]
      cases hcaps : Dispatcher.isMonitorResp w.caps with
      | false => rw [receive_ordinary v hcaps, if_neg (by simp [Write.request, hcaps])]
      | true =>
        rw [if_pos (by simpa [Write.request, hcaps] using hdest)]
        rfl

end MonitorView

end Flora
