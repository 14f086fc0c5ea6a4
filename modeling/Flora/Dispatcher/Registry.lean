import Flora.Dispatcher.System

/-! # The registry: names, client records, monitor records

The maps that `add_adapter`, `add_monitor` and `do_erase_adapter` maintain, seen as functions. A
step leaves the registry alone, registers the sender of an auth request, or erases a sender. -/

namespace Flora

open TransitionSystem

/-- The registry of a dispatcher without the method sets. -/
structure Registry where
  named : String → Option AdapterId
  clients : AdapterId → Option MonitorListItem
  monitors : AdapterId → Option MonitorListItem
  info : AdapterId → Option InfoRef
  idseq : Nat

namespace Registry

def enrolClient (r : Registry) (name : String) (flags pid : Word) (a : AdapterId) : Registry where
  named := if name = "" then r.named else Function.update r.named name (some a)
  clients := match r.clients a with
    | some _ => r.clients
    | none => Function.update r.clients a (some ⟨BitVec.ofNat 32 (r.idseq + 1), pid, name, flags⟩)
  monitors := r.monitors
  info := match r.clients a with
    | some _ => r.info
    | none => Function.update r.info a (some .client)
  idseq := r.idseq + 1

def enrolMonitor (r : Registry) (name : String) (flags : Word) (a : AdapterId) : Registry where
  named := r.named
  clients := r.clients
  monitors := match r.monitors a with
    | some _ => r.monitors
    | none => Function.update r.monitors a (some ⟨BitVec.ofNat 32 (r.idseq + 1), 0, name, flags⟩)
  info := match r.monitors a with
    | some _ => r.info
    | none => Function.update r.info a (some .monitor)
  idseq := r.idseq + 1

/-- The effect of an auth request. -/
def authenticate (r : Registry) (service : Word) (req : AuthReq) (a : AdapterId) : Registry :=
  if req.version < 3 then r
  else if hasMonitorFlag req.flags then
    if hasMonitorFlag service then r.enrolMonitor req.extra req.flags a else r
  else if req.extra ≠ "" ∧ r.named req.extra ≠ none then r
  else r.enrolClient req.extra req.flags req.pid a

def deref (r : Registry) (a : AdapterId) : Option MonitorListItem :=
  match r.info a with
  | none => none
  | some .client => r.clients a
  | some .monitor => r.monitors a

/-- The effect of an erase command on a sender with record `item`. -/
def erase (r : Registry) (a : AdapterId) (item : MonitorListItem) : Registry :=
  { r with
    named := if item.name = "" then r.named else Function.update r.named item.name none
    clients := if hasMonitorFlag item.flags then r.clients else Function.update r.clients a none
    monitors := if hasMonitorFlag item.flags then Function.update r.monitors a none
      else r.monitors }

/-- An auth request of `a`, if its message is one. -/
def handle (r : Registry) (service : Word) (req : Option AuthReq) (a : AdapterId) : Registry :=
  match req with
  | none => r
  | some req => r.authenticate service req a

/-- The erase command of `a`. -/
def leave (r : Registry) (a : AdapterId) : Registry :=
  match r.deref a with
  | none => r
  | some item => r.erase a item

theorem leave_of_some {r : Registry} {a : AdapterId} {item : MonitorListItem}
    (h : r.deref a = some item) : r.leave a = r.erase a item := by
  simp only [leave, h]

theorem leave_of_none {r : Registry} {a : AdapterId} (h : r.deref a = none) : r.leave a = r := by
  simp only [leave, h]

end Registry

namespace Dispatcher

variable {e : Env} {d d' : Dispatcher}

def registry (d : Dispatcher) : Registry where
  named n := d.namedAdapters.lookup n
  clients a := (d.adapterInfos.lookup a).map AdapterInfo.item
  monitors a := (d.monitors.lookup a).map AdapterInfo.item
  info a := (d.adapters a).info
  idseq := d.idseq

theorem registry_deref (d : Dispatcher) (a : AdapterId) :
    d.registry.deref a = (d.deref a).map AdapterInfo.item := by
  simp only [Registry.deref, deref, registry]
  cases (d.adapters a).info with
  | none => rfl
  | some ref => cases ref <;> rfl

theorem Writes.registry {ws : List Write} (h : Writes d ws d') : d'.registry = d.registry := by
  simp only [Dispatcher.registry, h.namedAdapters, h.adapterInfos, h.monitors, h.info, h.idseq]

theorem registry_close (d : Dispatcher) (a : AdapterId) : (d.close a).registry = d.registry := by
  simp only [registry, close_adapters]
  rfl

theorem lookup_insert_eq_update {α β : Type} [DecidableEq α] (m : AList fun _ : α => β) (a : α)
    (b : β) : (fun x => (m.insert a b).lookup x) = Function.update (fun x => m.lookup x) a (some b) := by
  funext x
  by_cases h : x = a
  · subst h
    simp
  · simp [AList.lookup_insert_ne h, h]

theorem lookup_erase_eq_update {α β : Type} [DecidableEq α] (m : AList fun _ : α => β) (a : α) :
    (fun x => (m.erase a).lookup x) = Function.update (fun x => m.lookup x) a none := by
  funext x
  by_cases h : x = a
  · subst h
    simp
  · simp [AList.lookup_erase_ne h, h]

theorem items_insert (m : AdapterInfoMap) (a : AdapterId) (info : AdapterInfo) :
    (fun x => ((m.insert a info).lookup x).map AdapterInfo.item) =
      Function.update (fun x => (m.lookup x).map AdapterInfo.item) a (some info.item) := by
  funext x
  by_cases h : x = a
  · subst h
    simp
  · simp [AList.lookup_insert_ne h, h]

theorem items_erase (m : AdapterInfoMap) (a : AdapterId) :
    (fun x => ((m.erase a).lookup x).map AdapterInfo.item) =
      Function.update (fun x => (m.lookup x).map AdapterInfo.item) a none := by
  funext x
  by_cases h : x = a
  · subst h
    simp
  · simp [AList.lookup_erase_ne h, h]

theorem registry_setInfo {a : AdapterId} {info : AdapterInfo} {methods : List String}
    (h : d.deref a = some info) :
    (d.setInfo a { info with declaredMethods := methods }).registry = d.registry := by
  have same (m : AdapterInfoMap) (hm : m.lookup a = some info) :
      (fun x => ((m.insert a { info with declaredMethods := methods }).lookup x).map
        AdapterInfo.item) = fun x => (m.lookup x).map AdapterInfo.item := by
    funext x
    by_cases hx : x = a
    · subst hx
      simp [hm, AdapterInfo.item]
    · simp [AList.lookup_insert_ne hx]
  cases hinfo : (d.adapters a).info with
  | none => simp [deref, hinfo] at h
  | some ref =>
    cases ref with
    | client =>
      have hm : d.adapterInfos.lookup a = some info := by simpa [deref, hinfo] using h
      simp only [setInfo, hinfo, registry, same _ hm]
    | monitor =>
      have hm : d.monitors.lookup a = some info := by simpa [deref, hinfo] using h
      simp only [setInfo, hinfo, registry, same _ hm]

theorem nameLength_pos_iff {name : String} : name.length > 0 ↔ name ≠ "" := by
  rw [gt_iff_lt, Nat.pos_iff_ne_zero, Ne, String.length_eq_zero_iff]

theorem registry_addAdapterInfo (name : String) (flags pid : Word) (a : AdapterId)
    (d : Dispatcher) (named : NameMap AdapterId)
    (hnamed : (fun n => named.lookup n) =
      if name = "" then fun n => d.namedAdapters.lookup n
      else Function.update (fun n => d.namedAdapters.lookup n) name (some a)) :
    (addAdapterInfo name flags pid a { d with namedAdapters := named }).registry =
      d.registry.enrolClient name flags pid a := by
  unfold addAdapterInfo
  cases hkey : d.adapterInfos.lookup a with
  | some info =>
    simp only [hkey]
    simp only [registry, Registry.enrolClient, hnamed, hkey, Option.map_some]
  | none =>
    simp only [hkey]
    simp only [registry, Registry.enrolClient, hkey, Option.map_none]
    congr 1
    · exact items_insert _ _ _
    · funext b
      rw [setAdapter_adapters]
      by_cases hb : b = a
      · subst hb
        simp
      · simp [hb]

theorem registry_addMonitor (name : String) (flags : Word) (a : AdapterId) (d : Dispatcher) :
    (addMonitor name flags a d).registry = d.registry.enrolMonitor name flags a := by
  unfold addMonitor
  cases hkey : d.monitors.lookup a with
  | some info =>
    simp only [hkey]
    simp only [registry, Registry.enrolMonitor, hkey, Option.map_some]
  | none =>
    simp only [hkey]
    simp only [registry, Registry.enrolMonitor, hkey, Option.map_none]
    congr 1
    · exact items_insert _ _ _
    · funext b
      rw [setAdapter_adapters]
      by_cases hb : b = a
      · subst hb
        simp
      · simp [hb]

theorem registry_setTag (d : Dispatcher) (a : AdapterId) (t : BitVec 64) :
    (d.setAdapter a { d.adapters a with tag := t }).registry = d.registry := by
  simp only [registry]
  congr 1
  funext b
  rw [setAdapter_adapters]
  split
  · rename_i h
    rw [h]
  · rfl

theorem addAdapter_eq (name : String) (flags pid : Word) (a : AdapterId) (d : Dispatcher) :
    ((addAdapter name flags pid a d).2 = false ∧ name ≠ "" ∧ d.namedAdapters.lookup name ≠ none ∧
      (addAdapter name flags pid a d).1 = d) ∨
    ((addAdapter name flags pid a d).2 = true ∧
      (name = "" ∨ d.namedAdapters.lookup name = none) ∧
      (addAdapter name flags pid a d).1.registry = d.registry.enrolClient name flags pid a) := by
  unfold addAdapter
  split
  · rename_i hlen
    have hne := nameLength_pos_iff.mp hlen
    cases hkey : d.namedAdapters.lookup name with
    | some b =>
      rw [AssocMap.insertNew_of_some hkey]
      exact .inl ⟨rfl, hne, nofun, rfl⟩
    | none =>
      rw [AssocMap.insertNew_of_none hkey]
      refine .inr ⟨rfl, .inr rfl, ?_⟩
      apply registry_addAdapterInfo
      rw [if_neg hne]
      exact lookup_insert_eq_update _ _ _
  · rename_i hlen
    have hempty : name = "" := not_not.mp fun hne => hlen (nameLength_pos_iff.mpr hne)
    refine .inr ⟨rfl, .inl hempty, ?_⟩
    exact registry_addAdapterInfo name flags pid a d d.namedAdapters (by rw [if_pos hempty])

/-- `authenticate` acts on the registry as its view says, and succeeds exactly when it enrols. -/
theorem registry_authenticate (req : AuthReq) (a : AdapterId) (d : Dispatcher) :
    (authenticate e req a d).1.registry = d.registry.authenticate e.flags req a := by
  unfold authenticate Registry.authenticate
  by_cases hver : req.version < 3
  · rw [if_pos hver, if_pos hver]
  · rw [if_neg hver, if_neg hver]
    dsimp only
    generalize htag : (if (d.adapters a).tag = 0 then req.pid.setWidth 64 else (d.adapters a).tag) = t
    have hreg := registry_setTag d a t
    generalize d.setAdapter a { d.adapters a with tag := t } = d₁ at hreg ⊢
    by_cases hmon : hasMonitorFlag req.flags = true
    · rw [if_pos hmon, if_pos hmon]
      by_cases hsvc : hasMonitorFlag e.flags = true
      · rw [if_pos hsvc, if_pos hsvc, registry_addMonitor, hreg]
      · rw [if_neg hsvc, if_neg hsvc, hreg]
    · rw [if_neg hmon, if_neg hmon]
      have hnamed : d₁.namedAdapters.lookup req.extra = d.registry.named req.extra := by
        rw [← hreg]
        rfl
      obtain ⟨hflag, hne, hkey, hsame⟩ | ⟨hflag, hfree, henrol⟩ :=
        addAdapter_eq req.extra req.flags req.pid a d₁
      · rw [hnamed] at hkey
        rw [if_pos ⟨hne, hkey⟩]
        generalize addAdapter req.extra req.flags req.pid a d₁ = res at hflag hsame ⊢
        obtain ⟨d₂, ok⟩ := res
        cases hflag
        rw [← hreg, ← hsame]
      · rw [hnamed] at hfree
        rw [if_neg (by rintro ⟨hne, hkey⟩; exact hfree.elim hne hkey)]
        generalize addAdapter req.extra req.flags req.pid a d₁ = res at hflag henrol ⊢
        obtain ⟨d₂, ok⟩ := res
        cases hflag
        rw [← hreg, ← henrol]

/-- The auth request succeeds: the version is supported, and the service has the monitor feature or
the client's name is not in use. -/
def admits (e : Env) (d : Dispatcher) (req : AuthReq) : Bool :=
  if req.version < 3 then false
  else if hasMonitorFlag req.flags then hasMonitorFlag e.flags
  else req.extra = "" || (d.namedAdapters.lookup req.extra).isNone

theorem authenticate_result (req : AuthReq) (sender : AdapterId) (d : Dispatcher) :
    (authenticate e req sender d).2 = cliSuccess ↔ d.admits e req = true := by
  unfold authenticate admits
  by_cases hver : req.version < 3
  · rw [if_pos hver, if_pos hver]
    have hne : cliEauth ≠ cliSuccess := by decide
    exact iff_of_false hne Bool.false_ne_true
  · rw [if_neg hver, if_neg hver]
    by_cases hmon : hasMonitorFlag req.flags = true
    · by_cases hsvc : hasMonitorFlag e.flags = true
      · simp [hmon, hsvc]
      · simp [hmon, hsvc, cliEauth, cliSuccess]
    · simp only [hmon, Bool.false_eq_true, if_false]
      generalize htag : (if (d.adapters sender).tag = 0 then req.pid.setWidth 64
        else (d.adapters sender).tag) = t
      have hnamed : (d.setAdapter sender { d.adapters sender with tag := t }).namedAdapters =
        d.namedAdapters := rfl
      obtain ⟨hflag, hne, hkey, _⟩ | ⟨hflag, hfree, _⟩ := addAdapter_eq req.extra req.flags req.pid
        sender (d.setAdapter sender { d.adapters sender with tag := t })
      · rw [hnamed] at hkey
        generalize addAdapter req.extra req.flags req.pid sender
          (d.setAdapter sender { d.adapters sender with tag := t }) = res at hflag ⊢
        obtain ⟨d₂, ok⟩ := res
        cases hflag
        simp [hne, hkey, cliEdupid, cliSuccess]
      · rw [hnamed] at hfree
        generalize addAdapter req.extra req.flags req.pid sender
          (d.setAdapter sender { d.adapters sender with tag := t }) = res at hflag ⊢
        obtain ⟨d₂, ok⟩ := res
        cases hflag
        simpa using hfree

theorem registry_authenticate_cases (req : AuthReq) (sender : AdapterId) (d : Dispatcher) :
    (authenticate e req sender d).1.registry =
      if d.admits e req then
        if hasMonitorFlag req.flags then d.registry.enrolMonitor req.extra req.flags sender
        else d.registry.enrolClient req.extra req.flags req.pid sender
      else d.registry := by
  rw [registry_authenticate]
  unfold Registry.authenticate admits
  by_cases hver : req.version < 3
  · rw [if_pos hver, if_pos hver]
    rfl
  · rw [if_neg hver, if_neg hver]
    by_cases hmon : hasMonitorFlag req.flags = true
    · rw [if_pos hmon, if_pos hmon, if_pos hmon]
    · rw [if_neg hmon, if_neg hmon, if_neg hmon]
      by_cases hname : req.extra = ""
      · simp [hname]
      · cases hkey : d.namedAdapters.lookup req.extra with
        | none => simp [registry, hkey]
        | some a => simp [hname, registry, hkey]

theorem authenticate_granted {req : AuthReq} {a : AdapterId} (hver : ¬ req.version < 3)
    (hflag : hasMonitorFlag req.flags = false)
    (hfree : req.extra = "" ∨ d.namedAdapters.lookup req.extra = none) :
    (authenticate e req a d).2 = cliSuccess := by
  rw [authenticate_result, admits, if_neg hver, hflag, if_neg Bool.false_ne_true]
  simpa using hfree

theorem authenticate_refused {req : AuthReq} {a : AdapterId} (hn : req.extra ≠ "")
    (hflag : hasMonitorFlag req.flags = false) (hnamed : d.namedAdapters.lookup req.extra ≠ none) :
    (authenticate e req a d).2 ≠ cliSuccess := by
  rw [ne_eq, authenticate_result, admits, hflag]
  split
  · exact Bool.false_ne_true
  · simp [hn, hnamed]

theorem registry_of_refused {req : AuthReq} {a : AdapterId} (h : d.admits e req = false) :
    d.registry.authenticate e.flags req a = d.registry := by
  rw [← registry_authenticate, registry_authenticate_cases, h, if_neg Bool.false_ne_true]

theorem registry_checkSubscriptions (now : Nat) (d : Dispatcher) :
    (checkSubscriptions now d).registry = d.registry := by
  unfold checkSubscriptions
  split
  · rfl
  · split <;> rfl

theorem registry_eraseName (name : String) (d : Dispatcher) :
    (eraseName name d).registry =
      { d.registry with named :=
          if name = "" then d.registry.named else Function.update d.registry.named name none } := by
  unfold eraseName
  split
  · rename_i hlen
    rw [if_neg (nameLength_pos_iff.mp hlen)]
    simp only [registry, lookup_erase_eq_update]
  · rename_i hlen
    rw [if_pos (not_not.mp fun hne => hlen (nameLength_pos_iff.mpr hne))]

theorem registry_eraseMonitor (a : AdapterId) (d : Dispatcher) :
    ({ d with monitors := d.monitors.erase a } : Dispatcher).registry =
      { d.registry with monitors := Function.update d.registry.monitors a none } := by
  simp only [registry, items_erase]

theorem registry_eraseClient (a : AdapterId) (d : Dispatcher) :
    ({ d with adapterInfos := d.adapterInfos.erase a } : Dispatcher).registry =
      { d.registry with clients := Function.update d.registry.clients a none } := by
  simp only [registry, items_erase]

theorem registry_doEraseAdapter {now : Nat} {sender : AdapterId}
    (h : doEraseAdapter e now sender d = some d') :
    d'.registry = d.registry.leave sender := by
  obtain ⟨hinfo, rfl⟩ | ⟨info, d₁, ws, hderef, hws, _, rfl⟩ := doEraseAdapter_spec h
  · have hnone : d'.registry.deref sender = none := by
      rw [registry_deref, deref, hinfo]
      rfl
    rw [Registry.leave_of_none hnone]
  · have hitem : d.registry.deref sender = some info.item := by
      rw [registry_deref, hderef]
      rfl
    rw [Registry.leave_of_some hitem]
    have hreg := hws.registry
    rw [registry_eraseName] at hreg
    have hname : info.item.name = info.name := rfl
    have hflags : info.item.flags = info.flags := rfl
    rw [registry_checkSubscriptions, Registry.erase, hname, hflags]
    split
    · rw [registry_eraseMonitor, hreg]
    · rw [registry_eraseClient, hreg]

/-- Only an auth request changes the registry. -/
theorem registry_updates {now : Nat} {cmd : Int} {sender : AdapterId} (hcmd : cmd ≠ 0)
    (h : Relation.ReflTransGen (Update e now sender cmd) d d') : d'.registry = d.registry := by
  induction h with
  | refl => rfl
  | tail _ hup ih =>
    refine Eq.trans ?_ ih
    cases hup with
    | authenticate => exact absurd rfl hcmd
    | purge name =>
      rw [purge_rest]
      rfl
    | persist name msgtype args =>
      rw [persistPost_rest]
      rfl
    | methods names _ hderef => exact registry_setInfo hderef
    | write hws => exact hws.registry
    | subscribe | unsubscribe | reply | refuse | enter => rfl

theorem registry_msgHandler {now : Nat} {cmd : Word} {caps : Caps} {sender : AdapterId} {ok : Bool}
    (h : msgHandler e now cmd.toInt caps sender d = some (d', ok)) :
    d'.registry = d.registry.handle e.flags
      (if cmd = cmdAuthReq then RequestParser.parseAuth caps else none) sender := by
  by_cases hauth : cmd = cmdAuthReq
  · subst hauth
    have h : handleAuthReq e caps sender d = some (d', ok) := h
    rw [if_pos rfl]
    obtain ⟨hparse, rfl, _⟩ | ⟨req, ws, hparse, hws, _, _⟩ := handleAuthReq_spec h
    · rw [hparse]
      rfl
    · rw [hparse, hws.registry, registry_authenticate]
      rfl
  · rw [if_neg hauth]
    exact registry_updates (fun hzero => hauth (BitVec.eq_of_toInt_eq hzero)) (msgHandler_updates h)

/-- The auth request a step handles. -/
def handledAuth (d : Dispatcher) (caps : Caps) (sender : AdapterId) : Option AuthReq :=
  (d.request cmdAuthReq caps sender).bind RequestParser.parseAuth

/-- What a step does to the registry. -/
def registryAfter (e : Env) (d : Dispatcher) : Action → Registry
  | .msg caps sender _ _ => d.registry.handle e.flags (d.handledAuth caps sender) sender
  | .erase sender _ => d.registry.leave sender
  | _ => d.registry

theorem registry_handleMsg {now done : Nat} {caps : Caps} {sender : AdapterId}
    (h : handleMsg e now done caps sender d = some d') :
    d'.registry = d.registry.handle e.flags (d.handledAuth caps sender) sender := by
  obtain ⟨rfl, hnone⟩ | ⟨cmd, rest, d₁, ok, hreq, hh, rfl⟩ := handleMsg_request h
  · rw [handledAuth, hnone cmdAuthReq (by decide)]
    exact registry_close d sender
  · have hclosed : ({ (if ok then d₁ else d₁.close sender) with handleCmdTp := done } :
        Dispatcher).registry = d₁.registry := by
      cases ok
      · exact registry_close d₁ sender
      · rfl
    rw [hclosed, registry_msgHandler hh, handledAuth]
    by_cases hcmd : cmd = cmdAuthReq
    · rw [if_pos hcmd, ← hcmd, hreq]
      rfl
    · rw [if_neg hcmd, request_unique hreq (Ne.symm hcmd)]
      rfl

theorem step_registry {act : Action} (h : step e d act = some d') :
    d'.registry = registryAfter e d act := by
  cases act with
  | msg caps sender now done => exact registry_handleMsg (step_msg h).2
  | erase sender now => exact registry_doEraseAdapter (step_erase h).2
  | expire tp =>
    obtain ⟨expired, rest, ws, _, hws, _, _, _⟩ := discardPendingCalls_spec h
    exact hws.registry
  | close a =>
    cases h
    exact registry_close d a
  | destroy a =>
    obtain ⟨_, _, rfl⟩ := step_destroy h
    simp only [registry, registryAfter]
    congr 1
    funext b
    rw [setAdapter_adapters]
    split
    · rename_i hb
      rw [hb]
    · rfl

theorem flags_of_isMonitor {sender : AdapterId} (h : isMonitor sender d = some false)
    {item : MonitorListItem} (hitem : d.registry.deref sender = some item) :
    hasMonitorFlag item.flags = false := by
  rw [registry_deref] at hitem
  obtain ⟨info, hderef, rfl⟩ := Option.map_eq_some_iff.mp hitem
  unfold isMonitor at h
  split at h
  · rename_i hinfo
    simp [deref, hinfo] at hderef
  · rw [hderef] at h
    exact Option.some.inj h

end Dispatcher

end Flora
