import Flora.Dispatcher.Ownership
import Flora.Dispatcher.PendingCalls
import Flora.Lib.Directory

/-! # Declared methods and where calls go

The names and the declared methods of the clients form a directory. As long as the registry is kept
consistent, every command changes it as its request says, and a call is forwarded to the client that
the directory names, or refused if there is none. -/

namespace Flora

open TransitionSystem Directory

namespace Dispatcher

variable {e : Env} {d d' : Dispatcher} {a sender : AdapterId} {caps : Caps}

abbrev MethodEvent := Event String AdapterId String

def offers (d : Dispatcher) (a : AdapterId) : Set String :=
  {m | ∃ info, d.adapterInfos.lookup a = some info ∧ info.hasMethod m = true}

def directory (d : Dispatcher) : Entries String AdapterId String := ⟨d.registry.named, d.offers⟩

/-- The auth request gives the sender a name. -/
def Joins (e : Env) (d : Dispatcher) (req : AuthReq) (a : AdapterId) : Prop :=
  (authenticate e req a d).2 = cliSuccess ∧ hasMonitorFlag req.flags = false ∧ req.extra ≠ ""

instance (req : AuthReq) : Decidable (Joins e d req a) := inferInstanceAs (Decidable (_ ∧ _ ∧ _))

/-- The method that a request with the command `cmd` is about. -/
def methodName (d : Dispatcher) (cmd : Word) (parse : Caps → Option String) (caps : Caps)
    (sender : AdapterId) : Option String :=
  (d.request cmd caps sender).bind fun rest => requestedName parse rest sender d

def messageEvent (e : Env) (d : Dispatcher) (caps : Caps) (sender : AdapterId) : MethodEvent :=
  match d.handledAuth caps sender with
  | some req => if Joins e d req sender then .join req.extra sender else .silent
  | none =>
    match d.methodName cmdDeclareMethodReq RequestParser.parseDeclareMethod caps sender with
    | some m => .offer sender m
    | none =>
      match d.methodName cmdRemoveMethodReq RequestParser.parseRemoveMethod caps sender with
      | some m => .withdraw sender m
      | none => .silent

/-- What a command means to the directory. -/
def methodEvent (e : Env) (d : Dispatcher) : Action → MethodEvent
  | .msg caps sender _ _ => messageEvent e d caps sender
  | .erase sender _ =>
    match d.deref sender with
    | some info => if hasMonitorFlag info.flags then .silent else .leave sender
    | none => .silent
  | _ => .silent

theorem offers_congr (h : d'.adapterInfos = d.adapterInfos) : d'.offers = d.offers := by
  funext a
  rw [offers, h]
  rfl

theorem offers_addAdapterInfo (name : String) (flags pid : Word) :
    (addAdapterInfo name flags pid a d).offers = d.offers := by
  unfold addAdapterInfo
  cases hkey : d.adapterInfos.lookup a with
  | some info =>
    simp only [hkey]
    rfl
  | none =>
    simp only [hkey]
    funext b
    ext m
    by_cases hb : b = a
    · subst hb
      simp [offers, hkey, AdapterInfo.hasMethod]
    · simp [offers, AList.lookup_insert_ne hb]

theorem adapterInfos_addMonitor (name : String) (flags : Word) :
    (addMonitor name flags a d).adapterInfos = d.adapterInfos := by
  unfold addMonitor
  dsimp only
  split <;> rfl

/-- A new record declares nothing. -/
theorem offers_authenticate (req : AuthReq) : (authenticate e req a d).1.offers = d.offers := by
  unfold authenticate
  split
  · rfl
  · dsimp only
    split
    · split
      · exact (offers_congr (adapterInfos_addMonitor _ _)).trans rfl
      · rfl
    · have hadd (d₀ : Dispatcher) (hd₀ : d₀.offers = d.offers) :
          (addAdapter req.extra req.flags req.pid a d₀).1.offers = d.offers := by
        unfold addAdapter
        split
        · split
          · exact hd₀
          · exact (offers_addAdapterInfo _ _ _).trans hd₀
        · exact (offers_addAdapterInfo _ _ _).trans hd₀
      split
      · rename_i d₁ heq
        rw [← show _ = d₁ from congrArg Prod.fst heq]
        exact hadd _ rfl
      · rename_i d₁ heq
        rw [← show _ = d₁ from congrArg Prod.fst heq]
        exact hadd _ rfl

/-- An auth request gives a name or leaves the names alone. -/
theorem named_authenticate (req : AuthReq) :
    (d.registry.authenticate e.flags req a).named =
      if Joins e d req a then Function.update d.registry.named req.extra (some a)
      else d.registry.named := by
  unfold Registry.authenticate
  by_cases hver : req.version < 3
  · have hrefused : ¬ Joins e d req a := by
      rintro ⟨hres, -⟩
      rw [authenticate, if_pos hver] at hres
      exact absurd hres (by decide : cliEauth ≠ cliSuccess)
    rw [if_pos hver, if_neg hrefused]
  · rw [if_neg hver]
    cases hclient : hasMonitorFlag req.flags with
    | true =>
      have hmonitor : ¬ Joins e d req a := fun h => Bool.noConfusion (hclient.symm.trans h.2.1)
      rw [if_neg hmonitor, if_pos rfl]
      split <;> rfl
    | false =>
      rw [if_neg Bool.false_ne_true]
      by_cases hname : req.extra = ""
      · rw [if_neg fun h => h.1 hname, if_neg fun h : Joins e d req a => h.2.2 hname]
        exact if_pos hname
      · by_cases hfree : d.registry.named req.extra = none
        · rw [if_neg fun h => h.2 hfree,
            if_pos ⟨authenticate_granted hver hclient (.inr hfree), hclient, hname⟩]
          exact if_neg hname
        · rw [if_pos ⟨hname, hfree⟩,
            if_neg fun h : Joins e d req a => authenticate_refused hname hclient hfree h.1]

theorem offers_setInfo {info : AdapterInfo} (names : List String)
    (hinfo : (d.adapters a).info = some .client) :
    (d.setInfo a { info with declaredMethods := names }).offers =
      Function.update d.offers a {m | m ∈ names} := by
  funext b
  ext m
  rw [setInfo, hinfo]
  by_cases hb : b = a
  · subst hb
    simp [offers, AdapterInfo.hasMethod]
  · simp [offers, AList.lookup_insert_ne hb, Function.update_of_ne hb]

theorem offers_of_lookup {info : AdapterInfo} (h : d.adapterInfos.lookup a = some info) :
    d.offers a = {m | m ∈ info.declaredMethods} := by
  ext m
  simp [offers, h, AdapterInfo.hasMethod]

/-- A sender that passes the gate has a client record, if it has one. -/
theorem client_of_deref {info : AdapterInfo} (hs : d.registry.Sorted)
    (hgate : isMonitor sender d = some false) (hderef : d.deref sender = some info) :
    (d.adapters sender).info = some .client ∧ d.adapterInfos.lookup sender = some info := by
  have hitem : d.registry.deref sender = some info.item := by
    rw [registry_deref, hderef]
    rfl
  obtain ⟨hinfo, -⟩ := hs.deref_client hitem (flags_of_isMonitor hgate hitem)
  have hinfo : (d.adapters sender).info = some .client := hinfo
  rw [deref, hinfo] at hderef
  exact ⟨hinfo, hderef⟩

theorem offers_handleDeclareMethod {ok : Bool} (hs : d.registry.Sorted)
    (hgate : isMonitor sender d = some false)
    (h : handleDeclareMethod caps sender d = some (d', ok)) :
    d'.offers = match requestedName RequestParser.parseDeclareMethod caps sender d with
      | some m => Function.update d.offers sender (insert m (d.offers sender))
      | none => d.offers := by
  obtain ⟨hnone, rfl, -⟩ | ⟨m, info, hname, hderef, h⟩ := nameRequest_spec h
  · rw [hnone]
  · cases h
    obtain ⟨hinfo, hlookup⟩ := client_of_deref hs hgate hderef
    have hmethods : (info.declareMethod m).1 =
        { info with declaredMethods := (info.declareMethod m).1.declaredMethods } := by
      unfold AdapterInfo.declareMethod
      split <;> rfl
    rw [hname, hmethods, offers_setInfo _ hinfo, offers_of_lookup hlookup]
    congr 1
    ext n
    exact info.mem_declareMethod m n

theorem offers_handleRemoveMethod {ok : Bool} (hs : d.registry.Sorted)
    (hgate : isMonitor sender d = some false)
    (h : handleRemoveMethod caps sender d = some (d', ok)) :
    d'.offers = match requestedName RequestParser.parseRemoveMethod caps sender d with
      | some m => Function.update d.offers sender (d.offers sender \ {m})
      | none => d.offers := by
  obtain ⟨hnone, rfl, -⟩ | ⟨m, info, hname, hderef, h⟩ := nameRequest_spec h
  · rw [hnone]
  · cases h
    obtain ⟨hinfo, hlookup⟩ := client_of_deref hs hgate hderef
    rw [hname, show info.removeMethod m = { info with
      declaredMethods := (info.removeMethod m).declaredMethods } from rfl, offers_setInfo _ hinfo,
      offers_of_lookup hlookup]
    congr 1
    ext n
    exact (info.mem_removeMethod m n).trans and_comm

/-- Only auth requests and the two requests about methods touch the client records. -/
theorem offers_updates {now : Nat} {cmd : Int} (hcmd : cmd ≠ 5 ∧ cmd ≠ 6)
    (h : Relation.ReflTransGen (Update e now sender cmd) d d') : d'.offers = d.offers := by
  induction h with
  | refl => rfl
  | tail _ hup ih =>
    refine Eq.trans ?_ ih
    cases hup with
    | authenticate req => exact offers_authenticate req
    | purge name =>
      rw [purge_rest]
      rfl
    | persist name msgtype args =>
      rw [persistPost_rest]
      rfl
    | methods names hcmd' _ => exact absurd hcmd' (not_or.mpr hcmd)
    | write hws => exact offers_congr hws.adapterInfos
    | subscribe | unsubscribe | reply | refuse | enter => rfl

theorem owner_messageEvent (e : Env) (d : Dispatcher) (caps : Caps) (sender : AdapterId) :
    (d.registry.handle e.flags (d.handledAuth caps sender) sender).named =
      (d.directory.apply (messageEvent e d caps sender)).owner := by
  unfold messageEvent
  cases d.handledAuth caps sender with
  | some req =>
    refine (named_authenticate req).trans ?_
    dsimp only
    split <;> rfl
  | none =>
    dsimp only
    split
    · rfl
    · split <;> rfl

theorem methodName_of_request {cmd : Word} {rest : Caps} (parse : Caps → Option String)
    (h : d.request cmd caps sender = some rest) :
    d.methodName cmd parse caps sender = requestedName parse rest sender d := by
  rw [methodName, h]
  rfl

theorem methodName_of_ne {cmd cmd' : Word} {rest : Caps} (parse : Caps → Option String)
    (h : d.request cmd caps sender = some rest) (hne : cmd' ≠ cmd) :
    d.methodName cmd' parse caps sender = none := by
  rw [methodName, request_unique h hne]
  rfl

theorem offers_messageEvent_of_none
    (hdeclare : d.methodName cmdDeclareMethodReq RequestParser.parseDeclareMethod caps sender = none)
    (hremove : d.methodName cmdRemoveMethodReq RequestParser.parseRemoveMethod caps sender = none) :
    (d.directory.apply (messageEvent e d caps sender)).offers = d.offers := by
  unfold messageEvent
  rw [hdeclare, hremove]
  split
  · split <;> rfl
  · rfl

theorem offers_msgHandler {now : Nat} {cmd : Word} {rest : Caps} {ok : Bool}
    (hs : d.registry.Sorted) (hreq : d.request cmd caps sender = some rest)
    (h : msgHandler e now cmd.toInt rest sender d = some (d', ok)) :
    d'.offers = (d.directory.apply (messageEvent e d caps sender)).offers := by
  have hgate : isMonitor sender d = some false := by
    unfold request at hreq
    split at hreq
    · assumption
    · cases hreq
  have hauth (hne : cmd ≠ cmdAuthReq) : d.handledAuth caps sender = none := by
    rw [handledAuth, request_unique hreq (Ne.symm hne)]
    rfl
  by_cases hdeclare : cmd = cmdDeclareMethodReq
  · subst hdeclare
    rw [messageEvent, hauth (by decide), methodName_of_request _ hreq,
      methodName_of_ne _ hreq (by decide),
      offers_handleDeclareMethod hs hgate (show handleDeclareMethod rest sender d = _ from h)]
    cases requestedName RequestParser.parseDeclareMethod rest sender d <;> rfl
  · by_cases hremove : cmd = cmdRemoveMethodReq
    · subst hremove
      rw [messageEvent, hauth (by decide), methodName_of_ne _ hreq (by decide),
        methodName_of_request _ hreq,
        offers_handleRemoveMethod hs hgate (show handleRemoveMethod rest sender d = _ from h)]
      cases requestedName RequestParser.parseRemoveMethod rest sender d <;> rfl
    · rw [offers_messageEvent_of_none (methodName_of_ne _ hreq (Ne.symm hdeclare))
        (methodName_of_ne _ hreq (Ne.symm hremove))]
      refine offers_updates ⟨fun heq => ?_, fun heq => ?_⟩ (msgHandler_updates h)
      · exact hdeclare (BitVec.eq_of_toInt_eq heq)
      · exact hremove (BitVec.eq_of_toInt_eq heq)

theorem directory_handleMsg {now done : Nat} (hs : d.registry.Sorted)
    (h : handleMsg e now done caps sender d = some d') :
    d'.directory = d.directory.apply (messageEvent e d caps sender) := by
  ext1
  · rw [← owner_messageEvent]
    exact congrArg Registry.named (registry_handleMsg h)
  · obtain ⟨rfl, hnone⟩ | ⟨cmd, rest, d₁, ok, hreq, hh, rfl⟩ := handleMsg_request h
    · refine Eq.trans ?_ (offers_messageEvent_of_none ?_ ?_).symm
      · rfl
      · rw [methodName, hnone cmdDeclareMethodReq (by decide)]
        rfl
      · rw [methodName, hnone cmdRemoveMethodReq (by decide)]
        rfl
    · refine Eq.trans ?_ (offers_msgHandler hs hreq hh)
      cases ok <;> rfl

/-- A client that leaves gives back its name, which is the only one it has. -/
theorem named_leave_client {r : Registry} {item : MonitorListItem} (hs : r.Sound)
    (hitem : r.deref sender = some item) (hclient : hasMonitorFlag item.flags = false) :
    (r.leave sender).named = fun n => if r.named n = some sender then none else r.named n := by
  obtain ⟨-, hrecord⟩ := hs.sorted.deref_client hitem hclient
  have howned (n : String) (hn : r.named n = some sender) : n ≠ "" ∧ item.name = n := by
    obtain ⟨hne, i, hi, hname⟩ := hs.consistent.named n sender hn
    cases hrecord.symm.trans hi
    exact ⟨hne, hname⟩
  rw [Registry.leave_of_some hitem]
  funext n
  simp only [Registry.erase]
  by_cases hn : r.named n = some sender
  · obtain ⟨hne, hname⟩ := howned n hn
    rw [if_pos hn, hname, if_neg hne, Function.update_self]
  · rw [if_neg hn]
    split
    · rfl
    · rename_i hne
      rw [Function.update_of_ne]
      rintro rfl
      exact hn (hs.consistent.clients sender item hrecord hne)

/-- A monitor that leaves has a name of its own. -/
theorem named_leave_monitor {r : Registry} {item : MonitorListItem}
    (hitem : r.deref sender = some item) (hmonitor : hasMonitorFlag item.flags = true)
    (hsteal : ¬ r.StealsName item) : (r.leave sender).named = r.named := by
  rw [Registry.leave_of_some hitem]
  simp only [Registry.erase]
  split
  · rfl
  · rename_i hne
    have hfree : r.named item.name = none := not_not.mp fun htaken => hsteal ⟨hmonitor, hne, htaken⟩
    rw [← hfree]
    exact Function.update_eq_self ..

theorem offers_doEraseAdapter {now : Nat} {info : AdapterInfo} (hderef : d.deref sender = some info)
    (h : doEraseAdapter e now sender d = some d') :
    d'.offers = if hasMonitorFlag info.flags then d.offers else Function.update d.offers sender ∅ := by
  obtain ⟨hinfo, rfl⟩ | ⟨info', d₁, ws, hderef', hws, -, rfl⟩ := doEraseAdapter_spec h
  · simp [deref, hinfo] at hderef
  · cases hderef.symm.trans hderef'
    have hname : d₁.adapterInfos = d.adapterInfos := by
      rw [hws.adapterInfos]
      unfold eraseName
      split <;> rfl
    rw [checkSubscriptions_rest]
    split
    · exact offers_congr hname
    · funext b
      ext m
      by_cases hb : b = sender
      · subst hb
        simp [offers]
      · simp [offers, AList.lookup_erase_ne hb, Function.update_of_ne hb, hname]

theorem directory_doEraseAdapter {now : Nat} (hs : d.registry.Sound)
    (hkeep : KeepsRegistry e d (.erase sender now))
    (h : doEraseAdapter e now sender d = some d') :
    d'.directory = d.directory.apply (methodEvent e d (.erase sender now)) := by
  have hreg := registry_doEraseAdapter h
  cases hderef : d.deref sender with
  | none =>
    have hevent : methodEvent e d (.erase sender now) = .silent := by simp only [methodEvent, hderef]
    rw [hevent]
    obtain ⟨-, rfl⟩ | ⟨info, d₁, ws, hderef', -⟩ := doEraseAdapter_spec h
    · rfl
    · cases hderef.symm.trans hderef'
  | some info =>
    have hitem : d.registry.deref sender = some info.item := by
      rw [registry_deref, hderef]
      rfl
    have hevent : methodEvent e d (.erase sender now) =
        if hasMonitorFlag info.flags then .silent else .leave sender := by
      simp only [methodEvent, hderef]
    have hoffers := offers_doEraseAdapter hderef h
    rw [hevent]
    split
    · rename_i hmonitor
      rw [if_pos hmonitor] at hoffers
      have hnamed := named_leave_monitor hitem hmonitor (hkeep info.item hitem)
      exact Entries.ext ((congrArg Registry.named hreg).trans hnamed) hoffers
    · rename_i hclient
      rw [if_neg hclient] at hoffers
      have hnamed := named_leave_client hs hitem (Bool.eq_false_iff.mpr hclient)
      exact Entries.ext ((congrArg Registry.named hreg).trans hnamed) hoffers

/-- Every command changes the directory as its request says. -/
theorem step_directory {act : Action} (hs : d.registry.Sound) (hkeep : KeepsRegistry e d act)
    (h : step e d act = some d') : d'.directory = d.directory.apply (methodEvent e d act) := by
  cases act with
  | msg caps sender now done => exact directory_handleMsg hs.sorted (step_msg h).2
  | erase sender now => exact directory_doEraseAdapter hs hkeep (step_erase h).2
  | expire tp =>
    obtain ⟨expired, rest, ws, -, hws, -⟩ := discardPendingCalls_spec h
    exact Entries.ext (congrArg Registry.named (step_registry h)) (offers_congr hws.adapterInfos)
  | close b =>
    cases h
    exact Entries.ext (congrArg Registry.named (registry_close d b)) rfl
  | destroy b =>
    refine Entries.ext (congrArg Registry.named (step_registry h)) ?_
    obtain ⟨-, -, rfl⟩ := step_destroy h
    rfl

def history (e : Env) : Dispatcher → List Action → List MethodEvent
  | _, [] => []
  | d, act :: as =>
    methodEvent e d act :: match step e d act with
      | some d' => history e d' as
      | none => []

theorem run_directory {as : List Action} (hs : d.registry.Sound)
    (h : ((system e).guard (KeepsRegistry e)).Run d as d') :
    d'.registry.Sound ∧ d'.directory = (history e d as).foldl Entries.apply d.directory := by
  induction h with
  | nil => exact ⟨hs, rfl⟩
  | @cons d₁ d₂ d₃ act as hst _ ih =>
    obtain ⟨hkeep, hstep⟩ := hst
    have hstep : step e d₁ act = some d₂ := hstep
    obtain ⟨hs', hdir⟩ := ih (sound_step hs hstep hkeep)
    refine ⟨hs', ?_⟩
    rw [history, hstep, hdir, step_directory hs hkeep hstep]
    rfl

/-- The target of a call is looked up in the directory. -/
theorem findMethod_directory (hs : d.registry.Sound) (target name : String) :
    ∃ found, findMethod target name d = some found ∧
      ∀ t, found = some t ↔ d.directory.Serves target name t := by
  unfold findMethod
  cases htarget : d.namedAdapters.lookup target with
  | none =>
    refine ⟨none, rfl, fun t => iff_of_false (by simp) ?_⟩
    rintro ⟨howner, -⟩
    cases htarget.symm.trans howner
  | some b =>
    obtain ⟨-, hinfo, i, hi, -⟩ := hs.consistent.agrees.named target b htarget
    have hinfo : (d.adapters b).info = some .client := hinfo
    obtain ⟨info, hlookup, -⟩ := Option.map_eq_some_iff.mp hi
    have hderef : d.deref b = some info := by
      rw [deref, hinfo]
      exact hlookup
    refine ⟨if info.hasMethod name then some b else none, congrArg (Option.map _) hderef,
      fun t => ?_⟩
    constructor
    · intro hfound
      split at hfound
      · rename_i hmethod
        cases hfound
        exact ⟨htarget, info, hlookup, hmethod⟩
      · cases hfound
    · rintro ⟨howner, info', hlookup', hmethod⟩
      cases htarget.symm.trans howner
      cases hlookup.symm.trans hlookup'
      rw [if_pos hmethod]

/-- The call that a message makes. -/
def handledCall (d : Dispatcher) (caps : Caps) (sender : AdapterId) : Option CallReq :=
  if (d.adapters sender).info = none then none
  else (d.request cmdCallReq caps sender).bind RequestParser.parseCall

/-- While the registry is kept consistent, a call goes to the client that joined under the target
name, offered the method, and has since neither left nor withdrawn it; to nobody if there is none. -/
theorem calls_follow_history {d₀ : Dispatcher} {as : List Action} {now done : Nat} {req : CallReq}
    (h₀ : Initial d₀) (hrun : ((system e).guard (KeepsRegistry e)).Run d₀ as d)
    (hst : step e d (.msg caps sender now done) = some d')
    (hcall : d.handledCall caps sender = some req) :
    ∃ c, d'.calls = d.calls ++ [c] ∧ c.sender = sender ∧ c.req = req ∧
      ∀ t, c.forward.map Prod.snd = some t ↔
        Entries.ServesAfter (history e d₀ as) req.target req.name t := by
  obtain ⟨hs, hdir⟩ := run_directory (sound_initial h₀) hrun
  have hempty : d₀.directory = Entries.empty := by
    obtain ⟨adapters, rfl, -⟩ := h₀
    refine Entries.ext rfl (funext fun a => ?_)
    ext m
    simp [directory, offers, Entries.empty]
  have hserves (t : AdapterId) : d.directory.Serves req.target req.name t ↔
      Entries.ServesAfter (history e d₀ as) req.target req.name t := by
    rw [hdir, hempty]
    exact Entries.serves_foldl _ _ _ _
  obtain ⟨found, hfound, hserving⟩ := findMethod_directory hs req.target req.name
  rw [handledCall, Option.ite_none_left_eq_some] at hcall
  obtain ⟨hinfo, hcall⟩ := hcall
  obtain ⟨rest, hreq, hparse⟩ := Option.bind_eq_some_iff.mp hcall
  obtain ⟨hnone, hcalls⟩ | ⟨target, hsome, hcalls⟩ := accepted_call hst hreq hinfo hparse
  · cases hnone.symm.trans hfound
    exact ⟨_, hcalls, rfl, rfl, fun t => (hserving t).trans (hserves t)⟩
  · cases hsome.symm.trans hfound
    exact ⟨_, hcalls, rfl, rfl, fun t => (hserving t).trans (hserves t)⟩

/-- Adapter 0 offers `m` and `l` and withdraws `l`. -/
def sampleOffers : List Action :=
  [sampleAuth 0 "s" 0, .msg (RequestSerializer.serializeDeclareMethod "m") 0 0 0,
    .msg (RequestSerializer.serializeDeclareMethod "l") 0 0 0,
    .msg (RequestSerializer.serializeRemoveMethod "l") 0 0 0]

def sampleOffered : Dispatcher := (execute (step sampleEnv) {} sampleOffers).getD {}

theorem calls_follow_history_offered : ∃ d' c, execute (step sampleEnv) {} sampleOffers =
      some sampleOffered ∧ step sampleEnv sampleOffered
        (.msg (RequestSerializer.serializeCall "m" none "s" 1 0) 0 0 0) = some d' ∧
    d'.calls = [c] ∧ c.forward.map Prod.snd = some 0 := by
  have hguarded : ((system sampleEnv).guard (KeepsRegistry sampleEnv)).Run {} sampleOffers
      sampleOffered := by
    refine .cons ⟨?_, rfl⟩ (.cons ⟨?_, rfl⟩ (.cons ⟨?_, rfl⟩ (.cons ⟨?_, rfl⟩ (.nil _))))
    · rintro req - ⟨hkey, -⟩
      exact hkey rfl
    · rintro req ⟨⟩
    · rintro req ⟨⟩
    · rintro req ⟨⟩
  have hst : step sampleEnv sampleOffered
      (.msg (RequestSerializer.serializeCall "m" none "s" 1 0) 0 0 0) = some _ := rfl
  have hcall : sampleOffered.handledCall (RequestSerializer.serializeCall "m" none "s" 1 0) 0 =
      some ⟨"m", none, "s", 1, 0⟩ := rfl
  obtain ⟨c, hcalls, -, -, hforward⟩ := calls_follow_history initial_default hguarded hst hcall
  have hhistory : history sampleEnv {} sampleOffers =
      [.join "s" 0, .offer 0 "m", .offer 0 "l", .withdraw 0 "l"] := rfl
  refine ⟨_, c, rfl, hst, hcalls, (hforward 0).mpr ?_⟩
  rw [hhistory]
  refine ⟨⟨[], _, _, rfl, rfl, ?_⟩, ⟨[_], _, _, rfl, rfl, ?_⟩⟩ <;> simp

end Dispatcher

end Flora
