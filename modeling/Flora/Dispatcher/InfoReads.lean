import Mathlib.Tactic.IntervalCases
import Flora.Dispatcher.Acceptance
import Flora.Dispatcher.Notices
import Flora.Dispatcher.Subscriptions
import Flora.Dispatcher.Expiry

/-! # Where records are read

Every place in `disp.cc` that follows `info` to a record, with what has been checked before. A read
finds its record when neither the adapter, which `monitors` names by its address only, nor the
record has been freed. A step whose reads all find their record is defined; what else can stop it is
named here too: a sender that is destroyed and a command word below the table. -/

namespace Flora

namespace Dispatcher

variable {e : Env} {d d' : Dispatcher} {caps : Caps} {sender a : AdapterId} {tp : Nat}

/-- Carrying out the action reads the record of an adapter; the state is the one whose maps are in
force then (only a registration changes them before a read). Whether the message at hand fits the
buffer is not asked, so these are at least the reads that are made. -/
inductive InfoRead (e : Env) (d : Dispatcher) : Action → Dispatcher → AdapterId → Prop
  /-- `handle_cmd` and all handlers: the name or the flags of the sender. -/
  | sender {caps sender now done} : (d.adapters sender).info ≠ none →
    InfoRead e d (.msg caps sender now done) d sender
  /-- `write_monitor_list` and `write_monitor_list_add`: the record made for the sender. -/
  | registered {caps sender now done req} : d.handledAuth caps sender = some req →
    (authenticate e req sender d).2 = cliSuccess →
    hasMonitorFlag req.flags = true ∨ (authenticate e req sender d).1.monitors.keys ≠ [] →
    InfoRead e d (.msg caps sender now done) (authenticate e req sender d).1 sender
  /-- `write_monitor_list_add`: the name of every monitor. -/
  | listAdd {caps sender now done req m} : d.handledAuth caps sender = some req →
    (authenticate e req sender d).2 = cliSuccess → hasMonitorFlag req.flags = false →
    m ∈ (authenticate e req sender d).1.monitors.keys →
    InfoRead e d (.msg caps sender now done) (authenticate e req sender d).1 m
  /-- `write_post_msg_to_adapters`: the name of every subscriber written to. -/
  | subscriber {caps sender now done req resp a} : d.handledPost caps sender = some (req, resp) →
    a ∈ d.subscribers req.name → InfoRead e d (.msg caps sender now done) d a
  /-- `handle_call_req`: the methods of the target, its name after a timeout. -/
  | target {caps sender now done rest req t} : d.request cmdCallReq caps sender = some rest →
    (d.adapters sender).info ≠ none → RequestParser.parseCall rest = some req →
    d.namedAdapters.lookup req.target = some t → InfoRead e d (.msg caps sender now done) d t
  /-- `handle_reply_req`: the name of the caller. -/
  | caller {caps sender now done rest req pc} : d.request cmdReplyReq caps sender = some rest →
    (d.adapters sender).info ≠ none → RequestParser.parseReply rest = some req →
    d.pendingCalls.find? (replies req.id sender) = some pc →
    (d.adapters pc.sender).closed = false → InfoRead e d (.msg caps sender now done) d pc.sender
  /-- `do_erase_adapter`: name, flags and id of the adapter. -/
  | erased {sender now} : (d.adapters sender).info ≠ none → InfoRead e d (.erase sender now) d sender
  /-- `write_monitor_list_remove`: the name of every monitor. -/
  | listRemove {sender now info m} : d.deref sender = some info →
    hasMonitorFlag info.flags = false → m ∈ d.monitors.keys → InfoRead e d (.erase sender now) d m
  /-- `pending_call_timeout` after a timeout: the names of caller and target. -/
  | expired {tp pc a} : TimesOut e tp d pc → a = pc.sender ∨ a = pc.target →
    (d.adapters a).info ≠ none → InfoRead e d (.expire tp) d a

/-- The adapters and records that the action reads have not been freed. -/
def ReadsRecords (e : Env) (d : Dispatcher) (act : Action) : Prop :=
  ∀ x a, InfoRead e d act x a → x.alive a = true ∧ (x.deref a).isSome = true

theorem nameReadable_iff : d.nameReadable a = true ↔
    ((d.adapters a).info ≠ none → (d.deref a).isSome = true) := by
  simp only [nameReadable, decide_eq_true_eq, or_iff_not_imp_left]

theorem discardPendingCalls_of_reads (h : ReadsRecords e d (.expire tp)) :
    (discardPendingCalls e tp d).isSome = true :=
  discardPendingCalls_isSome fun _ hout =>
    ⟨nameReadable_iff.mpr fun hinfo => (h d _ (.expired hout (.inl rfl) hinfo)).2,
      nameReadable_iff.mpr fun hinfo => (h d _ (.expired hout (.inr rfl) hinfo)).2⟩

theorem foldlM_writes_isSome {f : Dispatcher → AdapterId → Option Dispatcher} {as : List AdapterId}
    (hf : ∀ a ∈ as, ∀ x us, Writes d us x → ∃ x' ws, f x a = some x' ∧ Writes x ws x') :
    (as.foldlM f d).isSome = true := by
  induction as generalizing d with
  | nil => rfl
  | cons a as ih =>
    obtain ⟨x', ws, hx, hws⟩ := hf a List.mem_cons_self d [] (.refl d)
    rw [List.foldlM_cons, hx]
    exact ih fun b hb x us hus => hf b (List.mem_cons_of_mem a hb) x (ws ++ us) (hws.trans hus)

/-- The monitors a notification is sent to exist and have their records. -/
def MonitorsKept (d : Dispatcher) : Prop :=
  ∀ m ∈ d.monitors.keys, d.alive m = true ∧ (d.deref m).isSome = true

/-- The common shape of the two notifications: one monitor is written to. -/
theorem notify_some {m : AdapterId} {x : Dispatcher} {us : List Write} (h : Writes d us x)
    (hm : d.alive m = true ∧ (d.deref m).isSome = true) :
    ∃ x' ws, (if (x.adapters m).destroyed then none
      else if e.fits (x.adapters m).serializeFlags caps then
        (x.deref m).map fun _ => (x.write e m (x.adapters m).serializeFlags caps none).1
      else some x) = some x' ∧ Writes x ws x' := by
  obtain ⟨info, hinfo⟩ := Option.isSome_iff_exists.mp hm.2
  have hexists : (d.adapters m).destroyed = false := by simpa [alive] using hm.1
  rw [h.destroyed, hexists, if_neg Bool.false_ne_true, h.deref, hinfo, Option.map_some]
  split
  · exact ⟨_, _, rfl, write_writes ..⟩
  · exact ⟨x, [], rfl, .refl x⟩

theorem writeMonitorListAdd_isSome (hd : MonitorsKept d)
    (hsender : d.monitors.keys ≠ [] → (d.deref sender).isSome = true) :
    (writeMonitorListAdd e sender d).isSome = true := by
  unfold writeMonitorListAdd
  split
  · rfl
  · rename_i hkeys
    obtain ⟨info, hinfo⟩ := Option.isSome_iff_exists.mp (hsender hkeys)
    rw [hinfo, Option.bind_some]
    exact foldlM_writes_isSome fun m hm _ _ hus => notify_some hus (hd m hm)

theorem writeMonitorListRemove_isSome (hd : MonitorsKept d) (id : Word) :
    (writeMonitorListRemove e id d).isSome = true :=
  foldlM_writes_isSome fun m hm _ _ hus => notify_some hus (hd m hm)

theorem Writes.monitorsKept {ws : List Write} (h : Writes d ws d') (hd : MonitorsKept d) :
    MonitorsKept d' := by
  intro m hm
  rw [h.monitors] at hm
  rw [alive, h.destroyed, h.deref]
  exact hd m hm

theorem handleAuthReq_isSome
    (h : ∀ req, RequestParser.parseAuth caps = some req →
      (authenticate e req sender d).2 = cliSuccess →
      (hasMonitorFlag req.flags = true → ((authenticate e req sender d).1.deref sender).isSome = true) ∧
      (hasMonitorFlag req.flags = false → MonitorsKept (authenticate e req sender d).1 ∧
        ((authenticate e req sender d).1.monitors.keys ≠ [] →
          ((authenticate e req sender d).1.deref sender).isSome = true))) :
    (handleAuthReq e caps sender d).isSome = true := by
  unfold handleAuthReq
  split
  · rfl
  · rename_i req hparse
    dsimp only
    split
    · have hw := write_writes e (authenticate e req sender d).1 sender
        ((authenticate e req sender d).1.adapters sender).serializeFlags
        (ResponseSerializer.serializeAuth (authenticate e req sender d).2 floraVersion) none
      split
      · rename_i hres
        obtain ⟨hmonitor, hclient⟩ := h req hparse hres
        rw [Option.isSome_map]
        generalize (authenticate e req sender d).1.write e sender _ _ _ = res at hw
        obtain ⟨d₁, r⟩ := res
        unfold writeMonitorLists writeMonitorData
        cases hflag : hasMonitorFlag req.flags with
        | true =>
          obtain ⟨info, hinfo⟩ := Option.isSome_iff_exists.mp (hmonitor hflag)
          simp only [if_true, writeMonitorList]
          rw [hw.deref, hinfo]
          split <;> rfl
        | false =>
          obtain ⟨hkept, hsender⟩ := hclient hflag
          simp only [Bool.false_eq_true, if_false, Option.bind_some]
          refine writeMonitorListAdd_isSome (hw.monitorsKept hkept) ?_
          rw [hw.monitors, hw.deref]
          exact hsender
      · rfl
    · rfl

theorem nameRequest_isSome {parse : Caps → Option String}
    {body : String → AdapterInfo → Option (Dispatcher × Bool)}
    (hsender : (d.adapters sender).info ≠ none → (d.deref sender).isSome = true)
    (hbody : ∀ name info, d.deref sender = some info → (body name info).isSome = true) :
    (nameRequest parse body caps sender d).isSome = true := by
  unfold nameRequest
  split
  · rfl
  · rename_i hinfo
    obtain ⟨info, hderef⟩ := Option.isSome_iff_exists.mp (hsender hinfo)
    split
    · rfl
    · rw [hderef, Option.bind_some]
      split
      · rfl
      · exact hbody _ info hderef

theorem handleSubscribeReq_isSome
    (hsender : (d.adapters sender).info ≠ none → (d.deref sender).isSome = true) :
    (handleSubscribeReq e caps sender d).isSome = true := by
  refine nameRequest_isSome hsender fun name info hderef => ?_
  split
  · rfl
  · rw [Option.isSome_map]
    refine replayPersist_isSome name ?_
    change (d.deref sender).isSome = true
    rw [hderef]
    rfl

theorem handleUnsubscribeReq_isSome
    (hsender : (d.adapters sender).info ≠ none → (d.deref sender).isSome = true) :
    (handleUnsubscribeReq caps sender d).isSome = true := by
  refine nameRequest_isSome hsender fun name info hderef => ?_
  split <;> rfl

theorem handlePostReq_isSome
    (hsender : (d.adapters sender).info ≠ none → (d.deref sender).isSome = true)
    (hsubs : ∀ req info, acceptedPost caps sender d = some (req, info) →
      ∀ a ∈ d.subscribers req.name, (d.deref a).isSome = true) :
    (handlePostReq e caps sender d).isSome = true := by
  unfold handlePostReq
  split
  · rfl
  · rename_i hinfo
    obtain ⟨info, hderef⟩ := Option.isSome_iff_exists.mp (hsender hinfo)
    split
    · rfl
    · rename_i req hparse
      unfold postMsg
      split
      · rfl
      · rename_i htype
        rw [hderef, Option.bind_some]
        split
        · rfl
        · rename_i hlen
          rw [Option.isSome_map]
          refine (deliverPost_isSome _ _).mpr fun a ha _ => hsubs req info ?_ a ha
          rw [acceptedPost, hparse, Option.bind_some, if_neg htype, hderef]
          exact if_neg hlen

theorem handleCallReq_isSome {now : Nat}
    (hsender : (d.adapters sender).info ≠ none → (d.deref sender).isSome = true)
    (htarget : ∀ req t, (d.adapters sender).info ≠ none → RequestParser.parseCall caps = some req →
      d.namedAdapters.lookup req.target = some t → (d.deref t).isSome = true) :
    (handleCallReq e now caps sender d).isSome = true := by
  unfold handleCallReq
  split
  · rfl
  · rename_i hinfo
    obtain ⟨info, hderef⟩ := Option.isSome_iff_exists.mp (hsender hinfo)
    have hself : (d.deref sender).isSome = true := hsender hinfo
    split
    · rfl
    · rename_i req hparse
      rw [hderef, Option.bind_some]
      have hfound : (findMethod req.target req.name d).isSome = true := by
        unfold findMethod
        split
        · rfl
        · rename_i t hname
          rw [Option.isSome_map]
          exact htarget req t hinfo hparse hname
      obtain ⟨found, hfound⟩ := Option.isSome_iff_exists.mp hfound
      rw [hfound, Option.bind_some]
      cases found with
      | none =>
        dsimp only
        split
        · rw [Option.isSome_map]
          refine writeLogged_isSome fun r hr => ?_
          rw [List.mem_singleton.mp hr]
          exact hself
        · rfl
      | some t =>
        dsimp only
        split
        · rw [Option.isSome_map]
          refine writeLogged_isSome fun r hr => ?_
          obtain rfl | hr := List.mem_cons.mp hr
          · exact hself
          · rw [List.mem_singleton.mp hr]
            exact deref_of_findMethod hfound
        · rfl

theorem handleReplyReq_isSome
    (hsender : (d.adapters sender).info ≠ none → (d.deref sender).isSome = true)
    (hcaller : ∀ req pc, (d.adapters sender).info ≠ none → RequestParser.parseReply caps = some req →
      d.pendingCalls.find? (replies req.id sender) = some pc →
      (d.adapters pc.sender).closed = false → (d.deref pc.sender).isSome = true) :
    (handleReplyReq e caps sender d).isSome = true := by
  unfold handleReplyReq
  split
  · rfl
  · rename_i hinfo
    obtain ⟨info, hderef⟩ := Option.isSome_iff_exists.mp (hsender hinfo)
    split
    · rfl
    · rename_i req hparse
      rw [hderef, Option.bind_some]
      split
      · rfl
      · rename_i pc hfind
        split
        · rfl
        · rename_i hopen
          have hcallee := hcaller req pc hinfo hparse hfind (Bool.eq_false_iff.mpr hopen)
          obtain ⟨info', hderef'⟩ := Option.isSome_iff_exists.mp hcallee
          dsimp only
          split
          · rw [hderef', Option.bind_some, Option.isSome_map]
            refine writeLogged_isSome fun r hr => ?_
            obtain rfl | hr := List.mem_cons.mp hr
            · exact hsender hinfo
            · rw [List.mem_singleton.mp hr]
              exact hcallee
          · rfl

theorem handlePingReq_isSome
    (hsender : (d.adapters sender).info ≠ none → (d.deref sender).isSome = true) :
    (handlePingReq e sender d).isSome = true := by
  unfold handlePingReq
  split
  · rfl
  · rename_i hinfo
    obtain ⟨info, hderef⟩ := Option.isSome_iff_exists.mp (hsender hinfo)
    rw [hderef, Option.bind_some]
    dsimp only
    split
    · rw [Option.isSome_map]
      refine writeLogged_isSome fun r hr => ?_
      rw [List.mem_singleton.mp hr]
      exact hsender hinfo
    · rfl

theorem mem_monitors_authenticate {req : AuthReq} {m : AdapterId}
    (hflag : hasMonitorFlag req.flags = false) :
    m ∈ (authenticate e req sender d).1.monitors.keys ↔ m ∈ d.monitors.keys := by
  have hsame : (d.registry.authenticate e.flags req sender).monitors = d.registry.monitors := by
    unfold Registry.authenticate
    split
    · rfl
    · rw [hflag, if_neg Bool.false_ne_true]
      split <;> rfl
  rw [mem_monitors_iff, mem_monitors_iff, registry_authenticate, hsame]

theorem msgHandler_isSome {cmd : Word} {rest : Caps} {now done : Nat}
    (h : ReadsRecords e d (.msg caps sender now done))
    (hreq : d.request cmd caps sender = some rest) (hcmd : 0 ≤ cmd.toInt)
    (hcount : cmd.toInt < msgHandlerCount) :
    (msgHandler e now cmd.toInt rest sender d).isSome = true := by
  have hsender (hinfo : (d.adapters sender).info ≠ none) : (d.deref sender).isSome = true :=
    (h d sender (.sender hinfo)).2
  have hword {c : Word} (heq : cmd.toInt = c.toInt) : d.request c caps sender = some rest := by
    rw [← BitVec.eq_of_toInt_eq heq]
    exact hreq
  have hcount : cmd.toInt < 9 := hcount
  generalize hindex : cmd.toInt = index at hcmd hcount ⊢
  interval_cases index
  · have hauth : d.handledAuth caps sender = RequestParser.parseAuth rest := by
      rw [handledAuth, hword (c := cmdAuthReq) hindex]
      rfl
    refine handleAuthReq_isSome fun req hparse hres => ⟨fun hflag => ?_, fun hflag => ⟨?_, ?_⟩⟩
    · exact (h _ sender (.registered (hauth.trans hparse) hres (.inl hflag))).2
    · exact fun m hm => h _ m (.listAdd (hauth.trans hparse) hres hflag hm)
    · exact fun hkeys => (h _ sender (.registered (hauth.trans hparse) hres (.inr hkeys))).2
  · exact handleSubscribeReq_isSome hsender
  · exact handleUnsubscribeReq_isSome hsender
  · refine handlePostReq_isSome hsender fun req info hacc a ha => ?_
    have hpost : d.handledPost caps sender = some (req, postResp sender d req info) := by
      rw [handledPost, hword (c := cmdPostReq) hindex, Option.bind_some, hacc]
      rfl
    exact (h d a (.subscriber hpost ha)).2
  · exact handleReplyReq_isSome hsender fun req pc hinfo hparse hfind hopen =>
      (h d _ (.caller (hword (c := cmdReplyReq) hindex) hinfo hparse hfind hopen)).2
  · exact nameRequest_isSome hsender fun _ _ _ => rfl
  · exact nameRequest_isSome hsender fun _ _ _ => rfl
  · exact handleCallReq_isSome hsender fun req t hinfo hparse hname =>
      (h d t (.target (hword (c := cmdCallReq) hindex) hinfo hparse hname)).2
  · exact handlePingReq_isSome hsender

theorem handleMsg_isSome {now done : Nat} (h : ReadsRecords e d (.msg caps sender now done))
    (hcmd : ∀ cmd rest, caps.readWord = some (cmd, rest) → 0 ≤ cmd.toInt) :
    (handleMsg e now done caps sender d).isSome = true := by
  have hgate : (isMonitor sender d).isSome = true := by
    unfold isMonitor
    split
    · rfl
    · rename_i hinfo
      rw [Option.isSome_map]
      exact (h d sender (.sender hinfo)).2
  obtain ⟨monitor, hgate⟩ := Option.isSome_iff_exists.mp hgate
  unfold handleMsg
  rw [hgate, Option.bind_some]
  cases monitor with
  | true => rfl
  | false =>
    rw [if_neg Bool.false_ne_true]
    split
    · rfl
    · rename_i cmd rest hread
      split
      · rfl
      · rename_i hcount
        rw [Option.isSome_map]
        refine msgHandler_isSome h ?_ (hcmd cmd rest hread) (Int.not_le.mp hcount)
        rw [request, if_pos hgate, hread]
        exact if_pos rfl

theorem doEraseAdapter_isSome {now : Nat} (h : ReadsRecords e d (.erase sender now)) :
    (doEraseAdapter e now sender d).isSome = true := by
  unfold doEraseAdapter
  split
  · rfl
  · rename_i hinfo
    obtain ⟨info, hderef⟩ := Option.isSome_iff_exists.mp (h d sender (.erased hinfo)).2
    rw [hderef, Option.bind_some]
    dsimp only
    split
    · rfl
    · rename_i hflag
      rw [Option.isSome_map]
      refine writeMonitorListRemove_isSome ?_ info.id
      have hmap : (eraseName info.name d).monitors = d.monitors := by
        unfold eraseName
        split <;> rfl
      intro m hm
      rw [hmap] at hm
      have hsame : (eraseName info.name d).deref m = d.deref m := by
        unfold eraseName
        split <;> rfl
      rw [alive, (registryOnly_eraseName info.name d).destroyed, hsame]
      exact h d m (.listRemove hderef (Bool.eq_false_iff.mpr hflag) hm)

/-- What stops an action besides a read: its sender is destroyed, or its command word is below the
table. -/
def Startable (d : Dispatcher) : Action → Prop
  | .msg caps sender _ _ => d.alive sender = true ∧
    ∀ cmd rest, caps.readWord = some (cmd, rest) → 0 ≤ cmd.toInt
  | .erase sender _ => d.alive sender = true
  | .destroy a => (d.alive a && !d.held a) = true
  | _ => True

/-- `InfoRead` misses no read: an action that finds all its records is carried out. -/
theorem step_isSome {act : Action} (h : ReadsRecords e d act) (hstart : d.Startable act) :
    (step e d act).isSome = true := by
  cases act with
  | msg caps sender now done =>
    obtain ⟨halive, hcmd⟩ := hstart
    rw [step, if_pos halive]
    exact handleMsg_isSome h hcmd
  | erase sender now =>
    have halive : d.alive sender = true := hstart
    rw [step, if_pos halive]
    exact doEraseAdapter_isSome h
  | expire tp => exact discardPendingCalls_of_reads h
  | close a => rfl
  | destroy a =>
    have hstart : (d.alive a && !d.held a) = true := hstart
    rw [step, if_pos hstart]
    rfl

end Dispatcher

end Flora
