import Flora.Dispatcher.System

/-! # Records of other adapters

What `a->info` points to is changed by commands of `a` alone. -/

namespace Flora

namespace Dispatcher

variable {e : Env} {d d' : Dispatcher} {a sender : AdapterId} {caps : Caps} {ok : Bool}

theorem deref_congr (hinfo : (d'.adapters a).info = (d.adapters a).info)
    (hclients : d'.adapterInfos.lookup a = d.adapterInfos.lookup a)
    (hmonitors : d'.monitors.lookup a = d.monitors.lookup a) : d'.deref a = d.deref a := by
  simp only [deref, hinfo, hclients, hmonitors]

theorem setAdapter_of_ne (x : Adapter) (h : a ≠ sender) :
    (d.setAdapter sender x).adapters a = d.adapters a := by
  rw [setAdapter_adapters, if_neg h]

theorem deref_setAdapter (x : Adapter) (h : a ≠ sender) :
    (d.setAdapter sender x).deref a = d.deref a :=
  deref_congr (by rw [setAdapter_of_ne x h]) rfl rfl

theorem deref_addAdapterInfo (name : String) (flags pid : Word) (h : a ≠ sender) :
    (addAdapterInfo name flags pid sender d).deref a = d.deref a := by
  unfold addAdapterInfo
  dsimp only
  split
  · rfl
  · refine deref_congr ?_ (AList.lookup_insert_ne h) rfl
    exact congrArg Adapter.info (setAdapter_of_ne _ h)

theorem deref_addAdapter (name : String) (flags pid : Word) (h : a ≠ sender) :
    (addAdapter name flags pid sender d).1.deref a = d.deref a := by
  unfold addAdapter
  split
  · split
    · rfl
    · exact deref_addAdapterInfo name flags pid h
  · exact deref_addAdapterInfo name flags pid h

theorem deref_addMonitor (name : String) (flags : Word) (h : a ≠ sender) :
    (addMonitor name flags sender d).deref a = d.deref a := by
  unfold addMonitor
  dsimp only
  split
  · rfl
  · refine deref_congr ?_ rfl (AList.lookup_insert_ne h)
    exact congrArg Adapter.info (setAdapter_of_ne _ h)

theorem deref_authenticate (req : AuthReq) (h : a ≠ sender) :
    (authenticate e req sender d).1.deref a = d.deref a := by
  unfold authenticate
  split
  · rfl
  · dsimp only
    split
    · split
      · exact (deref_addMonitor _ _ h).trans (deref_setAdapter _ h)
      · exact deref_setAdapter _ h
    · split
      · rename_i d₁ heq
        have hadd : _ = d₁ := congrArg Prod.fst heq
        rw [← hadd]
        exact (deref_addAdapter _ _ _ h).trans (deref_setAdapter _ h)
      · rename_i d₁ heq
        have hadd : _ = d₁ := congrArg Prod.fst heq
        rw [← hadd]
        exact (deref_addAdapter _ _ _ h).trans (deref_setAdapter _ h)

theorem deref_setInfo_of_ne (info : AdapterInfo) (h : a ≠ sender) :
    (d.setInfo sender info).deref a = d.deref a := by
  unfold setInfo
  split
  · rfl
  · exact deref_congr rfl (AList.lookup_insert_ne h) rfl
  · exact deref_congr rfl rfl (AList.lookup_insert_ne h)

theorem deref_msgHandler {now : Nat} {cmd : Int} (h : a ≠ sender)
    (hh : msgHandler e now cmd caps sender d = some (d', ok)) : d'.deref a = d.deref a := by
  replace hh := msgHandler_updates hh
  induction hh with
  | refl => rfl
  | tail _ hup ih =>
    refine Eq.trans ?_ ih
    cases hup with
    | authenticate req => exact deref_authenticate req h
    | purge name =>
      rw [purge_rest]
      rfl
    | persist name msgtype args =>
      rw [persistPost_rest]
      rfl
    | methods names _ _ => exact deref_setInfo_of_ne _ h
    | write hws => exact hws.deref a
    | subscribe | unsubscribe | reply | refuse | enter => rfl

theorem deref_close (d : Dispatcher) (a b : AdapterId) : (d.close b).deref a = d.deref a := by
  simp only [deref, close_adapters]
  rfl

theorem deref_doEraseAdapter {now : Nat} (h : a ≠ sender)
    (hh : doEraseAdapter e now sender d = some d') : d'.deref a = d.deref a := by
  obtain ⟨-, rfl⟩ | ⟨info, d₁, ws, -, hws, -, rfl⟩ := doEraseAdapter_spec hh
  · rfl
  · have hname : d₁.deref a = d.deref a := by
      rw [hws.deref a]
      unfold eraseName
      split <;> rfl
    rw [checkSubscriptions_rest, ← hname]
    split
    · exact deref_congr rfl rfl (AList.lookup_erase_ne h)
    · exact deref_congr rfl (AList.lookup_erase_ne h) rfl

/-- The commands of `a`. -/
def Action.isOf (a : AdapterId) : Action → Prop
  | .msg _ sender _ _ => sender = a
  | .erase sender _ => sender = a
  | _ => False

theorem deref_step {act : Action} (hact : ¬ act.isOf a) (h : step e d act = some d') :
    d'.deref a = d.deref a := by
  cases act with
  | msg caps sender now done =>
    have hne : a ≠ sender := fun heq => hact heq.symm
    obtain ⟨rfl, -⟩ | ⟨cmd, rest, d₁, ok, -, hh, rfl⟩ := handleMsg_request (step_msg h).2
    · exact deref_close d a sender
    · rw [← deref_msgHandler hne hh]
      cases ok
      · exact deref_close d₁ a sender
      · rfl
  | erase sender now => exact deref_doEraseAdapter (fun heq => hact heq.symm) (step_erase h).2
  | expire tp =>
    obtain ⟨expired, rest, ws, -, hws, -⟩ := discardPendingCalls_spec h
    exact hws.deref a
  | close b =>
    cases h
    exact deref_close d a b
  | destroy b =>
    obtain ⟨-, -, rfl⟩ := step_destroy h
    refine deref_congr ?_ rfl rfl
    rw [setAdapter_adapters]
    split
    · rename_i hb
      subst hb
      rfl
    · rfl

end Dispatcher

end Flora
