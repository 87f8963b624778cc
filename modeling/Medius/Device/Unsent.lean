import Medius.Device.Rollback

/-! Calls none of whose frames went out: what they leave recorded. -/

namespace Medius.Device

open Protocol Link Medius.Types

/-- A call and its arguments. An append brings what its builder encodes to, and a rule what the
opt-in query answers. -/
inductive SessionCall
  | inject (usage : Usage) (action : Action)
  | sendLock (class_ : UInt8) (id : UInt16) (direction : Direction) (scale : Int16)
  | blanket (what : Blanket) (direction : Direction) (scale : Int16)
  | setRewrite (optIn : Except Error Bool) (rule : RewriteRule)
  | removeRewrite (rule : RewriteRule)
  | transform (t : Transform)
  | untransform (t : Transform)
  | append (encoded : Except Error (List (List UInt8)))
  | clear
  | set (id value : UInt8)
  | bind (trigger : ClipTrigger)
  | unbind (usage : Usage) (edge : Edge)
  | bindPacket (trigger : ClipPacketTrigger)
  | unbindPacket (trigger : ClipPacketTrigger)
  | clearTriggers

section Make

variable (send : FrameType → List UInt8 → Except Error Unit) (d : DesiredState)

/-- The rule is checked before the opt-in is asked for. -/
def setRewriteAsking (optIn : Except Error Bool) (rule : RewriteRule) :
    DesiredState × Except Error Unit :=
  match validateRule rule, optIn with
  | .error e, _ => (d, .error e)
  | .ok (), .error e => (d, .error e)
  | .ok (), .ok allowed => setRewrite allowed send d rule

/-- Every entry is encoded before the first frame is sent. -/
def appendEncoded : Except Error (List (List UInt8)) → DesiredState × Except Error Unit
  | .error e => (d, .error e)
  | .ok chunks => clipAppend send d chunks

def SessionCall.make : SessionCall → DesiredState × Except Error Unit
  | .inject usage action => Device.inject send d usage action
  | .sendLock class_ id direction scale => Device.sendLock send d class_ id direction scale
  | .blanket what direction scale => Device.blanket send d what direction scale
  | .setRewrite optIn rule => setRewriteAsking send d optIn rule
  | .removeRewrite rule => Device.removeRewrite send d rule
  | .transform t => Device.transform send d t
  | .untransform t => Device.untransform send d t
  | .append encoded => appendEncoded send d encoded
  | .clear => clipClear send d
  | .set id value => clipSet send d id value
  | .bind trigger => Device.bind send d trigger
  | .unbind usage edge => Device.unbind send d usage edge
  | .bindPacket trigger => Device.bindPacket send d trigger
  | .unbindPacket trigger => Device.unbindPacket send d trigger
  | .clearTriggers => Device.clearTriggers send d

end Make

/-- The transport refuses every write. -/
def Refuses (send : FrameType → List UInt8 → Except Error Unit) : Prop :=
  ∀ frame payload, ∃ e, send frame payload = .error e

/-- The override an inject asks for. -/
def asked : Action → Option Override
  | .press => some .press
  | .forceRelease => some .force
  | .softRelease => none

/-- An inject that asks for the override already held; any other call. -/
def AlreadyHeld (d : DesiredState) : SessionCall → Prop
  | .inject usage action => d.overrides[usage.classId]? = asked action
  | _ => True

theorem erase_eq_self_iff (m : BTreeMap (UInt8 × UInt16) Override) (k : UInt8 × UInt16) :
    m.erase k = m ↔ m[k]? = none := by
  constructor
  · intro h
    rw [← h, BTreeMap.getElem?_erase, if_pos rfl]
  · intro h
    refine Std.ExtTreeMap.ext_getElem? fun a => ?_
    rw [BTreeMap.getElem?_erase]
    split
    next hk => rw [← hk, h]
    next => rfl

theorem insert_eq_self_iff (m : BTreeMap (UInt8 × UInt16) Override) (k : UInt8 × UInt16)
    (ov : Override) : m.insert k ov = m ↔ m[k]? = some ov := by
  constructor
  · intro h
    rw [← h, BTreeMap.getElem?_insert, if_pos rfl]
  · intro h
    refine Std.ExtTreeMap.ext_getElem? fun a => ?_
    rw [BTreeMap.getElem?_insert]
    split
    next hk => rw [← hk, h]
    next => rfl

theorem apply_eq_self_iff (d : DesiredState) (usage : Usage) (action : Action) :
    d.apply usage action = d ↔ d.overrides[usage.classId]? = asked action := by
  have hset : ∀ m : BTreeMap (UInt8 × UInt16) Override,
      { d with overrides := m } = d ↔ m = d.overrides := fun m =>
    ⟨fun h => congrArg DesiredState.overrides h, fun h => by rw [h]⟩
  cases action with
  | softRelease => exact (hset _).trans (erase_eq_self_iff _ _)
  | press => exact (hset _).trans (insert_eq_self_iff _ _ _)
  | forceRelease => exact (hset _).trans (insert_eq_self_iff _ _ _)

variable {send : FrameType → List UInt8 → Except Error Unit} (hsend : Refuses send)
include hsend

theorem recorded_unsent {d d' undone : DesiredState} (hu : undone = d) (frame : FrameType)
    (payload : List UInt8) : (recorded d' undone (send frame payload)).1 = d := by
  obtain ⟨e, he⟩ := hsend frame payload
  rw [he]
  exact hu

theorem sentThen_unsent (d d' : DesiredState) (frame : FrameType) (payload : List UInt8) :
    (sentThen d d' (send frame payload)).1 = d := by
  obtain ⟨e, he⟩ := hsend frame payload
  rw [he]
  rfl

theorem sendLock_unsent (d : DesiredState) (class_ : UInt8) (id : UInt16) (direction : Direction)
    (scale : Int16) : ∃ e, sendLock send d class_ id direction scale = (d, .error e) := by
  unfold sendLock
  split
  next e _ => exact ⟨e, rfl⟩
  next dir scale _ =>
    obtain ⟨e, he⟩ := hsend .lock (lockPayload _ _ dir scale)
    refine ⟨e, ?_⟩
    dsimp only
    rw [he, recorded, Locks.restoreLock_applyLock]

theorem blanket_unsent (d : DesiredState) (what : Blanket) (direction : Direction) (scale : Int16) :
    (blanket send d what direction scale).1 = d := by
  have hlock := fun class_ id => sendLock_unsent hsend d class_ id direction scale
  cases what with
  | aim =>
    obtain ⟨e, he⟩ := hlock lockClsAxis Axis.x.asU16
    rw [blanket, he]
  | wheel | buttons | keys | media =>
    obtain ⟨e, he⟩ := hlock _ _
    exact congrArg Prod.fst he

theorem setRewriteAsking_unsent {d : DesiredState} (h : d.TablesKeyed)
    (optIn : Except Error Bool) (rule : RewriteRule) :
    (setRewriteAsking send d optIn rule).1 = d := by
  unfold setRewriteAsking
  split
  · rfl
  · rfl
  · unfold setRewrite
    split
    · rfl
    · split
      · rfl
      · unfold setRewriteChecked
        split
        · rfl
        · exact recorded_unsent hsend (DesiredState.restoreRewrite_applyRewrite h.rewrites _) _ _

theorem appendEncoded_unsent (d : DesiredState) (encoded : Except Error (List (List UInt8))) :
    (appendEncoded send d encoded).1 = d := by
  unfold appendEncoded
  split
  · rfl
  next chunks =>
    cases chunks with
    | nil => rfl
    | cons chunk chunks =>
      obtain ⟨e, he⟩ := hsend .clipAppend chunk
      rw [clipAppend, he]

/-- Every call that could not write a frame leaves the state as it was, an inject apart. -/
theorem make_unsent {d : DesiredState} (h : d.TablesKeyed) (c : SessionCall) :
    (c.make send d).1 = match c with
      | .inject usage action => d.apply usage action
      | _ => d := by
  cases c with
  | inject usage action => rfl
  | sendLock class_ id direction scale =>
    obtain ⟨e, he⟩ := sendLock_unsent hsend d class_ id direction scale
    exact congrArg Prod.fst he
  | blanket what direction scale => exact blanket_unsent hsend d what direction scale
  | setRewrite optIn rule => exact setRewriteAsking_unsent hsend h optIn rule
  | removeRewrite rule =>
    simp only [SessionCall.make, removeRewrite]
    split
    · rfl
    · exact recorded_unsent hsend (DesiredState.restoreRewrite_removeRewrite h.rewrites _) _ _
  | transform t =>
    simp only [SessionCall.make, transform]
    split
    · rfl
    · split
      · rfl
      · exact recorded_unsent hsend (DesiredState.restoreTransform_applyTransform d _) _ _
  | untransform t =>
    exact recorded_unsent hsend (DesiredState.restoreTransform_removeTransform h.transforms _) _ _
  | append encoded => exact appendEncoded_unsent hsend d encoded
  | clear | set | bind | unbind | clearTriggers => exact sentThen_unsent hsend d _ _ _
  | bindPacket trigger =>
    simp only [SessionCall.make, bindPacket]
    split
    · rfl
    · exact sentThen_unsent hsend d _ _ _
  | unbindPacket trigger =>
    simp only [SessionCall.make, unbindPacket]
    split
    · rfl
    · exact sentThen_unsent hsend d _ _ _

omit hsend

/-- A call that fails leaves the state as it was. -/
def RecordsNothing (send : FrameType → List UInt8 → Except Error Unit) (d : DesiredState)
    (c : SessionCall) : Prop :=
  ∀ e, (c.make send d).2 = .error e → (c.make send d).1 = d

/-- A call that never went out records nothing, unless it is an inject that asks for another
override than the one held. -/
theorem unsent_records_nothing_iff (d : DesiredState) (h : Reachable d) (c : SessionCall)
    (send : FrameType → List UInt8 → Except Error Unit) (hsend : Refuses send) :
    RecordsNothing send d c ↔ AlreadyHeld d c := by
  have hmake := make_unsent hsend h.tablesKeyed c
  cases c with
  | inject usage action =>
    refine Iff.trans ?_ (apply_eq_self_iff d usage action)
    obtain ⟨e, he⟩ := hsend .inject (injectPayload usage.classId.1 usage.classId.2 action.asU8)
    exact ⟨fun hno => hno e he, fun hsame _ _ => hsame⟩
  | _ => exact iff_of_true (fun _ _ => hmake) trivial

/-- A lock that a dropped link refused. -/
theorem unsent_lock_records_nothing :
    RecordsNothing (fun _ _ => .error .disconnected) .default
      (.sendLock lockClsAxis Axis.x.asU16 .both lockScaleBlock) :=
  (unsent_records_nothing_iff _ .default _ _ fun _ _ => ⟨_, rfl⟩).mpr trivial

/-- A press that the caller was told had failed is held all the same. -/
theorem unsent_press_recorded :
    ¬∀ d : DesiredState, Reachable d → ∀ (c : SessionCall)
      (send : FrameType → List UInt8 → Except Error Unit), Refuses send →
        RecordsNothing send d c := by
  intro h
  have hsame : DesiredState.default.apply ⟨.key, 4⟩ .press = .default :=
    h .default .default (.inject ⟨.key, 4⟩ .press) (fun _ _ => .error .disconnected)
      (fun _ _ => ⟨_, rfl⟩) _ rfl
  exact absurd ((apply_eq_self_iff _ _ _).mp hsame) (by decide)

end Medius.Device
