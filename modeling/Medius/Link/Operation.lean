import Medius.Link.Reconcile

/-! Every change the program makes to its desired state. -/

namespace Medius.Link

open Protocol Medius.Types

inductive DesiredOp
  | apply (usage : Usage) (action : Action)
  | applyLock (key : LockKey) (scale : Int16)
  | restoreLock (undo : LockUndo)
  | noteDeclaredButtons (nButtons : UInt8)
  | applyRewrite (rule : StoredRewrite)
  | removeRewrite (key : RewriteWireKey)
  | restoreRewrite (undo : RewriteUndo)
  | clearRewrites
  | applyTransform (entry : StoredTransform)
  | removeTransform (key : TransformWireKey)
  | restoreTransform (undo : TransformUndo)
  | clearTransforms
  | setCatch (filters : FilterSet)
  | clear
  | clipLoaded (loaded : Bool)
  | clipNoteRing (seen : Nat) (status : ClipStatus) (released : Bool)
  | clipSetting (id value : UInt8)
  | clipBind (trigger : ClipTrigger)
  | clipUnbind (key : ClipTriggerKey)
  | clipPacketBind (trigger : ClipPacketTrigger)
  | clipPacketUnbind (key : ClipPacketKey)
  | clipPacketDropConsuming
  | clipTriggersClear
  | clipAdopt (status : ClipStatus) (settings : ClipSettings)

namespace DesiredState

def perform (d : DesiredState) : DesiredOp → DesiredState
  | .apply usage action => d.apply usage action
  | .applyLock key scale => (d.applyLock key scale).1
  | .restoreLock undo => d.restoreLock undo
  | .noteDeclaredButtons nButtons => d.noteDeclaredButtons nButtons
  | .applyRewrite rule => (d.applyRewrite rule).1
  | .removeRewrite key => (d.removeRewrite key).1
  | .restoreRewrite undo => d.restoreRewrite undo
  | .clearRewrites => d.clearRewrites
  | .applyTransform entry => (d.applyTransform entry).1
  | .removeTransform key => (d.removeTransform key).1
  | .restoreTransform undo => d.restoreTransform undo
  | .clearTransforms => d.clearTransforms
  | .setCatch filters => d.setCatch filters
  | .clear => d.clear
  | .clipLoaded loaded => d.clipLoaded loaded
  | .clipNoteRing seen status released => d.clipNoteRing seen status released
  | .clipSetting id value => d.clipSetting id value
  | .clipBind trigger => d.clipBind trigger
  | .clipUnbind key => d.clipUnbind key
  | .clipPacketBind trigger => d.clipPacketBind trigger
  | .clipPacketUnbind key => d.clipPacketUnbind key
  | .clipPacketDropConsuming => d.clipPacketDropConsuming.1
  | .clipTriggersClear => d.clipTriggersClear
  | .clipAdopt status settings => d.clipAdopt status settings

def performAll (d : DesiredState) (ops : List DesiredOp) : DesiredState := ops.foldl perform d

@[simp] theorem performAll_nil (d : DesiredState) : d.performAll [] = d := rfl

@[simp] theorem performAll_cons (d : DesiredState) (op : DesiredOp) (ops : List DesiredOp) :
    d.performAll (op :: ops) = (d.perform op).performAll ops := rfl

theorem performAll_append (d : DesiredState) (ops ops' : List DesiredOp) :
    d.performAll (ops ++ ops') = (d.performAll ops).performAll ops' := List.foldl_append

theorem writeLockRow_frame (d : DesiredState) (class_ : UInt8) (id : UInt16) (dir : UInt8)
    (scale : Int16) (undo : LockUndo) : ∃ locks mediaOrder,
      (d.writeLockRow class_ id dir scale undo).1 =
        { d with locks := locks, mediaOrder := mediaOrder } := by
  unfold writeLockRow
  dsimp only
  split <;> exact ⟨_, _, rfl⟩

theorem burstButtonBlanket_frame (d : DesiredState) (undo : LockUndo) :
    ∃ locks, (d.burstButtonBlanket undo).1 = { d with locks := locks } := by
  unfold burstButtonBlanket
  dsimp only
  split <;> exact ⟨_, rfl⟩

/-- A lock touches the lock rows and the media order alone. -/
theorem applyLock_frame (d : DesiredState) (key : LockKey) (scale : Int16) : ∃ locks mediaOrder,
    (d.applyLock key scale).1 = { d with locks := locks, mediaOrder := mediaOrder } := by
  unfold applyLock
  dsimp only
  split_ifs
  · obtain ⟨locks, order, h⟩ := writeLockRow_frame _ _ _ _ _ _
    exact ⟨locks, order, h⟩
  · obtain ⟨locks, order, h⟩ := writeLockRow_frame _ _ _ _ _ _
    obtain ⟨locks', h'⟩ := burstButtonBlanket_frame _ _
    exact ⟨locks, order, by rw [h, h']⟩
  · exact writeLockRow_frame _ _ _ _ _ _

@[simp] theorem applyLock_clip (d : DesiredState) (key : LockKey) (scale : Int16) :
    (d.applyLock key scale).1.clip = d.clip := by
  obtain ⟨locks, order, h⟩ := d.applyLock_frame key scale
  rw [h]

@[simp] theorem applyRewrite_clip (d : DesiredState) (rule : StoredRewrite) :
    (d.applyRewrite rule).1.clip = d.clip := by
  unfold applyRewrite
  dsimp only
  split
  · split <;> rfl
  · rfl

@[simp] theorem removeRewrite_clip (d : DesiredState) (key : RewriteWireKey) :
    (d.removeRewrite key).1.clip = d.clip := by
  unfold removeRewrite
  split <;> rfl

@[simp] theorem restoreRewrite_clip (d : DesiredState) (undo : RewriteUndo) :
    (d.restoreRewrite undo).clip = d.clip := by
  unfold restoreRewrite
  dsimp only
  split <;> rfl

@[simp] theorem applyTransform_clip (d : DesiredState) (entry : StoredTransform) :
    (d.applyTransform entry).1.clip = d.clip := by
  unfold applyTransform
  dsimp only
  split <;> rfl

@[simp] theorem removeTransform_clip (d : DesiredState) (key : TransformWireKey) :
    (d.removeTransform key).1.clip = d.clip := by
  unfold removeTransform
  split <;> rfl

@[simp] theorem restoreTransform_clip (d : DesiredState) (undo : TransformUndo) :
    (d.restoreTransform undo).clip = d.clip := by
  unfold restoreTransform
  split
  · split <;> rfl
  · rfl

@[simp] theorem apply_clip (d : DesiredState) (usage : Usage) (action : Action) :
    (d.apply usage action).clip = d.clip := by
  unfold apply
  split <;> rfl

theorem clipNoteRing_ringGen (d : DesiredState) (seen : Nat) (status : ClipStatus)
    (released : Bool) : (d.clipNoteRing seen status released).clip.ringGen = d.clip.ringGen := by
  unfold clipNoteRing
  split_ifs
  · rfl
  · dsimp only
    split <;> rfl

end DesiredState

end Medius.Link
