import Medius.Link.Slots
import Medius.Protocol.Command
import Medius.Types.Clip

/-! The state the control PC owns and re-asserts: overrides, locks, catch entries, rewrite
rules, transforms and clip configuration. -/

namespace Medius.Link

open Protocol Medius.Types

abbrev LockKey := UInt8 × UInt16 × UInt8

inductive Override
  | none | press | force
  deriving DecidableEq

def Override.asAction : Override → Option Action
  | .none => .none
  | .press => some .press
  | .force => some .forceRelease

def Override.applied : Action → Override
  | .press => .press
  | .forceRelease => .force
  | .softRelease => .none

/-- What `applyLock` overwrote, to restore when the frame was never sent. -/
structure LockUndo where
  rows : List ((UInt8 × UInt16) × Option Slots)
  mediaOrder : List UInt16

structure StoredRewrite where
  class_ : UInt8
  id : UInt16
  direction : UInt8
  action : UInt8
  offset : UInt16
  matchBytes : List UInt8
  mask : List UInt8
  payload : List UInt8
  deriving DecidableEq

abbrev RewriteWireKey := UInt8 × UInt16 × UInt8 × List UInt8 × List UInt8

def StoredRewrite.key (r : StoredRewrite) : RewriteWireKey :=
  (r.class_, r.id, r.direction, r.matchBytes, r.mask)

structure RewriteUndo where
  key : RewriteWireKey
  prior : Option (Nat × StoredRewrite)

structure StoredTransform where
  op : UInt8
  sclass : UInt8
  sid : UInt16
  dclass : UInt8
  did : UInt16
  deriving DecidableEq

abbrev TransformWireKey := UInt8 × UInt16 × UInt8 × UInt16

def StoredTransform.key (t : StoredTransform) : TransformWireKey :=
  (t.sclass, t.sid, t.dclass, t.did)

structure TransformUndo where
  key : TransformWireKey
  prior : Option (Nat × StoredTransform)

abbrev FilterSet := BTreeMap FilterKey CatchFilter

abbrev ClipTriggerKey := UInt8 × UInt16 × UInt8

def clipTriggerKey (t : ClipTrigger) : ClipTriggerKey :=
  (t.on.classId.1, t.on.classId.2, t.edge.asU8)

abbrev ClipPacketKey := UInt8 × UInt16 × UInt8 × List UInt8 × List UInt8

def clipPacketKey (t : ClipPacketTrigger) : ClipPacketKey :=
  (t.class_.asU8, t.id, t.direction.asU8, t.matchBytes, t.mask)

/-- `ring` says whether the ring held the clip when last known, `lost` that the box dropped a
loaded one. -/
structure ClipHeld where
  loaded : Bool
  ring : Bool
  ringGen : Nat
  lost : Bool
  settings : Vector UInt8 4
  triggers : BTreeMap ClipTriggerKey ClipTrigger
  packetTriggers : List ClipPacketTrigger

def ClipHeld.default : ClipHeld where
  loaded := false
  ring := false
  ringGen := 0
  lost := false
  settings := #v[0, 0, 0, 0]
  triggers := ∅
  packetTriggers := []

structure DesiredState where
  overrides : BTreeMap (UInt8 × UInt16) Override
  locks : BTreeMap (UInt8 × UInt16) Slots
  mediaOrder : List UInt16
  catch_ : FilterSet
  rewrites : List StoredRewrite
  transforms : List StoredTransform
  declaredButtons : Option UInt8
  clip : ClipHeld

def ringHolds (status : ClipStatus) : Bool := status.total ≠ 0 || status.state ≠ .idle

/-- A granular media lock, the only class the box holds in a slot array. -/
def isMediaSlot (class_ : UInt8) (id : UInt16) : Bool := class_ = lockClsMedia && id ≠ lockIdAll

/-- A momentary usage carries one bit. -/
def momentaryScale (class_ : UInt8) (scale : Int16) : Int16 :=
  if class_ = lockClsAxis then scale
  else if scale < lockScalePass then lockScaleBlock
  else lockScalePass

def usizeMax : Nat := 2 ^ 64 - 1

def clipSetPayloads (settings : Vector UInt8 4) : List (FrameType × List UInt8) :=
  (settings.toList.zipIdx.filter fun s => s.1 ≠ 0).map fun s =>
    (.clipSet, clipSetPayload (UInt8.ofNat s.2) s.1)

def bindPayload (t : ClipTrigger) : List UInt8 :=
  clipTriggerPayload t.on.classId.1 t.on.classId.2 t.edge.asU8 t.action.asU8
    (clipTrigFPresent ||| if t.consume then clipTrigFConsume else 0)

def bindPacketPayload (t : ClipPacketTrigger) : List UInt8 :=
  clipPacketTriggerPayload t.class_.asU8 t.id t.direction.asU8 t.action.asU8
    (clipTrigFPresent ||| t.flags) t.selectorLen t.matchBytes t.mask

namespace DesiredState

def default : DesiredState where
  overrides := ∅
  locks := ∅
  mediaOrder := []
  catch_ := ∅
  rewrites := []
  transforms := []
  declaredButtons := none
  clip := .default

def clipLoaded (d : DesiredState) (loaded : Bool) : DesiredState :=
  { d with clip := { d.clip with
      loaded := loaded, ring := loaded, ringGen := d.clip.ringGen + 1, lost := false } }

/-- A ring reading taken when `ringGen` was `seen`; `released` means the box released the
session first, so a clip the ring held is lost. -/
def clipNoteRing (d : DesiredState) (seen : Nat) (status : ClipStatus) (released : Bool) :
    DesiredState :=
  if seen ≠ d.clip.ringGen then d
  else
    let holds := ringHolds status
    let clip := if released && d.clip.ring && !holds then
      { d.clip with lost := true, loaded := false } else d.clip
    { d with clip := { clip with ring := holds } }

def clipSetting (d : DesiredState) (id value : UInt8) : DesiredState :=
  { d with clip := { d.clip with settings := d.clip.settings.setIfInBounds id.toNat value } }

def clipBind (d : DesiredState) (trigger : ClipTrigger) : DesiredState :=
  { d with clip := { d.clip with
      triggers := d.clip.triggers.insert (clipTriggerKey trigger) trigger } }

def clipUnbind (d : DesiredState) (key : ClipTriggerKey) : DesiredState :=
  { d with clip := { d.clip with triggers := d.clip.triggers.erase key } }

def clipPacketBind (d : DesiredState) (trigger : ClipPacketTrigger) : DesiredState :=
  let held := d.clip.packetTriggers
  { d with clip := { d.clip with
      packetTriggers :=
        match held.findIdx? fun t => clipPacketKey t = clipPacketKey trigger with
        | some i => held.set i trigger
        | none => held ++ [trigger] } }

def clipPacketUnbind (d : DesiredState) (key : ClipPacketKey) : DesiredState :=
  { d with clip := { d.clip with
      packetTriggers := d.clip.packetTriggers.filter fun t => clipPacketKey t ≠ key } }

def clipPacketDropConsuming (d : DesiredState) : DesiredState × List ClipPacketTrigger :=
  ({ d with clip := { d.clip with
      packetTriggers := d.clip.packetTriggers.filter fun t => !t.consume } },
    d.clip.packetTriggers.filter fun t => t.consume)

/-- Frames that rebuild the held clip settings and triggers on a box holding none. -/
def clipConfigFrames (d : DesiredState) : List (FrameType × List UInt8) :=
  clipSetPayloads d.clip.settings ++
    d.clip.triggers.values.map (fun t => (.clipTrigger, bindPayload t)) ++
    d.clip.packetTriggers.map fun t => (.clipTrigger, bindPacketPayload t)

def clipTriggersClear (d : DesiredState) : DesiredState :=
  { d with clip := { d.clip with triggers := ∅, packetTriggers := [] } }

/-- Adopts what the box reports it holds, read back after a reconnect. -/
def clipAdopt (d : DesiredState) (status : ClipStatus) (settings : ClipSettings) : DesiredState :=
  let scalars := #v[(0 : UInt8), 0, 0, 0]
    |>.setIfInBounds clipSetAutolock.toNat (blanketScope settings.autolock)
    |>.setIfInBounds clipSetLoop.toNat settings.loop_.toUInt8
    |>.setIfInBounds clipSetRetain.toNat settings.retain.toUInt8
    |>.setIfInBounds clipSetRide.toNat settings.ride.toUInt8
  let loaded := ringHolds status
  { d with clip := {
      loaded := loaded
      ring := loaded
      ringGen := d.clip.ringGen + 1
      lost := d.clip.lost || (d.clip.ring && !loaded)
      settings := scalars
      triggers := settings.triggers.foldl (fun m t => m.insert (clipTriggerKey t) t) ∅
      packetTriggers := settings.packetTriggers.map (·.trigger) } }

def apply (d : DesiredState) (usage : Usage) (action : Action) : DesiredState :=
  match Override.applied action with
  | .none => { d with overrides := d.overrides.erase usage.classId }
  | ov => { d with overrides := d.overrides.insert usage.classId ov }

/-- Drops a row with every slot at pass; tracks the media slot order. -/
def writeLockRow (d : DesiredState) (class_ : UInt8) (id : UInt16) (dir : UInt8) (scale : Int16)
    (undo : LockUndo) : DesiredState × LockUndo :=
  let key := (class_, id)
  let undo := { undo with rows := undo.rows ++ [(key, d.locks[key]?)] }
  let row := (d.locks.getD key Slots.default).write dir scale
  if row.isClear then
    ({ d with
        locks := d.locks.erase key
        mediaOrder := if isMediaSlot class_ id then d.mediaOrder.filter (· ≠ id)
          else d.mediaOrder }, undo)
  else
    ({ d with
        locks := d.locks.insert key row
        mediaOrder := if isMediaSlot class_ id && !d.mediaOrder.contains id
          then d.mediaOrder ++ [id] else d.mediaOrder }, undo)

def buttonRowKeys (d : DesiredState) : List (UInt8 × UInt16) :=
  d.locks.keys.filter fun k => k.1 = lockClsBtn && k.2 ≠ lockIdAll

/-- A fresh button blanket covers every button row. -/
def clearButtonRows (d : DesiredState) (undo : LockUndo) : DesiredState × LockUndo :=
  ({ d with locks := d.buttonRowKeys.foldl (fun m k => m.erase k) d.locks },
    { undo with rows := undo.rows ++ d.buttonRowKeys.map fun k => (k, d.locks[k]?) })

def buttonCount (d : DesiredState) : UInt16 := (d.declaredButtons.getD btnCount).toUInt16

def buttonIds (d : DesiredState) : List UInt16 :=
  (List.range d.buttonCount.toNat).map UInt16.ofNat

/-- Expands the held button blanket onto the declared buttons and drops the blanket row. -/
def burstButtonBlanket (d : DesiredState) (undo : LockUndo) : DesiredState × LockUndo :=
  let key := (lockClsBtn, lockIdAll)
  match d.locks[key]? with
  | none => (d, undo)
  | some blanket =>
    let rows := d.buttonIds.map fun b => (lockClsBtn, b)
    ({ d with locks :=
        (rows.foldl (fun m k => if k ∈ m then m else m.insert k blanket) d.locks).erase key },
      { undo with rows := undo.rows ++
          (rows.filter fun k => k ∉ d.locks).map (fun k => (k, none)) ++ [(key, some blanket)] })

/-- Tracks a scale as the box's table holds it.  A button blanket is one unexpanded row;
writing one button while it is held expands it first. -/
def applyLock (d : DesiredState) (key : LockKey) (scale : Int16) : DesiredState × LockUndo :=
  let (class_, id, dir) := key
  let scale := momentaryScale class_ scale
  let undo : LockUndo := ⟨[], d.mediaOrder⟩
  if class_ = lockClsBtn ∧ id = lockIdAll then
    let (d, undo) := d.clearButtonRows undo
    d.writeLockRow class_ id dir scale undo
  else if class_ = lockClsBtn ∧ (lockClsBtn, lockIdAll) ∈ d.locks then
    let (d, undo) := d.burstButtonBlanket undo
    d.writeLockRow class_ id dir scale undo
  else d.writeLockRow class_ id dir scale undo

def noteDeclaredButtons (d : DesiredState) (nButtons : UInt8) : DesiredState :=
  { d with declaredButtons := some (min nButtons maxButtons) }

/-- Undone newest first, so a row touched more than once rewinds to where it started. -/
def restoreLock (d : DesiredState) (undo : LockUndo) : DesiredState :=
  { d with
    locks := undo.rows.reverse.foldl (fun m r =>
      match r.2 with
      | some row => m.insert r.1 row
      | none => m.erase r.1) d.locks
    mediaOrder := undo.mediaOrder }

/-- An overwrite that changes the rule moves it to the end, as the box re-adds it. -/
def applyRewrite (d : DesiredState) (rule : StoredRewrite) : DesiredState × RewriteUndo :=
  let key := rule.key
  match d.rewrites.findIdx? fun r => r.key = key with
  | some i =>
    if d.rewrites[i]? = some rule then (d, ⟨key, some (i, rule)⟩)
    else
      ({ d with rewrites := d.rewrites.eraseIdx i ++ [rule] },
        ⟨key, d.rewrites[i]?.map fun r => (i, r)⟩)
  | none => ({ d with rewrites := d.rewrites ++ [rule] }, ⟨key, none⟩)

def removeRewrite (d : DesiredState) (key : RewriteWireKey) : DesiredState × RewriteUndo :=
  match d.rewrites.findIdx? fun r => r.key = key with
  | some i =>
    ({ d with rewrites := d.rewrites.eraseIdx i }, ⟨key, d.rewrites[i]?.map fun r => (i, r)⟩)
  | none => (d, ⟨key, none⟩)

def restoreRewrite (d : DesiredState) (undo : RewriteUndo) : DesiredState :=
  let rewrites := d.rewrites.filter fun r => r.key ≠ undo.key
  match undo.prior with
  | some (i, rule) => { d with rewrites := rewrites.insertIdx (min i rewrites.length) rule }
  | none => { d with rewrites := rewrites }

def clearRewrites (d : DesiredState) : DesiredState := { d with rewrites := [] }

def heldRewrites (d : DesiredState) : List StoredRewrite := d.rewrites

def holdsRewrite (d : DesiredState) (key : RewriteWireKey) : Bool :=
  d.rewrites.any fun r => r.key = key

def rewriteCount (d : DesiredState) : Nat := d.rewrites.length

/-- What the box counts before costing an add or overwrite of the key. -/
def rewritePoolUsedExcept (d : DesiredState) (key : RewriteWireKey) : Nat :=
  ((d.rewrites.filter fun r => r.key ≠ key).map (·.payload.length)).sum

def applyTransform (d : DesiredState) (entry : StoredTransform) :
    DesiredState × TransformUndo :=
  let key := entry.key
  match d.transforms.findIdx? fun e => e.key = key with
  | some i =>
    ({ d with transforms := d.transforms.set i entry },
      ⟨key, d.transforms[i]?.map fun e => (i, e)⟩)
  | none => ({ d with transforms := d.transforms ++ [entry] }, ⟨key, none⟩)

def removeTransform (d : DesiredState) (key : TransformWireKey) :
    DesiredState × TransformUndo :=
  match d.transforms.findIdx? fun e => e.key = key with
  | some i =>
    ({ d with transforms := d.transforms.eraseIdx i },
      ⟨key, d.transforms[i]?.map fun e => (i, e)⟩)
  | none => (d, ⟨key, none⟩)

def restoreTransform (d : DesiredState) (undo : TransformUndo) : DesiredState :=
  match undo.prior with
  | some (i, entry) =>
    match d.transforms.findIdx? fun e => e.key = undo.key with
    | some cur => { d with transforms := d.transforms.set cur entry }
    | none =>
      { d with transforms := d.transforms.insertIdx (min i d.transforms.length) entry }
  | none => { d with transforms := d.transforms.filter fun e => e.key ≠ undo.key }

def clearTransforms (d : DesiredState) : DesiredState := { d with transforms := [] }

def holdsTransform (d : DesiredState) (key : TransformWireKey) : Bool :=
  d.transforms.any fun e => e.key = key

def transformCount (d : DesiredState) : Nat := d.transforms.length

def heldTransforms (d : DesiredState) : List StoredTransform := d.transforms

def clear (d : DesiredState) : DesiredState :=
  { d with
    overrides := ∅
    locks := ∅
    mediaOrder := []
    rewrites := []
    transforms := []
    clip := .default }

def setCatch (d : DesiredState) (filters : FilterSet) : DesiredState := { d with catch_ := filters }

def isIdle (d : DesiredState) : Bool :=
  d.catch_.isEmpty && d.overrides.isEmpty && d.locks.isEmpty && d.rewrites.isEmpty &&
    d.transforms.isEmpty && !d.clip.loaded && d.clip.settings = #v[0, 0, 0, 0] &&
    d.clip.triggers.isEmpty && d.clip.packetTriggers.isEmpty

def held (d : DesiredState) : List (Usage × Action) :=
  d.overrides.toList.filterMap fun ⟨(cls, id), ov⟩ => do
    let action ← ov.asAction
    let class_ ← Class.fromU8 cls
    return (⟨class_, id⟩, action)

/-- Rank of a media row's slot; the media blanket holds no slot and goes last. -/
def mediaRank (d : DesiredState) (class_ : UInt8) (id : UInt16) : Nat :=
  if class_ ≠ lockClsMedia then 0
  else (d.mediaOrder.findIdx? (· = id)).getD usizeMax

def rowLe (d : DesiredState) (a b : (UInt8 × UInt16) × Slots) : Prop :=
  a.1.1 < b.1.1 ∨ a.1.1 = b.1.1 ∧
    (d.mediaRank a.1.1 a.1.2 < d.mediaRank b.1.1 b.1.2 ∨
      d.mediaRank a.1.1 a.1.2 = d.mediaRank b.1.1 b.1.2 ∧ a.1.2 ≤ b.1.2)

instance (d : DesiredState) : DecidableRel d.rowLe := fun _ _ => by
  unfold rowLe
  infer_instance

def sortedRows (d : DesiredState) : List ((UInt8 × UInt16) × Slots) :=
  d.locks.toList.insertionSort d.rowLe

def rowIds (d : DesiredState) (class_ : UInt8) (id : UInt16) : List UInt16 :=
  if class_ = lockClsBtn ∧ id = lockIdAll then d.buttonIds else [id]

/-- The commands rebuilding every held row. -/
def heldLocks (d : DesiredState) : List (LockKey × Int16) :=
  d.sortedRows.flatMap fun ⟨(class_, id), row⟩ =>
    (d.rowIds class_ id).flatMap fun id =>
      row.commands.map fun c => ((class_, id, c.1), c.2)

end DesiredState

end Medius.Link
