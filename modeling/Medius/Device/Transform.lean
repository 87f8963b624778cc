import Medius.Device.Lock

namespace Medius.Device

open Protocol Link Medius.Types

def storedTransform (t : Transform) : StoredTransform where
  op := t.op.asU8
  sclass := t.source.classId.1
  sid := t.source.classId.2
  dclass := t.dest.classId.1
  did := t.dest.classId.2

/-- Mirrors the box's `transform_tab_set`. -/
def validateTransform (t : Transform) : Except Error Unit :=
  if ¬t.op.admits t.source t.dest then .error (.transformOpFields t.op t.source t.dest)
  else .ok ()

abbrev transformSet : UInt8 := 1
abbrev transformRemove : UInt8 := 0

variable {β : Type}

def transformSendLocked (send : FrameType → List UInt8 → Except Error β) (d : DesiredState)
    (t : Transform) (state : UInt8) : DesiredState × Except Error β :=
  let stored := storedTransform t
  let (d, undo) :=
    if state = transformSet then d.applyTransform stored else d.removeTransform stored.key
  recorded d (d.restoreTransform undo) <| send .transform <|
    transformPayload stored.op stored.sclass stored.sid stored.dclass stored.did state

def transform (send : FrameType → List UInt8 → Except Error β) (d : DesiredState)
    (t : Transform) : DesiredState × Except Error β :=
  match validateTransform t with
  | .error e => (d, .error e)
  | .ok () =>
    if ¬d.holdsTransform (storedTransform t).key ∧ d.transformCount ≥ transformMaxEntries then
      (d, .error (.transformTableFull transformMaxEntries))
    else transformSendLocked send d t transformSet

def untransform (send : FrameType → List UInt8 → Except Error β) (d : DesiredState)
    (t : Transform) : DesiredState × Except Error β :=
  transformSendLocked send d t transformRemove

def clearTransforms (send : FrameType → List UInt8 → Except Error β) (d : DesiredState) :
    DesiredState × Except Error β :=
  let held := d.heldTransforms
  let d := d.clearTransforms
  recorded d (held.foldl (fun d t => (d.applyTransform t).1) d) <| send .transform <|
    transformPayload 0 0xFF 0xFFFF 0xFF 0xFFFF transformRemove

end Medius.Device
