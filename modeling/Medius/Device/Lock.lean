import Medius.Error
import Medius.Link.Reconcile

namespace Medius.Device

open Protocol Link Medius.Types

/-- Only an axis has a bearing to be with or against. -/
def lockDirection (class_ : UInt8) (direction : Direction) : Except Error Direction :=
  if class_ = lockClsAxis then .ok direction
  else if direction.isRelative then
    .error (.relativeDirection direction
      (if class_ = lockClsBtn then "button lock"
        else if class_ = lockClsKey then "key lock"
        else "media lock"))
  else .ok (if class_ = lockClsMedia then .both else direction)

/-- The checks `sendLock` makes, and the direction byte it sends. -/
def lockCommand (class_ : UInt8) (id : UInt16) (direction : Direction) (scale : Int16) :
    Except Error (LockKey × Int16) :=
  if ¬(lockScaleMin ≤ scale ∧ scale ≤ lockScaleMax) then
    .error (.lockScaleRange scale lockScaleMin lockScaleMax)
  else if scale < 0 ∧ class_ ≠ lockClsAxis then .error (.lockScaleUsage scale class_)
  else do
    let dir ← lockDirection class_ direction
    return ((class_, id, dir.asU8), scale)

variable {β : Type}

/-- Recorded before the write, and rolled back if the frame was never sent. -/
def recorded (d undone : DesiredState) : Except Error β → DesiredState × Except Error β
  | .ok sent => (d, .ok sent)
  | .error e => (undone, .error e)

def sendLock (send : FrameType → List UInt8 → Except Error β) (d : DesiredState)
    (class_ : UInt8) (id : UInt16) (direction : Direction) (scale : Int16) :
    DesiredState × Except Error β :=
  match lockCommand class_ id direction scale with
  | .error e => (d, .error e)
  | .ok ((class_, id, dir), scale) =>
    let (d, undo) := d.applyLock (class_, id, dir) scale
    recorded d (d.restoreLock undo) (send .lock (lockPayload class_ id dir scale))

/-- The cursor's two axes are two frames, the second sent once the first has gone out. -/
def blanket (send : FrameType → List UInt8 → Except Error β) (d : DesiredState) (what : Blanket)
    (direction : Direction) (scale : Int16) : DesiredState × Except Error β :=
  match what with
  | .aim =>
    match sendLock send d lockClsAxis Axis.x.asU16 direction scale with
    | (d, .error e) => (d, .error e)
    | (d, .ok _) => sendLock send d lockClsAxis Axis.y.asU16 direction scale
  | .wheel => sendLock send d lockClsAxis Axis.wheel.asU16 direction scale
  | .buttons => sendLock send d lockClsBtn lockIdAll direction scale
  | .keys => sendLock send d lockClsKey lockIdAll direction scale
  | .media => sendLock send d lockClsMedia lockIdAll direction scale

end Medius.Device
