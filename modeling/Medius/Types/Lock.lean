import Medius.Types.Direction
import Medius.Types.Usage

namespace Medius.Types

open Protocol

inductive BearingMode
  | perAxis | vector
  deriving DecidableEq

/-- What is weighed, in which direction, by how much. -/
structure LockEntry where
  scope : LockScope
  direction : Direction
  scale : Int16
  deriving DecidableEq

structure Locks where
  entries : List LockEntry
  deriving DecidableEq

def decodeScope (cls : UInt8) (id : UInt16) : Option LockScope :=
  if cls = lockClsAxis then return .target (.axis (← Axis.fromU16 id))
  else if id = lockIdAll then return .blanket (← Class.fromU8 cls)
  else return .target (.usage ⟨← Class.fromU8 cls, id⟩)

namespace Locks

/-- One `[class][id u16 LE][dir][scale i16 LE]`; an unknown one is stepped over. -/
def readEntry : List UInt8 → Option (Option LockEntry × Nat)
  | cls :: id0 :: id1 :: dir :: scale0 :: scale1 :: _ =>
    let entry := do
      let scope ← decodeScope cls (fromLeBytes id0 id1)
      let direction ← Direction.fromU8 dir
      return ⟨scope, direction, (fromLeBytes scale0 scale1).toInt16⟩
    some (entry, 6)
  | _ => none

def fromPayload (p : List UInt8) : Option Locks := do
  let n ← p[1]?
  return ⟨(← Records.walk readEntry p n.toNat 2).1.reduceOption⟩

end Locks

/-- Not a single usage whose id the wire keeps for the whole class. -/
def LockScope.Spelled : LockScope → Prop
  | .target (.usage u) => u.id ≠ lockIdAll
  | _ => True

theorem decodeScope_classId {s : LockScope} (h : s.Spelled) :
    decodeScope s.classId.1 s.classId.2 = some s := by
  cases s with
  | target t =>
    cases t with
    | axis a => simp [decodeScope, LockScope.classId, LockTarget.classId]
    | usage u =>
      have hcls : u.class_.asU8 ≠ lockClsAxis := by cases u.class_ <;> decide
      have hid : u.id ≠ lockIdAll := h
      simp [decodeScope, LockScope.classId, LockTarget.classId, Usage.classId, hcls, hid]
  | blanket c =>
    have hcls : c.asU8 ≠ lockClsAxis := by cases c <;> decide
    simp [decodeScope, LockScope.classId, hcls]

end Medius.Types
