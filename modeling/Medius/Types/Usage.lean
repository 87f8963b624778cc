import Medius.Lib.Records
import Medius.Protocol.Opcode

namespace Medius.Types

open Protocol

inductive Class
  | button | key | media
  deriving DecidableEq

def Class.asU8 : Class → UInt8
  | .button => lockClsBtn
  | .key => lockClsKey
  | .media => lockClsMedia

def Class.fromU8 (v : UInt8) : Option Class :=
  if v = lockClsBtn then some .button
  else if v = lockClsKey then some .key
  else if v = lockClsMedia then some .media
  else none

@[simp] theorem Class.fromU8_asU8 (c : Class) : fromU8 c.asU8 = some c := by cases c <;> rfl

structure Usage where
  class_ : Class
  id : UInt16
  deriving DecidableEq

def Usage.pushLe (u : Usage) : List UInt8 := u.class_.asU8 :: toLeBytes u.id

/-- One `[class][id u16 LE]` of a usage list. -/
def Usage.read : List UInt8 → Option (Usage × Nat)
  | class_ :: lo :: hi :: _ => return (⟨← Class.fromU8 class_, fromLeBytes lo hi⟩, 3)
  | _ => none

def Usage.decodeList (p : List UInt8) : Option (List Usage) := do
  let n ← p.head?
  return (← Records.walk read p n.toNat 1).1

theorem Usage.reads (u : Usage) : Records.Reads read pushLe (fun u => u) u := by
  intro rest
  simp only [pushLe, toLeBytes, List.cons_append, read, Class.fromU8_asU8, fromLeBytes_toLeBytes]
  rfl

def Usage.classId (u : Usage) : UInt8 × UInt16 := (u.class_.asU8, u.id)

inductive Axis
  | x | y | wheel | pan
  deriving DecidableEq

def Axis.asU16 : Axis → UInt16
  | .x => 0
  | .y => 1
  | .wheel => 2
  | .pan => lockAxisPan

def Axis.fromU16 (id : UInt16) : Option Axis :=
  if id = 0 then some .x
  else if id = 1 then some .y
  else if id = 2 then some .wheel
  else if id = lockAxisPan then some .pan
  else none

@[simp] theorem Axis.fromU16_asU16 (a : Axis) : fromU16 a.asU16 = some a := by cases a <;> rfl

/-- Addressable input field: a relative axis or a momentary usage. -/
inductive LockTarget
  | axis (a : Axis)
  | usage (u : Usage)
  deriving DecidableEq

def LockTarget.classId : LockTarget → UInt8 × UInt16
  | .axis a => (lockClsAxis, a.asU16)
  | .usage u => u.classId

def LockTarget.fromClassId (class_ : UInt8) (id : UInt16) : Option LockTarget :=
  if class_ = lockClsAxis then return .axis (← Axis.fromU16 id)
  else return .usage ⟨← Class.fromU8 class_, id⟩

@[simp] theorem LockTarget.fromClassId_classId (t : LockTarget) :
    fromClassId t.classId.1 t.classId.2 = some t := by
  cases t with
  | axis a => simp [fromClassId, classId]
  | usage u =>
    have h : u.class_.asU8 ≠ lockClsAxis := by cases u.class_ <;> decide
    simp [fromClassId, classId, Usage.classId, h]

/-- What a `LOCK` command addresses: one field, or a whole class. -/
inductive LockScope
  | target (t : LockTarget)
  | blanket (c : Class)
  deriving DecidableEq

def LockScope.classId : LockScope → UInt8 × UInt16
  | .target t => t.classId
  | .blanket c => (c.asU8, lockIdAll)

inductive Action
  | softRelease | press | forceRelease
  deriving DecidableEq

def Action.asU8 : Action → UInt8
  | .softRelease => actSoftrel
  | .press => actPress
  | .forceRelease => actForcerel

inductive Blanket
  | aim | wheel | buttons | keys | media
  deriving DecidableEq

def Blanket.clipLockBit : Blanket → UInt8
  | .aim => clipLockAim
  | .wheel => clipLockWheel
  | .buttons => clipLockButtons
  | .keys => clipLockKeys
  | .media => clipLockMedia

def Blanket.all : List Blanket := [.aim, .wheel, .buttons, .keys, .media]

def blanketScope (scope : List Blanket) : UInt8 := scope.foldl (fun m b => m ||| b.clipLockBit) 0

def blanketFromScope (scope : UInt8) : List Blanket :=
  Blanket.all.filter fun b => scope &&& b.clipLockBit ≠ 0

end Medius.Types
