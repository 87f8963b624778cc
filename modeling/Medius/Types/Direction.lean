import Medius.Protocol.Opcode

namespace Medius.Types

open Protocol

/-- The direction byte shared by `LOCK`, `CLIP` and `CATCH`. -/
inductive Direction
  | both | positive | negative | with_ | against
  deriving DecidableEq

def Direction.asU8 : Direction → UInt8
  | .both => lockDirBoth
  | .positive => lockDirPos
  | .negative => lockDirNeg
  | .with_ => lockDirWith
  | .against => lockDirAgainst

def Direction.fromU8 (v : UInt8) : Option Direction :=
  if v = lockDirBoth then some .both
  else if v = lockDirPos then some .positive
  else if v = lockDirNeg then some .negative
  else if v = lockDirWith then some .with_
  else if v = lockDirAgainst then some .against
  else none

@[simp] theorem Direction.fromU8_asU8 (d : Direction) : fromU8 d.asU8 = some d := by
  cases d <;> rfl

theorem Direction.asU8_injective : Function.Injective asU8 := by
  intro a b h
  simpa using congrArg fromU8 h

theorem Direction.asU8_eq_both {d : Direction} : d.asU8 = lockDirBoth ↔ d = .both :=
  ⟨fun h => asU8_injective h, fun h => h ▸ rfl⟩

def Direction.isRelative : Direction → Bool
  | .with_ | .against => true
  | _ => false

theorem Direction.asU8_le_neg {d : Direction} : d.asU8 ≤ lockDirNeg ↔ d.isRelative = false := by
  cases d <;> decide

/-- `Both` on either side matches, as on the box. -/
def Direction.admits (self other : Direction) : Bool :=
  self = .both || other = .both || self = other

@[simp] theorem Direction.both_admits (d : Direction) : Direction.both.admits d = true := rfl

@[simp] theorem Direction.admits_both (d : Direction) : d.admits .both = true := by
  cases d <;> rfl

end Medius.Types
