import Medius.Protocol.Word
import Medius.Types.Catch
import Medius.Types.Usage

/-! What a subscription hears, and the input edges decoded from it. -/

namespace Medius.Types

open Protocol

inductive ClockDomain
  | hostChip | deviceChip
  deriving DecidableEq

def ClockDomain.fromU8 (v : UInt8) : ClockDomain := if v = 0 then .hostChip else .deviceChip

def Class.toCatch : Class → CatchClass
  | .button => .button
  | .key => .key
  | .media => .media

def Direction.ofDelta (delta : Int16) : Direction :=
  if 0 < delta then .positive else if delta < 0 then .negative else .both

structure MotionEvent where
  tsUs : UInt32
  clock : ClockDomain
  dx : Int16
  dy : Int16
  dz : Int16
  pan : Int16
  deriving DecidableEq

namespace MotionEvent

def fromPayload : List UInt8 → Option MotionEvent
  | t₀ :: t₁ :: t₂ :: t₃ :: clk :: xl :: xh :: yl :: yh :: zl :: zh :: pl :: ph :: _ => some {
      tsUs := fromLeBytes32 t₀ t₁ t₂ t₃
      clock := .fromU8 clk
      dx := (fromLeBytes xl xh).toInt16
      dy := (fromLeBytes yl yh).toInt16
      dz := (fromLeBytes zl zh).toInt16
      pan := (fromLeBytes pl ph).toInt16 }
  | _ => none

def allAxes (m : MotionEvent) : List (Axis × Int16) :=
  [(.x, m.dx), (.y, m.dy), (.wheel, m.dz), (.pan, m.pan)]

/-- The axes the report moved. -/
def axes (m : MotionEvent) : List (Axis × Int16) := m.allAxes.filter fun a => a.2 ≠ 0

end MotionEvent

/-- Everything held in the class. -/
structure UsageSnapshot where
  tsUs : UInt32
  clock : ClockDomain
  class_ : Class
  direction : Direction
  usages : List Usage
  deriving DecidableEq

def UsageSnapshot.fromPayload : List UInt8 → Option UsageSnapshot
  | t₀ :: t₁ :: t₂ :: t₃ :: clk :: cls :: dir :: rest => return {
      tsUs := fromLeBytes32 t₀ t₁ t₂ t₃
      clock := .fromU8 clk
      class_ := ← Class.fromU8 cls
      direction := ← Direction.fromU8 dir
      usages := ← Usage.decodeList rest }
  | _ => none

structure TrafficEvent where
  tsUs : UInt32
  clock : ClockDomain
  class_ : CatchClass
  id : UInt16
  direction : Direction
  flags : UInt8
  trueLen : UInt16
  bytes : List UInt8
  deriving DecidableEq

def TrafficEvent.fromPayload : List UInt8 → Option TrafficEvent
  | t₀ :: t₁ :: t₂ :: t₃ :: clk :: cls :: il :: ih :: dir :: flags :: ll :: lh :: bytes => return {
      tsUs := fromLeBytes32 t₀ t₁ t₂ t₃
      clock := .fromU8 clk
      class_ := ← CatchClass.fromU8 cls
      id := fromLeBytes il ih
      direction := ← Direction.fromU8 dir
      flags
      trueLen := fromLeBytes ll lh
      bytes }
  | _ => none

inductive CatchEvent
  | motion (m : MotionEvent)
  | usages (u : UsageSnapshot)
  | traffic (t : TrafficEvent)
  deriving DecidableEq

inductive Input
  | press (u : Usage)
  | release (u : Usage)
  | motion (dx dy dz pan : Int16)
  deriving DecidableEq

structure InputEvent where
  tsUs : UInt32
  clock : ClockDomain
  input : Input
  deriving DecidableEq

end Medius.Types
