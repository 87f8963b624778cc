import Medius.Protocol.Command
import Medius.Types.Reply

/-! The options a caller sets, and what each puts on the wire. -/

namespace Medius.Device

open Protocol Medius.Types

/-- A length of time, in nanoseconds. -/
abbrev Duration := Nat

def millis (ms : UInt16) : Duration := ms.toNat * 1000000

abbrev nameMax : Nat := 32

/-- Off is 0; a window that is on is at least a millisecond and saturates. -/
def rideWindowMs : Option Duration → UInt16
  | none => 0
  | some d => UInt16.ofNat (max (min (d / 1000000) 65535) 1)

def emitPaceWire : EmitPace → UInt8 × UInt16
  | .learned => (0, 0)
  | .interval => (1, 0)
  | .fixed hz => (2, hz)

/-- An option call. -/
inductive Setting
  | imperfect (allow : Bool)
  | movementRiding (window : Option Duration)
  | emitPace (pace : EmitPace) (forceHz : Option UInt16)
  | name (text : Utf8.Text)
  | bearing (window : Option Duration) (mode : BearingMode)
  | render (mode : RenderMode) (full : Bool)
  | spread (percent : UInt16)

def setImperfect (allow : Bool) : List UInt8 := imperfectPayload allow

def setMovementRiding (window : Option Duration) : List UInt8 :=
  moveRidePayload (rideWindowMs window)

def setEmitPace (pace : EmitPace) (forceHz : Option UInt16) : List UInt8 :=
  emitPacePayload (emitPaceWire pace).1 (emitPaceWire pace).2 (forceHz.getD 0)

def setName (name : Utf8.Text) : List UInt8 := namePayload name.bytes

def setBearing (window : Option Duration) (mode : BearingMode) : List UInt8 :=
  bearingPayload (rideWindowMs window) mode.asU8

def setRender (mode : RenderMode) (full : Bool) : List UInt8 := renderPayload mode.toWire full

def setSpread (percent : UInt16) : List UInt8 := spreadPayload percent

/-- The payload of the `OPTION` frame a call sends. -/
def Setting.payload : Setting → List UInt8
  | .imperfect allow => setImperfect allow
  | .movementRiding window => setMovementRiding window
  | .emitPace pace forceHz => setEmitPace pace forceHz
  | .name text => setName text
  | .bearing window mode => setBearing window mode
  | .render mode full => setRender mode full
  | .spread percent => setSpread percent

@[simp] theorem rideWindowMs_none : rideWindowMs none = 0 := rfl

/-- A window that is on never reads as off. -/
theorem rideWindowMs_some_ne (d : Duration) : rideWindowMs (some d) ≠ 0 := by
  intro h
  have h := congrArg UInt16.toNat h
  simp only [rideWindowMs, UInt16.toNat_ofNat'] at h
  change _ = 0 at h
  omega

/-- Whole milliseconds come back as they were. -/
@[simp] theorem rideWindowMs_millis {ms : UInt16} (h : ms ≠ 0) :
    rideWindowMs (some (millis ms)) = ms := by
  have hlt : ms.toNat < 65536 := ms.toNat_lt
  have hpos : ms.toNat ≠ 0 := fun h' => h (UInt16.toNat_inj.mp h')
  apply UInt16.toNat_inj.mp
  simp only [rideWindowMs, millis, UInt16.toNat_ofNat',
    Nat.mul_div_cancel _ (show 0 < 1000000 by decide)]
  omega

end Medius.Device
