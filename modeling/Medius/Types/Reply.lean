import Medius.Lib.Checked
import Medius.Lib.Utf8
import Medius.Protocol.Word
import Medius.Types.Lock

/-! Replies of one fixed layout, decoded with the bytes indexed as the source does. -/

namespace Medius.Types

open Protocol Checked
open Checked.Reading (refused)

def le16 (p : List UInt8) (i : Nat) : Reading UInt16 :=
  return fromLeBytes (← index p i) (← index p (i + 1))

def le32 (p : List UInt8) (i : Nat) : Reading UInt32 :=
  return fromLeBytes32 (← index p i) (← index p (i + 1)) (← index p (i + 2)) (← index p (i + 3))

@[simp] theorem inRange_le16 {p : List UInt8} {i : Nat} (h : i + 1 < p.length) : (le16 p i).InRange :=
  (inRange_index (by omega)).bind fun _ _ => (inRange_index h).bind fun _ _ => nofun

@[simp] theorem inRange_le32 {p : List UInt8} {i : Nat} (h : i + 3 < p.length) : (le32 p i).InRange :=
  (inRange_index (by omega)).bind fun _ _ => (inRange_index (by omega)).bind fun _ _ =>
    (inRange_index (by omega)).bind fun _ _ => (inRange_index h).bind fun _ _ => nofun

structure Version where
  protoVer : UInt8
  fwMajor : UInt8
  fwMinor : UInt8
  fwPatch : UInt8
  mac : List UInt8
  name : Utf8.Text
  deriving DecidableEq

def Version.fromPayload (p : List UInt8) : Reading Version := do
  if p.length < 11 then refused
  else
    let mac ← slice p 5 11
    return {
      protoVer := ← index p 1
      fwMajor := ← index p 2
      fwMinor := ← index p 3
      fwPatch := ← index p 4
      mac := mac
      name := .lossy (← sliceFrom p 11) }

structure Health where
  linkUp : Bool
  mouseAttached : Bool
  cloneConfigured : Bool
  injectionActive : Bool
  rateConfident : Bool
  lockOn : Bool
  catchOn : Bool
  kbdAttached : Bool
  rewriteOn : Bool
  patchOn : Bool
  transformOn : Bool
  deriving DecidableEq

def Health.fromFlags (flags : UInt16) : Health :=
  let lo := flags.toUInt8
  { linkUp := lo &&& hLinkUp ≠ 0
    mouseAttached := lo &&& hMouseAtt ≠ 0
    cloneConfigured := lo &&& hCloneCfg ≠ 0
    injectionActive := lo &&& hInjectOn ≠ 0
    rateConfident := lo &&& hRateConfident ≠ 0
    lockOn := lo &&& hLockOn ≠ 0
    catchOn := lo &&& hCatchOn ≠ 0
    kbdAttached := lo &&& hKbdAtt ≠ 0
    rewriteOn := flags &&& hRewriteOn ≠ 0
    patchOn := flags &&& hPatchOn ≠ 0
    transformOn := flags &&& hTransformOn ≠ 0 }

def Health.toFlags (h : Health) : UInt16 :=
  (if h.linkUp then hLinkUp.toUInt16 else 0) ||| (if h.mouseAttached then hMouseAtt.toUInt16 else 0)
    ||| (if h.cloneConfigured then hCloneCfg.toUInt16 else 0)
    ||| (if h.injectionActive then hInjectOn.toUInt16 else 0)
    ||| (if h.rateConfident then hRateConfident.toUInt16 else 0)
    ||| (if h.lockOn then hLockOn.toUInt16 else 0)
    ||| (if h.catchOn then hCatchOn.toUInt16 else 0)
    ||| (if h.kbdAttached then hKbdAtt.toUInt16 else 0)
    ||| (if h.rewriteOn then hRewriteOn else 0)
    ||| (if h.patchOn then hPatchOn else 0)
    ||| (if h.transformOn then hTransformOn else 0)

/-- A one-byte payload decodes with the high byte clear. -/
def Health.fromPayload (p : List UInt8) : Reading Health := do
  let flags ←
    match slice? p 1 3 with
    | some w => le16 w 0
    | none => pure (← get p 1).toUInt16
  return .fromFlags flags

inductive DeviceKind
  | unknown | keyboard | mouse
  deriving DecidableEq

def DeviceKind.fromU8 (v : UInt8) : DeviceKind :=
  if v = 1 then .keyboard else if v = 2 then .mouse else .unknown

structure DeviceInfo where
  vid : UInt16
  pid : UInt16
  bcdDevice : UInt16
  bcdUsb : UInt16
  hasSerial : Bool
  hasBos : Bool
  kind : DeviceKind
  product : Utf8.Text
  deriving DecidableEq

def DeviceInfo.fromPayload (p : List UInt8) : Reading DeviceInfo := do
  if p.length < 11 then refused
  else
    let flags ← index p 9
    return {
      vid := ← le16 p 1
      pid := ← le16 p 3
      bcdDevice := ← le16 p 5
      bcdUsb := ← le16 p 7
      hasSerial := flags &&& diHasSerial ≠ 0
      hasBos := flags &&& diHasBos ≠ 0
      kind := .fromU8 (← index p 10)
      product := .lossy (← sliceFrom p 11) }

structure MouseCaps where
  nButtons : UInt8
  hasX : Bool
  hasY : Bool
  hasWheel : Bool
  pan : Bool
  hasReportId : Bool
  nHid : UInt8
  deriving DecidableEq

structure KbdCaps where
  nKeys : UInt8
  nkro : Bool
  hasConsumer : Bool
  hasSystem : Bool
  hasReportId : Bool
  deriving DecidableEq

/-- The whole reply, of which `Mock.Caps` is the part that says what fields the clone has. -/
structure Reply.Caps where
  mouse : MouseCaps
  keyboard : KbdCaps
  mouseChangeDriven : Bool
  kbdChangeDriven : Bool
  deriving DecidableEq

def Reply.Caps.fromPayload (p : List UInt8) : Reading Reply.Caps := do
  if p.length < 7 then refused
  else
    let axis ← index p 2
    let kf ← index p 5
    let cd ← index p 6
    return {
      mouse :=
        { nButtons := ← index p 1
          hasX := axis &&& capX ≠ 0
          hasY := axis &&& capY ≠ 0
          hasWheel := axis &&& capWheel ≠ 0
          pan := axis &&& capPan ≠ 0
          hasReportId := axis &&& capReportId ≠ 0
          nHid := ← index p 3 }
      keyboard :=
        { nKeys := ← index p 4
          nkro := kf &&& kbcNkro ≠ 0
          hasConsumer := kf &&& kbcConsumer ≠ 0
          hasSystem := kf &&& kbcSystem ≠ 0
          hasReportId := kf &&& kbcReportId ≠ 0 }
      mouseChangeDriven := cd &&& capsCdMouse ≠ 0
      kbdChangeDriven := cd &&& capsCdKbd ≠ 0 }

structure Rate where
  nativePeriodUs : UInt16
  pollPeriodUs : UInt16
  confident : Bool
  changeDriven : Bool
  deriving DecidableEq

def Rate.fromPayload (p : List UInt8) : Reading Rate := do
  if p.length < 6 then refused
  else
    return {
      nativePeriodUs := ← le16 p 1
      pollPeriodUs := ← le16 p 3
      confident := (← index p 5) &&& Protocol.rateConfident ≠ 0
      changeDriven := (← index p 5) &&& rateChangeDriven ≠ 0 }

structure Stats where
  injectEmits : UInt32
  txDrops : UInt16
  txMerges : UInt16
  txMaxdepth : UInt8
  txWedges : UInt8
  wakeups : UInt16
  resetCount : UInt16
  configCount : UInt16
  linkRxDrops : UInt32
  hostRxDrops : UInt32
  relayDrops : UInt32
  session : UInt16
  deriving DecidableEq

def Stats.fromPayload (p : List UInt8) : Reading Stats := do
  if p.length < 31 then refused
  else
    return {
      injectEmits := ← le32 p 1
      txDrops := ← le16 p 5
      txMerges := ← le16 p 7
      txMaxdepth := ← index p 9
      txWedges := ← index p 10
      wakeups := ← le16 p 11
      resetCount := ← le16 p 13
      configCount := ← le16 p 15
      linkRxDrops := ← le32 p 17
      hostRxDrops := ← le32 p 21
      relayDrops := ← le32 p 25
      session := ← le16 p 29 }

structure ImperfectStatus where
  allowed : Bool
  overCapacity : Bool
  cloneImperfect : Bool
  deriving DecidableEq

def ImperfectStatus.fromPayload (p : List UInt8) : Reading ImperfectStatus := do
  if p.length < 5 then refused
  else
    return {
      allowed := (← index p 2) ≠ 0
      overCapacity := (← index p 3) ≠ 0
      cloneImperfect := (← index p 4) ≠ 0 }

/-- A window in milliseconds, where it is on. -/
def window (ms : UInt16) : Option UInt16 := if ms ≠ 0 then some ms else none

def movementRidingFromPayload (p : List UInt8) : Reading (Option UInt16) := do
  if p.length < 4 then refused else return window (← le16 p 2)

inductive EmitPace
  | learned | interval
  | fixed (hz : UInt16)
  deriving DecidableEq

structure EmitPaceStatus where
  mode : EmitPace
  resolvedHz : UInt16
  forceHz : Option UInt16
  advertisedHz : UInt16
  forceActive : Bool
  deriving DecidableEq

def EmitPaceStatus.fromPayload (p : List UInt8) : Reading EmitPaceStatus := do
  if p.length < 12 then refused
  else
    let fixedHz ← le16 p 3
    let resolvedHz ← le16 p 5
    let forceHz ← le16 p 7
    let advertisedHz ← le16 p 9
    let tag ← index p 2
    let mode ←
      if tag = 0 then pure EmitPace.learned
      else if tag = 1 then pure .interval
      else if tag = 2 then pure (.fixed fixedHz)
      else refused
    return {
      mode := mode
      resolvedHz := resolvedHz
      forceHz := if forceHz ≠ 0 then some forceHz else none
      advertisedHz := advertisedHz
      forceActive := (← index p 11) ≠ 0 }

inductive RenderMode
  | off | stock | despiked | unsmoothed
  deriving DecidableEq

def RenderMode.fromU8 (v : UInt8) : Option RenderMode :=
  if v = 0 then some .off
  else if v = 1 then some .stock
  else if v = 2 then some .despiked
  else if v = 3 then some .unsmoothed
  else none

def RenderMode.toWire : RenderMode → UInt8
  | .off => 0
  | .stock => 1
  | .despiked => 2
  | .unsmoothed => 3

@[simp] theorem RenderMode.fromU8_toWire (m : RenderMode) : fromU8 m.toWire = some m := by
  cases m <;> rfl

structure RenderStatus where
  mode : RenderMode
  full : Bool
  ready : Bool
  deriving DecidableEq

def RenderStatus.fromPayload (p : List UInt8) : Reading RenderStatus := do
  if p.length < 5 then refused
  else
    return {
      mode := ← Reading.ofOption (RenderMode.fromU8 (← index p 2))
      full := (← index p 3) ≠ 0
      ready := (← index p 4) ≠ 0 }

structure SpreadStatus where
  percent : UInt16
  spanUs : UInt32
  deriving DecidableEq

def SpreadStatus.fromPayload (p : List UInt8) : Reading SpreadStatus := do
  if p.length < 8 then refused
  else return { percent := ← le16 p 2, spanUs := ← le32 p 4 }

def BearingMode.fromU8 (v : UInt8) : Option BearingMode :=
  if v = 0 then some .perAxis else if v = 1 then some .vector else none

def BearingMode.asU8 : BearingMode → UInt8
  | .perAxis => 0
  | .vector => 1

@[simp] theorem BearingMode.fromU8_asU8 (m : BearingMode) : fromU8 m.asU8 = some m := by
  cases m <;> rfl

structure Bearing where
  window : Option UInt16
  mode : BearingMode
  deriving DecidableEq

def Bearing.fromPayload (p : List UInt8) : Reading Bearing := do
  if p.length < 5 then refused
  else
    let ms ← le16 p 2
    return {
      window := Types.window ms
      mode := ← Reading.ofOption (BearingMode.fromU8 (← index p 4)) }

inductive ImageState
  | new | pendingVerify | valid | invalid | aborted
  | unknown (v : UInt8)
  deriving DecidableEq

def ImageState.fromU8 (v : UInt8) : ImageState :=
  if v = 0 then .new
  else if v = 1 then .pendingVerify
  else if v = 2 then .valid
  else if v = 3 then .invalid
  else if v = 4 then .aborted
  else .unknown v

structure ChipFirmware where
  major : UInt8
  minor : UInt8
  patch : UInt8
  slot : UInt8
  state : ImageState
  deriving DecidableEq

structure FirmwareInfo where
  device : ChipFirmware
  host : Option ChipFirmware
  slotSize : UInt32
  deviceStaged : Bool
  hostStaged : Bool
  deriving DecidableEq

abbrev FirmwareInfo.payloadLen : Nat := 17

/-- One chip's five bytes. -/
def ChipFirmware.readAt (p : List UInt8) (i : Nat) : Reading ChipFirmware :=
  return {
    major := ← index p i
    minor := ← index p (i + 1)
    patch := ← index p (i + 2)
    slot := ← index p (i + 3)
    state := .fromU8 (← index p (i + 4)) }

def FirmwareInfo.fromPayload (p : List UInt8) : Reading FirmwareInfo := do
  if p.length < payloadLen then refused
  else if (← index p 0) ≠ qFirmware then refused
  else
    let hostPresent := (← index p 6) ≠ 0
    return {
      device := ← ChipFirmware.readAt p 1
      host := ← if hostPresent then some <$> ChipFirmware.readAt p 7 else pure none
      slotSize := ← le32 p 12
      deviceStaged := (← index p 16) &&& 0x01 ≠ 0
      hostStaged := (← index p 16) &&& 0x02 ≠ 0 }

end Medius.Types
