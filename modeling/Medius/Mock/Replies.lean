import Medius.Device.Settings
import Medius.Mock.LocksReply
import Medius.Mock.PatchStore
import Medius.Mock.RewriteTable
import Medius.Mock.TransformTable
import Medius.Mock.Update
import Medius.Types.Table

/-! The replies to a query, byte for byte as the box packs them. -/

namespace Medius.Mock

open Protocol Device Medius.Types

abbrev deviceInfoProductMax : Nat := 127
abbrev catchMaxn : Nat := 32

/-- One flag of a byte. -/
def flag (on : Bool) (bit : UInt8) : UInt8 := if on then bit else 0

/-- A longer name reads back cut. -/
def versionPayload (v : Version) : List UInt8 :=
  qVersion :: v.protoVer :: v.fwMajor :: v.fwMinor :: v.fwPatch :: v.mac ++ v.name.bytes.take nameMax

def healthPayload (h : Health) : List UInt8 := qHealth :: toLeBytes h.toFlags

def deviceKindByte : DeviceKind → UInt8
  | .unknown => 0
  | .keyboard => 1
  | .mouse => 2

def deviceInfoPayload (m : DeviceInfo) : List UInt8 :=
  qDeviceInfo :: toLeBytes m.vid ++ toLeBytes m.pid ++ toLeBytes m.bcdDevice ++
    toLeBytes m.bcdUsb ++ (flag m.hasSerial diHasSerial ||| flag m.hasBos diHasBos) ::
    deviceKindByte m.kind :: m.product.bytes.take deviceInfoProductMax

def capsPayload (c : Reply.Caps) : List UInt8 :=
  let axis := flag c.mouse.hasX capX ||| flag c.mouse.hasY capY ||| flag c.mouse.hasWheel capWheel
    ||| flag c.mouse.pan capPan ||| flag c.mouse.hasReportId capReportId
  let kf := flag c.keyboard.nkro kbcNkro ||| flag c.keyboard.hasConsumer kbcConsumer
    ||| flag c.keyboard.hasSystem kbcSystem ||| flag c.keyboard.hasReportId kbcReportId
  let cd := flag c.mouseChangeDriven capsCdMouse ||| flag c.kbdChangeDriven capsCdKbd
  [qCaps, c.mouse.nButtons, axis, c.mouse.nHid, c.keyboard.nKeys, kf, cd]

/-- The change-driven flag is never set. -/
def ratePayload (r : Rate) : List UInt8 :=
  qRate :: toLeBytes r.nativePeriodUs ++ toLeBytes r.pollPeriodUs ++
    [flag r.confident Protocol.rateConfident]

def statsPayload (s : Stats) : List UInt8 :=
  qStats :: toLeBytes32 s.injectEmits ++ toLeBytes s.txDrops ++ toLeBytes s.txMerges ++
    s.txMaxdepth :: s.txWedges :: toLeBytes s.wakeups ++ toLeBytes s.resetCount ++
    toLeBytes s.configCount ++ toLeBytes32 s.linkRxDrops ++ toLeBytes32 s.hostRxDrops ++
    toLeBytes32 s.relayDrops ++ toLeBytes s.session

/-- `0xFFFF` is no estimate, which a zero-age one must not read as. -/
def clockBytes (c : ClockEstimate) : List UInt8 :=
  toLeBytes32 c.offsetUs.toUInt32 ++ toLeBytes32 (c.ratePpb.getD clkRateNone).toUInt32 ++
    toLeBytes c.delayUs ++ toLeBytes (c.age.elim 0xFFFF fun ms => min ms 0xFFFE)

def catchEntryBytes (e : CatchEntry) : List UInt8 :=
  e.filter.wire.1 :: toLeBytes e.filter.wire.2 ++ e.filter.direction.asU8 ::
    e.filter.capture.asU8 :: toLeBytes e.dropped

def catchRespPayload (c : CatchState) : List UInt8 :=
  let entries := c.entries.take catchMaxn
  qCatch :: c.tableFull.toUInt8 :: toLeBytes32 c.dropped ++ clockBytes c.clock ++
    UInt8.ofNat entries.length :: entries.flatMap catchEntryBytes

def optionsImperfectPayload (i : ImperfectStatus) : List UInt8 :=
  [qOptions, optImperfect, i.allowed.toUInt8, i.overCapacity.toUInt8, i.cloneImperfect.toUInt8]

def optionsMoveRidePayload (ms : UInt16) : List UInt8 := qOptions :: optMoveRide :: toLeBytes ms

def optionsBearingPayload (b : Bearing) : List UInt8 :=
  qOptions :: optBearing :: toLeBytes (rideWindowMs (b.window.map millis)) ++ [b.mode.asU8]

/-- The mode byte, the rate asked for, and the rate it resolves to in whole milliseconds. -/
def resolvePace : EmitPace → UInt8 × UInt16 × UInt16
  | .learned => (0, 0, 0)
  | .interval => (1, 0, 0)
  | .fixed h =>
    let hz := if h = 0 then 1000 else min h 1000
    let n := max ((1000000 / hz.toNat + 500) / 1000) 1
    (2, hz, UInt16.ofNat (1000 / n))

/-- `while p * 2 <= n { p *= 2 }`, for an `n` of so many bits. -/
def powerDown (n : Nat) : Nat → Nat → Nat
  | 0, p => p
  | bits + 1, p => if p * 2 ≤ n then powerDown n bits (p * 2) else p

/-- The interval a forced rate is advertised with: a host rounds a full-speed one down to a power
of two. -/
def forcedInterval (hz : UInt16) : Nat := powerDown (min ((1000 + hz.toNat / 2) / hz.toNat) 128) 7 1

def optionsEmitPayload (pace : EmitPace) (render : RenderMode) (renderReady : Bool)
    (forceHz : Option UInt16) (nativeHz : UInt16) (allowed : Bool) : List UInt8 :=
  let (mode, fixedHz, resolved) := resolvePace pace
  let resolved := if render ≠ .off ∧ renderReady ∧ resolved = 0 then 1000 else resolved
  let (advertised, active) := match forceHz.filter fun hz => hz ≠ 0 && allowed with
    | none => (nativeHz, false)
    | some hz => (UInt16.ofNat (1000 / forcedInterval hz), true)
  qOptions :: optEmit :: mode :: toLeBytes fixedHz ++ toLeBytes resolved ++
    toLeBytes (forceHz.getD 0) ++ toLeBytes advertised ++ [active.toUInt8]

def optionsRenderPayload (mode : RenderMode) (full ready : Bool) : List UInt8 :=
  [qOptions, optRender, mode.toWire, full.toUInt8, ready.toUInt8]

/-- 0 while no period is learned or the option is off. -/
def spreadSpan (percent : UInt16) (learnedUs : UInt32) : UInt32 :=
  if percent = 0 ∨ learnedUs = 0 then 0
  else UInt32.ofNat (learnedUs.toNat * percent.toNat / 100)

def optionsSpreadPayload (percent : UInt16) (learnedUs : UInt32) : List UInt8 :=
  qOptions :: optSpread :: toLeBytes percent ++ toLeBytes32 (spreadSpan percent learnedUs)

/-- Image state 1 is pending verify, 2 valid. -/
def firmwarePayload (dev : Version) (update : UpdateState) (pending : Bool) : List UInt8 :=
  qFirmware :: dev.fwMajor :: dev.fwMinor :: dev.fwPatch :: 0 :: (if pending then 1 else 2) ::
    1 :: dev.fwMajor :: dev.fwMinor :: dev.fwPatch :: 0 :: 2 ::
    toLeBytes32 (UInt32.ofNat mockSlotSize) ++
    [update.device.staged.toUInt8 ||| update.host.staged.toUInt8 <<< 1]

def transformBytes (t : MockTransform) : List UInt8 :=
  t.op :: t.sclass :: toLeBytes t.sid ++ t.dclass :: toLeBytes t.did

def transformsRespPayload (t : TransformTable) : List UInt8 :=
  qTransforms :: flag t.full tfFFull :: UInt8.ofNat t.transforms.length ::
    t.transforms.flatMap transformBytes

def rewriteBytes (r : MockRewrite) : List UInt8 :=
  r.class_ :: toLeBytes r.id ++ r.dir :: r.action :: UInt8.ofNat r.matchBytes.length ::
    toLeBytes r.offset ++ toLeBytes (UInt16.ofNat r.payload.length) ++ toLeBytes r.hits

def rewriteRespPayload (t : RewriteTable) : List UInt8 :=
  qRewrite :: flag t.full 0x01 :: t.gen :: UInt8.ofNat t.rewrites.length ::
    t.rewrites.flatMap rewriteBytes

def patchBytes (q : MockPatch) : List UInt8 :=
  q.section_ :: q.cfg :: q.index :: toLeBytes q.offset ++ toLeBytes (UInt16.ofNat q.bytes.length)

/-- The clone serves a patched set; the stored set is not the one it serves. -/
def patchesRespPayload (patches presented : List MockPatch) (refused full : Bool) : List UInt8 :=
  let flags := flag (!presented.isEmpty) 0x01 ||| flag (patches ≠ presented) 0x02
    ||| flag refused 0x04 ||| flag full 0x08
  qPatches :: flags :: UInt8.ofNat patches.length :: patches.flatMap patchBytes

end Medius.Mock
