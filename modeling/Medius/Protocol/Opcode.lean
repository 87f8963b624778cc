import Mathlib

/-! The wire constants the modelled functions read, under the source's values. -/

namespace Medius.Protocol

abbrev sof : UInt8 := 0xA5
abbrev maxPayload : Nat := 512
abbrev protoVer : UInt8 := 9

abbrev rstFNvs : UInt8 := 0x01

abbrev optImperfect : UInt8 := 0
abbrev optMoveRide : UInt8 := 1
abbrev optEmit : UInt8 := 2
abbrev optName : UInt8 := 3
abbrev optBearing : UInt8 := 4
abbrev optRender : UInt8 := 5
abbrev optSpread : UInt8 := 6

abbrev qVersion : UInt8 := 0
abbrev qHealth : UInt8 := 1
abbrev qDeviceInfo : UInt8 := 2
abbrev qCaps : UInt8 := 3
abbrev qRate : UInt8 := 4
abbrev qStats : UInt8 := 5
abbrev qLocks : UInt8 := 6
abbrev qCatch : UInt8 := 7
abbrev qOptions : UInt8 := 9
abbrev qClip : UInt8 := 10
abbrev qFirmware : UInt8 := 11
abbrev qRewrite : UInt8 := 12
abbrev qRewriteEntry : UInt8 := 13
abbrev qPatches : UInt8 := 14
abbrev qPatchEntry : UInt8 := 15
abbrev qTransforms : UInt8 := 16

abbrev hLinkUp : UInt8 := 0x01
abbrev hMouseAtt : UInt8 := 0x02
abbrev hCloneCfg : UInt8 := 0x04
abbrev hInjectOn : UInt8 := 0x08
abbrev hRateConfident : UInt8 := 0x10
abbrev hLockOn : UInt8 := 0x20
abbrev hCatchOn : UInt8 := 0x40
abbrev hKbdAtt : UInt8 := 0x80
abbrev hRewriteOn : UInt16 := 0x0100
abbrev hPatchOn : UInt16 := 0x0200
abbrev hTransformOn : UInt16 := 0x0400

abbrev kbcNkro : UInt8 := 0x01
abbrev kbcConsumer : UInt8 := 0x02
abbrev kbcSystem : UInt8 := 0x04
abbrev kbcReportId : UInt8 := 0x08
abbrev capsCdMouse : UInt8 := 0x01
abbrev capsCdKbd : UInt8 := 0x02
abbrev diHasSerial : UInt8 := 0x01
abbrev diHasBos : UInt8 := 0x02
abbrev capX : UInt8 := 0x01
abbrev capY : UInt8 := 0x02
abbrev capWheel : UInt8 := 0x04
abbrev capReportId : UInt8 := 0x08
abbrev capPan : UInt8 := 0x10
abbrev rateConfident : UInt8 := 0x01
abbrev rateChangeDriven : UInt8 := 0x02
abbrev clkRateNone : Int32 := Int32.minValue
abbrev tfFFull : UInt8 := 0x01

abbrev otaOpBegin : UInt8 := 0
abbrev otaOpData : UInt8 := 1
abbrev otaOpEnd : UInt8 := 2
abbrev otaOpAbort : UInt8 := 3
abbrev otaOpActivate : UInt8 := 4
abbrev otaChunk : Nat := 504
abbrev otaCredit : Nat := 16

abbrev clipOpStart : UInt8 := 0
abbrev clipOpStop : UInt8 := 1
abbrev clipOpPause : UInt8 := 2
abbrev clipOpResume : UInt8 := 3
abbrev clipOpRestart : UInt8 := 4
abbrev clipOpToggle : UInt8 := 5
abbrev clipOpClear : UInt8 := 6
abbrev clipSetAutolock : UInt8 := 0
abbrev clipSetLoop : UInt8 := 1
abbrev clipSetRetain : UInt8 := 2
abbrev clipSetRide : UInt8 := 3
abbrev clipTrigMax : Nat := 8
abbrev clipTrigFPresent : UInt8 := 0x01
abbrev clipTrigFConsume : UInt8 := 0x02
abbrev clipTrigFRun : UInt8 := 0x04
abbrev clipPktTrigMax : Nat := 8
abbrev clipPktMatchPool : Nat := 112
abbrev clipPktTrigEntry : Nat := 10
abbrev clipCfgFLoop : UInt8 := 0x01
abbrev clipCfgFRetain : UInt8 := 0x02
abbrev clipCfgFFinalized : UInt8 := 0x04
abbrev clipCfgFRide : UInt8 := 0x08
abbrev respClipHdr : Nat := 31
abbrev clipCondAnyClass : UInt8 := 0xFF
abbrev clipCondAnyId : UInt16 := 0xFFFF

abbrev clipTagGap : UInt8 := 0x00
abbrev clipFXy : UInt8 := 0x01
abbrev clipFWheel : UInt8 := 0x02
abbrev clipFEdges : UInt8 := 0x04
abbrev clipFPan : UInt8 := 0x08
abbrev clipFRaw : UInt8 := 0x10
abbrev clipFXfer : UInt8 := 0x20
abbrev clipLockAim : UInt8 := 0x01
abbrev clipLockWheel : UInt8 := 0x02
abbrev clipLockButtons : UInt8 := 0x04
abbrev clipLockKeys : UInt8 := 0x08
abbrev clipLockMedia : UInt8 := 0x10

abbrev btnCount : UInt8 := 5
abbrev maxButtons : UInt8 := 16

abbrev actSoftrel : UInt8 := 0
abbrev actPress : UInt8 := 1
abbrev actForcerel : UInt8 := 2

abbrev catchClsBtn : UInt8 := 0
abbrev catchClsKey : UInt8 := 1
abbrev catchClsMedia : UInt8 := 2
abbrev catchClsAxis : UInt8 := 3
abbrev catchClsHidIn : UInt8 := 4
abbrev catchClsHidOut : UInt8 := 5
abbrev catchClsVendIntr : UInt8 := 6
abbrev catchClsVendBulk : UInt8 := 7
abbrev catchClsControl : UInt8 := 8
abbrev catchClsEmit : UInt8 := 9
abbrev catchClsBus : UInt8 := 10
abbrev catchClsClipXfer : UInt8 := 11
abbrev catchClsAny : UInt8 := 0xFF
abbrev catchIdAny : UInt16 := 0xFFFF
abbrev catchMaxEntries : Nat := 32

abbrev rwPass : UInt8 := 0
abbrev rwDrop : UInt8 := 1
abbrev rwPatch : UInt8 := 2
abbrev rwReplace : UInt8 := 3
abbrev rwAnswer : UInt8 := 4
abbrev rwStall : UInt8 := 5
abbrev rwNak : UInt8 := 6
abbrev rwReplyPatch : UInt8 := 7
abbrev rwReplyReplace : UInt8 := 8

abbrev rewriteMaxEntries : Nat := 32
abbrev rewritePayloadPool : Nat := 2048
abbrev pktMatchMax : Nat := 16
abbrev rewriteMatchMax : Nat := pktMatchMax

abbrev patchSecDevice : UInt8 := 0
abbrev patchSecConfig : UInt8 := 1
abbrev patchSecReport : UInt8 := 2
abbrev patchSecString : UInt8 := 3
abbrev patchSecBos : UInt8 := 4
abbrev patchApply : UInt8 := 0xFE
abbrev patchClear : UInt8 := 0xFF
abbrev patchMaxEntries : Nat := 16

abbrev tfRemap : UInt8 := 0
abbrev tfSwap : UInt8 := 1
abbrev tfOpCount : UInt8 := 2
abbrev transformMaxEntries : Nat := 32

abbrev lockClsBtn : UInt8 := 0
abbrev lockClsKey : UInt8 := 1
abbrev lockClsMedia : UInt8 := 2
abbrev lockClsAxis : UInt8 := 3
abbrev lockIdAll : UInt16 := 0xFFFF
abbrev lockAxisPan : UInt16 := 3
abbrev lockDirBoth : UInt8 := 0
abbrev lockDirPos : UInt8 := 1
abbrev lockDirNeg : UInt8 := 2
abbrev lockDirWith : UInt8 := 3
abbrev lockDirAgainst : UInt8 := 4
abbrev lockScaleBlock : Int16 := 0
abbrev lockScalePass : Int16 := 100
abbrev lockScaleMax : Int16 := 255
abbrev lockScaleMin : Int16 := -lockScaleMax

/-- A frame opcode, by its `TYPE` byte. -/
inductive FrameType
  | move | inject | reset | query | resp | rebootDl | log | led | lock | catch_
  | motionEvent | usageEvent | trafficEvent | option | clipAppend | clipCtrl | clipSet
  | clipTrigger | update | updateResp | raw | transfer | transferResp | rewrite | patch
  | transform
  deriving DecidableEq

def FrameType.asU8 : FrameType → UInt8
  | .move => 0x01
  | .inject => 0x03
  | .reset => 0x04
  | .query => 0x05
  | .resp => 0x06
  | .rebootDl => 0x07
  | .log => 0x08
  | .led => 0x09
  | .lock => 0x0A
  | .catch_ => 0x0B
  | .motionEvent => 0x0C
  | .usageEvent => 0x0F
  | .trafficEvent => 0x16
  | .option => 0x11
  | .clipAppend => 0x12
  | .clipCtrl => 0x13
  | .clipSet => 0x14
  | .clipTrigger => 0x15
  | .update => 0x17
  | .updateResp => 0x18
  | .raw => 0x19
  | .transfer => 0x1A
  | .transferResp => 0x1B
  | .rewrite => 0x1C
  | .patch => 0x1D
  | .transform => 0x1E

structure UnknownFrameType where
  value : UInt8
  deriving DecidableEq

def FrameType.tryFrom (value : UInt8) : Except UnknownFrameType FrameType :=
  match value with
  | 0x01 => .ok .move
  | 0x03 => .ok .inject
  | 0x04 => .ok .reset
  | 0x05 => .ok .query
  | 0x06 => .ok .resp
  | 0x07 => .ok .rebootDl
  | 0x08 => .ok .log
  | 0x09 => .ok .led
  | 0x0A => .ok .lock
  | 0x0B => .ok .catch_
  | 0x0C => .ok .motionEvent
  | 0x0F => .ok .usageEvent
  | 0x16 => .ok .trafficEvent
  | 0x11 => .ok .option
  | 0x12 => .ok .clipAppend
  | 0x13 => .ok .clipCtrl
  | 0x14 => .ok .clipSet
  | 0x15 => .ok .clipTrigger
  | 0x17 => .ok .update
  | 0x18 => .ok .updateResp
  | 0x19 => .ok .raw
  | 0x1A => .ok .transfer
  | 0x1B => .ok .transferResp
  | 0x1C => .ok .rewrite
  | 0x1D => .ok .patch
  | 0x1E => .ok .transform
  | other => .error ⟨other⟩

@[simp] theorem FrameType.tryFrom_asU8 (ty : FrameType) : tryFrom ty.asU8 = .ok ty := by
  cases ty <;> rfl

/-- Only an opcode's own byte is read as it. -/
theorem FrameType.asU8_of_tryFrom {value : UInt8} {ty : FrameType} (h : tryFrom value = .ok ty) :
    ty.asU8 = value := by
  unfold tryFrom at h
  split at h <;> cases h <;> rfl

/-- Two bytes, low first. -/
def toLeBytes (v : UInt16) : List UInt8 := [UInt8.ofNat v.toNat, UInt8.ofNat (v.toNat / 256)]

def fromLeBytes (lo hi : UInt8) : UInt16 := UInt16.ofNat (lo.toNat + 256 * hi.toNat)

@[simp] theorem length_toLeBytes (v : UInt16) : (toLeBytes v).length = 2 := rfl

@[simp] theorem fromLeBytes_toLeBytes (v : UInt16) :
    fromLeBytes (UInt8.ofNat v.toNat) (UInt8.ofNat (v.toNat / 256)) = v := by
  have hv : v.toNat < 65536 := v.toNat_lt
  apply UInt16.toNat_inj.mp
  simp only [fromLeBytes, UInt8.toNat_ofNat', UInt16.toNat_ofNat']
  omega

theorem toLeBytes_injective {v w : UInt16} (h : toLeBytes v = toLeBytes w) : v = w := by
  simp only [toLeBytes, List.cons.injEq, and_true] at h
  rw [← fromLeBytes_toLeBytes v, h.1, h.2, fromLeBytes_toLeBytes]

end Medius.Protocol
