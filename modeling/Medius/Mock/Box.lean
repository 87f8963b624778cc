import Medius.Mock.ClipReport
import Medius.Mock.PacketRun
import Medius.Mock.Replies
import Medius.Mock.State
import Medius.Protocol.Frame
import Medius.Types.Box

/-! The whole box: what it holds, the frames it takes, what it replies, and what it does later
unprompted.  Times are microseconds on one clock. -/

namespace Medius.Mock

open Protocol Device Medius.Types

/-- How long a booted device chip takes to clone the attached device again. -/
abbrev bootCloneDelay : Nat := 100000

/-- A detached device that comes back inside it keeps the clone. -/
abbrev detachGrace : Nat := 250000

/-- The main loop's longest tick. -/
abbrev representDelayMax : Nat := 50000

/-- What a transform or a lock asks of `RESP(CAPS)`. -/
def fieldCaps (c : Reply.Caps) : Caps where
  hasX := c.mouse.hasX
  hasY := c.mouse.hasY
  hasWheel := c.mouse.hasWheel
  pan := c.mouse.pan
  nButtons := c.mouse.nButtons
  nKeys := c.keyboard.nKeys
  hasConsumer := c.keyboard.hasConsumer

structure Box where
  update : UpdateState
  updateDataSeq : UInt8
  version : Version
  mac_len : version.mac.length = 6
  health : Health
  deviceInfo : DeviceInfo
  caps : Reply.Caps
  rate : Rate
  stats : Stats
  table : LockTable
  locks : Option Locks
  catch_ : CatchState
  imperfect : ImperfectStatus
  moveRideMs : UInt16
  bearing : Bearing
  emitPace : EmitPace
  renderMode : RenderMode
  renderFull : Bool
  renderReady : Bool
  spreadPercent : UInt16
  spreadLearnedUs : UInt32
  emitForceHz : Option UInt16
  advertisedHz : UInt16
  clip : ClipStatus
  clipSettings : ClipSettings
  packetTriggers : PacketTriggers.Rows
  rewrites : RewriteTable
  patches : List MockPatch
  patchPresented : List MockPatch
  patchRefused : Bool
  patchFull : Bool
  transforms : TransformTable
  transferReply : UInt8 × List UInt8
  respond : Bool
  reboot : Nat × Nat
  firmwareUnanswered : Nat
  firmwarePending : Nat
  pcSeen : Bool
  sessionDirty : Bool
  cloneUp : Bool
  cloneUpAt : Option Nat
  graceUntil : Option Nat
  deviceBack : Bool
  representHeld : Bool
  representAt : Option Nat
  representDelay : Nat
  unsolicited : List DecodedFrame

namespace Box

/-- A five-button mouse is attached and cloned. -/
def default : Box where
  update := {}
  updateDataSeq := 0
  version := ⟨protoVer, 0, 0, 0, List.replicate 6 0, .empty⟩
  mac_len := rfl
  health := .fromFlags 0
  deviceInfo := .default
  caps :=
    { Reply.Caps.default with
      mouse := ⟨5, true, true, true, false, false, 1⟩ }
  rate := ⟨0, 0, false, false⟩
  stats := ⟨0, 0, 0, 0, 0, 0, 0, 0, 0, 0, 0, 0⟩
  table := .default
  locks := none
  catch_ := ⟨false, 0, ⟨0, some 0, 0, none⟩, []⟩
  imperfect := .default
  moveRideMs := 0
  bearing := .default
  emitPace := .learned
  renderMode := .despiked
  renderFull := false
  renderReady := false
  spreadPercent := 100
  spreadLearnedUs := 0
  emitForceHz := none
  advertisedHz := 0
  clip := .default
  clipSettings := .default
  packetTriggers := []
  rewrites := .default
  patches := []
  patchPresented := []
  patchRefused := false
  patchFull := false
  transforms := .default
  transferReply := (0x00, [])
  respond := true
  reboot := (0, 0)
  firmwareUnanswered := 0
  firmwarePending := 0
  pcSeen := true
  sessionDirty := false
  cloneUp := true
  cloneUpAt := none
  graceUntil := none
  deviceBack := false
  representHeld := false
  representAt := none
  representDelay := representDelayMax
  unsolicited := []

/-- The tables the session frames write. -/
def tables (b : Box) : State where
  table := b.table
  rewrites := b.rewrites
  transforms := b.transforms
  packetTriggers := b.packetTriggers
  imperfect := b.imperfect.allowed
  caps := fieldCaps b.caps
  cloneUp := b.cloneUp

/-- What the `PATCH` frames write. -/
def store (b : Box) : PatchStore where
  patches := b.patches
  presented := b.patchPresented
  refused := b.patchRefused
  full := b.patchFull
  representHeld := b.representHeld
  represented := 0

section Session

def countRelease (b : Box) : Box :=
  { b with
    stats := if b.sessionDirty then { b.stats with session := b.stats.session + 1 } else b.stats
    sessionDirty := false }

def clearClipConfig (b : Box) : Box :=
  { b with clipSettings := .default, packetTriggers := [] }

def releaseSession (b : Box) : Box :=
  { b with
    table := .default
    rewrites := .default
    transforms := .default
    clip := .default }.clearClipConfig

/-- Counted only when a command came since the detach. -/
def tearDown (b : Box) : Box := { b.countRelease.releaseSession with cloneUp := false }

def patchesToServe (b : Box) : List MockPatch := if b.imperfect.allowed then b.patches else []

/-- One more, up to the counter's end. -/
def bump (n : UInt16) : UInt16 := if n = 65535 then n else n + 1

/-- Inside a detach's grace the snapshot may be of a device that has gone: the request waits. -/
def presentPatches (b : Box) : Box :=
  if b.graceUntil.isSome then { b with representHeld := true }
  else if b.patchesToServe ≠ b.patchPresented then
    let b := { b with patchPresented := b.patchesToServe, patchRefused := false }
    let b := b.countRelease.releaseSession
    { b with stats :=
        { b.stats with
          resetCount := bump b.stats.resetCount, configCount := bump b.stats.configCount } }
  else b

/-- What is due by `now`: the clone after a boot, the end of a detach's grace, and a presentation
that waited. -/
def advance (b : Box) (now : Nat) : Box :=
  let b := if b.cloneUpAt.any (· ≤ now) then { b with cloneUpAt := none, cloneUp := true } else b
  let b :=
    if b.graceUntil.any (· ≤ now) then
      let held := b.representHeld
      let b := { b with graceUntil := none, representHeld := false }
      if b.deviceBack then if held then b.presentPatches else b else b.tearDown
    else b
  if b.representAt.any (· ≤ now) then { b with representAt := none }.presentPatches else b

end Session

def helloFrame (b : Box) : DecodedFrame := ⟨.resp, 0, versionPayload b.version⟩

/-- A device-chip boot: the session goes, what is stored stays, and the box says hello now and
before its next reply. -/
def restart (b : Box) (now : Nat) : Box :=
  let b := b.releaseSession
  { b with
    stats := { b.stats with resetCount := 0, configCount := 0, session := 0 }
    sessionDirty := false
    cloneUp := false
    cloneUpAt := some (now + bootCloneDelay)
    graceUntil := none
    representHeld := false
    representAt := none
    patchPresented := b.patchesToServe
    patchRefused := false
    patchFull := false
    pcSeen := false
    unsolicited := b.unsolicited ++ [b.helloFrame] }

/-- Everything stored goes back to the values a wiped box boots with. -/
def resetPersistent (b : Box) : Box :=
  { b with
    version := { b.version with name := .empty }
    mac_len := b.mac_len
    imperfect := { b.imperfect with allowed := ImperfectStatus.default.allowed }
    moveRideMs := 0
    bearing := .default
    emitPace := .learned
    emitForceHz := none
    renderMode := .despiked
    renderFull := false
    spreadPercent := 100
    patches := []
    patchPresented := []
    patchRefused := false
    patchFull := false }

section Frames

def applyLockFrame (b : Box) (p : List UInt8) : Box :=
  { b with table := b.table.applyLockFrame b.cloneUp b.caps.mouse.nButtons p }

def applyRewriteFrame (b : Box) (p : List UInt8) : Box :=
  { b with rewrites := b.rewrites.applyRewriteFrame b.imperfect.allowed p }

def applyTransformFrame (b : Box) (p : List UInt8) : Box :=
  { b with transforms := b.transforms.applyTransformFrame (fieldCaps b.caps) b.cloneUp p }

/-- The sentinel that drops every trigger, the input ones included. -/
def clearsTriggers : List UInt8 → Bool
  | class_ :: idLo :: idHi :: dir :: _ :: flags :: _ =>
    !PacketTriggers.isSurface class_ && class_ = clipCondAnyClass &&
      fromLeBytes idLo idHi = clipCondAnyId && dir = lockDirBoth && flags &&& clipTrigFPresent = 0
  | _ => false

def applyClipTriggerFrame (b : Box) (p : List UInt8) : Box :=
  { b with
    packetTriggers := PacketTriggers.applyClipTriggerFrame b.packetTriggers b.imperfect.allowed p
    clipSettings :=
      if clearsTriggers p then { b.clipSettings with triggers := [] } else b.clipSettings }

def clearPatches (b : Box) : Box :=
  { b with patches := [], patchRefused := false, patchFull := false }.presentPatches

def applyPatchFrame (b : Box) : List UInt8 → Box
  | [] => b
  | section_ :: rest =>
    if section_ = patchApply then if b.imperfect.allowed then b.presentPatches else b
    else if section_ = patchClear then b.clearPatches
    else
      match rest with
      | cfg :: index :: offLo :: offHi :: bytes =>
        if (PatchSection.fromU8 section_).isNone then b
        else
          let s := b.store.put ⟨section_, cfg, index, fromLeBytes offLo offHi, bytes⟩
          { b with patches := s.patches, patchFull := s.full }
      | _ => b

/-- Opting out drops the consuming packet triggers and empties the rewrite table, which counts as
a release where it drops something; either toggle has the clone presented again later. -/
def applyImperfect (b : Box) (now : Nat) (allow : Bool) : Box :=
  let changed := b.imperfect.allowed ≠ allow
  let b := { b with imperfect := { b.imperfect with allowed := allow } }
  let b :=
    if allow then b
    else
      let kept := PacketTriggers.dropConsuming b.packetTriggers
      let dropped := b.rewrites.rewrites ≠ [] ∨ kept.length ≠ b.packetTriggers.length
      { b with
        packetTriggers := kept
        rewrites := .default
        stats :=
          if changed ∧ dropped then { b.stats with session := b.stats.session + 1 } else b.stats }
  if changed then { b with representAt := some (now + b.representDelay) } else b

/-- An unknown mode discards the whole command. -/
def applyEmit (b : Box) (mode : UInt8) (hz force : UInt16) : Box :=
  let pace :=
    if mode = 0 then some EmitPace.learned
    else if mode = 1 then some .interval
    else if mode = 2 then some (.fixed hz)
    else none
  match pace with
  | some pace =>
    { b with emitPace := pace, emitForceHz := if force ≠ 0 then some force else none }
  | none => b

def applyRender (b : Box) (mode full : UInt8) : Box :=
  match RenderMode.fromU8 mode with
  | some m => if full ≤ 1 then { b with renderMode := m, renderFull := full ≠ 0 } else b
  | none => b

def applyBearing (b : Box) (ms : UInt16) (mode : UInt8) : Box :=
  match BearingMode.fromU8 mode with
  | some mode => { b with bearing := ⟨window ms, mode⟩ }
  | none => b

def applyOptionFrame (b : Box) (now : Nat) : List UInt8 → Box
  | [] => b
  | option :: rest =>
    if option = optImperfect then
      match rest with
      | allow :: _ => b.applyImperfect now (allow ≠ 0)
      | _ => b
    else if option = optMoveRide then
      match rest with
      | lo :: hi :: _ => { b with moveRideMs := fromLeBytes lo hi }
      | _ => b
    else if option = optEmit then
      match rest with
      | mode :: lo :: hi :: flo :: fhi :: _ =>
        b.applyEmit mode (fromLeBytes lo hi) (fromLeBytes flo fhi)
      | _ => b
    else if option = optRender then
      match rest with
      | mode :: full :: _ => b.applyRender mode full
      | _ => b
    else if option = optSpread then
      match rest with
      | lo :: hi :: _ => { b with spreadPercent := fromLeBytes lo hi }
      | _ => b
    else if option = optName then
      { b with version := { b.version with name := .lossy rest }, mac_len := b.mac_len }
    else if option = optBearing then
      match rest with
      | lo :: hi :: mode :: _ => b.applyBearing (fromLeBytes lo hi) mode
      | _ => b
    else b

/-- The ring takes an append once a clone is up. -/
def applyClipAppendFrame (b : Box) (p : List UInt8) : Box :=
  if b.cloneUp then
    { b with clip :=
        { b.clip with total := UInt32.ofNat (min (b.clip.total.toNat + p.length) (2 ^ 32 - 1)) } }
  else b

def applyClipCtrlFrame (b : Box) (p : List UInt8) : Box :=
  if p.head? = some clipOpClear then
    { b with clip := { b.clip with total := 0, played := 0, state := .idle } }
  else b

/-- The generation outlives the clear, and so does the patch store; with the store's flag what is
stored goes too and the box reboots. -/
def applyResetFrame (b : Box) (now : Nat) : List UInt8 → Box
  | [] => b
  | flags :: _ =>
    let b :=
      { b with
        table := .default
        rewrites := b.rewrites.clear
        transforms := .default }.clearClipConfig.countRelease
    if flags &&& rstFNvs ≠ 0 then b.resetPersistent.restart now else b

def applyRebootDlFrame (b : Box) (now : Nat) (p : List UInt8) : Box :=
  if p.head? = some RebootTarget.deviceRun.asU8 then b.restart now else b

def applyFrame (b : Box) (now : Nat) (ty : FrameType) (p : List UInt8) : Box :=
  match ty with
  | .lock => b.applyLockFrame p
  | .option => b.applyOptionFrame now p
  | .rewrite => b.applyRewriteFrame p
  | .patch => b.applyPatchFrame p
  | .transform => b.applyTransformFrame p
  | .clipTrigger => b.applyClipTriggerFrame p
  | .clipAppend => b.applyClipAppendFrame p
  | .clipCtrl => b.applyClipCtrlFrame p
  | .reset => b.applyResetFrame now p
  | .rebootDl => b.applyRebootDlFrame now p
  | _ => b

end Frames

end Box

end Medius.Mock
