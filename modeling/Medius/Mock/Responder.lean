import Medius.Device.Clip
import Medius.Mock.Box

/-! What the box replies to a frame, what happens to it otherwise, and the runs these make. -/

namespace Medius.Mock

open Protocol Device Medius.Types

namespace Box

variable (digest : List UInt8 → Vector UInt8 32)

section Replies

/-- The live bits are set over whatever the flags say. -/
def liveHealth (b : Box) : Health :=
  { b.health with
    rewriteOn := b.health.rewriteOn || !b.rewrites.rewrites.isEmpty
    patchOn := b.health.patchOn || !b.patchPresented.isEmpty
    transformOn := b.health.transformOn || !b.transforms.transforms.isEmpty }

/-- With no clone the identity and the capabilities read all-zero. -/
def liveInfo (b : Box) : DeviceInfo := if b.cloneUp then b.deviceInfo else .default

def liveCaps (b : Box) : Reply.Caps := if b.cloneUp then b.caps else .default

def liveLocks (b : Box) : Locks := b.locks.getD (b.table.pack b.bearing.mode)

def optionReply (b : Box) (id : UInt8) : Option (List UInt8) :=
  if id = optImperfect then some (optionsImperfectPayload b.imperfect)
  else if id = optMoveRide then some (optionsMoveRidePayload b.moveRideMs)
  else if id = optBearing then some (optionsBearingPayload b.bearing)
  else if id = optEmit then
    some (optionsEmitPayload b.emitPace b.renderMode b.renderReady b.emitForceHz b.advertisedHz
      b.imperfect.allowed)
  else if id = optRender then
    some (optionsRenderPayload b.renderMode b.renderFull b.renderReady)
  else if id = optSpread then some (optionsSpreadPayload b.spreadPercent b.spreadLearnedUs)
  else none

/-- A booting box leaves the first queries about its firmware unanswered, and reports itself on
probation for the next. -/
def firmwareReply (b : Box) : Box × Option (List UInt8) :=
  if b.firmwareUnanswered > 0 then
    ({ b with firmwareUnanswered := b.firmwareUnanswered - 1 }, none)
  else
    ({ b with firmwarePending := b.firmwarePending - 1 },
      some (firmwarePayload b.version b.update (b.firmwarePending > 0)))

def queryReply (b : Box) : List UInt8 → Box × Option (List UInt8)
  | [] => (b, none)
  | what :: rest =>
    let index := rest.headD 0
    if what = qVersion then (b, some (versionPayload b.version))
    else if what = qHealth then (b, some (healthPayload b.liveHealth))
    else if what = qDeviceInfo then (b, some (deviceInfoPayload b.liveInfo))
    else if what = qCaps then (b, some (capsPayload b.liveCaps))
    else if what = qRate then (b, some (ratePayload b.rate))
    else if what = qStats then (b, some (statsPayload b.stats))
    else if what = qLocks then (b, some (locksPayload b.liveLocks))
    else if what = qCatch then (b, some (catchRespPayload b.catch_))
    else if what = qOptions then (b, rest.head?.bind b.optionReply)
    else if what = qFirmware then b.firmwareReply
    else if what = qClip then
      (b, some (clipStatusPayload b.clip b.clipSettings b.packetTriggers))
    else if what = qRewrite then (b, some (rewriteRespPayload b.rewrites))
    else if what = qRewriteEntry then (b, some (b.rewrites.rewriteEntryRespPayload index))
    else if what = qPatches then
      (b, some (patchesRespPayload b.patches b.patchPresented b.patchRefused b.patchFull))
    else if what = qPatchEntry then (b, some (b.store.patchEntryRespPayload index))
    else if what = qTransforms then (b, some (transformsRespPayload b.transforms))
    else (b, none)

/-- Whether the op activates what is staged. -/
def activates (b : Box) : List UInt8 → Bool
  | op :: _ :: _ =>
    op = otaOpActivate && b.update.refuseActivate.isNone &&
      (b.update.device.staged || b.update.host.staged)
  | _ => false

/-- An acknowledgement covers a whole window of `DATA`, so it takes a `SEQ` of its own. -/
def updateReply (b : Box) (seq : UInt8) (p : List UInt8) : Box × Option DecodedFrame :=
  let (update, reply) := b.update.onUpdate digest p
  let b :=
    if b.activates p then
      { b with
        update := update, firmwareUnanswered := b.reboot.1, firmwarePending := b.reboot.2 }
    else { b with update := update }
  match reply with
  | none => (b, none)
  | some payload =>
    if p.head? = some otaOpData then
      ({ b with updateDataSeq := b.updateDataSeq + 1 },
        some ⟨.updateResp, b.updateDataSeq, payload⟩)
    else (b, some ⟨.updateResp, seq, payload⟩)

/-- Refused while the opt-in is off; a reply that is not OK carries no data. -/
def transferPayload (b : Box) (p : List UInt8) : List UInt8 :=
  let (status, data) := if b.imperfect.allowed then b.transferReply else (0xFC, [])
  p.headD 0 :: status :: if status ≠ 0 then [] else data

def reply (b : Box) (f : DecodedFrame) : Box × Option DecodedFrame :=
  if !b.respond then (b, none)
  else
    match f.ty with
    | .update => b.updateReply digest f.seq f.payload
    | .transfer => (b, some ⟨.transferResp, f.seq, b.transferPayload f.payload⟩)
    | .query =>
      let (b, reply) := b.queryReply f.payload
      (b, reply.map fun payload => ⟨.resp, f.seq, payload⟩)
    | _ => (b, none)

end Replies

/-- A command may set session state: marked before it runs and again after, unless it rebooted the
chip.  The first frame after a boot is replied to after a hello. -/
def onFrame (b : Box) (now : Nat) (f : DecodedFrame) : Box × List DecodedFrame :=
  let lead := if b.pcSeen then [] else [b.helloFrame]
  let command : Bool := f.ty ≠ .query ∧ f.ty ≠ .reset
  let b := { b with pcSeen := true }.advance now
  let b := if command then { b with sessionDirty := true } else b
  let b := b.applyFrame now f.ty f.payload
  let (b, out) := b.reply digest f
  let b := if command ∧ b.pcSeen then { b with sessionDirty := true } else b
  ({ b with unsolicited := [] }, lead ++ out.toList ++ b.unsolicited)

/-- A reply longer than a frame carries does not come out. -/
def encodeAll (frames : List DecodedFrame) : Except FrameError (List UInt8) := do
  return (← frames.mapM fun f => encode f.ty f.seq f.payload).flatten

section Events

/-- A restart from outside says hello at once. -/
def onRestart (b : Box) (now : Nat) : Box × List DecodedFrame :=
  let b := b.restart now
  ({ b with unsolicited := [] }, b.unsolicited)

def linkLost (b : Box) (now : Nat) : Box := (b.advance now).countRelease.releaseSession

def detach (b : Box) (now : Nat) (back : Bool) : Box :=
  let b := (b.advance now).countRelease.releaseSession
  if back then b else { b with graceUntil := some (now + detachGrace), deviceBack := false }

/-- Inside a detach's grace the clone is unchanged; after the teardown a fresh one starts. -/
def attach (b : Box) (now : Nat) : Box :=
  let b := b.advance now
  if b.graceUntil.isSome then { b with deviceBack := true }
  else if b.cloneUp then b
  else { b with cloneUp := true, patchPresented := b.patchesToServe, patchRefused := false }

/-- A packet crossing a surface that carries it. -/
def clipPacket (b : Box) (class_ : TrafficClass) (id : UInt16) (direction : Direction)
    (head : List UInt8) : Box × Option ClipAction × Bool :=
  if ¬classCarries class_ direction then (b, none, false)
  else
    let (rows, verb, consumed) :=
      PacketTriggers.packet b.packetTriggers class_.asU8 id direction.asU8 head
    ({ b with packetTriggers := rows }, verb.bind ClipAction.fromU8, consumed)

end Events

section Scripts

/-- A trigger is bound as a `CLIP_TRIGGER` frame binds it, with the hits it is scripted with. -/
def scriptTrigger (imperfect : Bool) (rows : PacketTriggers.Rows) (e : ClipPacketTriggerEntry) :
    PacketTriggers.Rows :=
  let t := e.trigger
  match PacketTriggers.set rows t.class_.asU8 t.id t.direction.asU8 t.action.asU8
      (clipTrigFPresent ||| t.flags) t.selectorLen t.matchBytes t.mask imperfect with
  | some (rows, i) => rows.modify i fun r => { r with hits := e.hits.toUInt32 }
  | none => rows

def scriptClipSettings (b : Box) (settings : ClipSettings) : Box :=
  { b with
    packetTriggers := settings.packetTriggers.foldl (scriptTrigger b.imperfect.allowed) []
    clipSettings := { settings with packetTriggers := [] } }

def scriptImperfect (b : Box) (imperfect : ImperfectStatus) : Box :=
  { b with
    imperfect := imperfect
    packetTriggers :=
      if imperfect.allowed then b.packetTriggers
      else PacketTriggers.dropConsuming b.packetTriggers }

/-- What a test sets on the box from outside. -/
inductive Script
  | version (v : Version) (mac_len : v.mac.length = 6)
  | health (h : Health)
  | deviceInfo (d : DeviceInfo)
  | caps (c : Reply.Caps)
  | mouseCaps (m : MouseCaps)
  | kbdCaps (k : KbdCaps)
  | rate (r : Rate)
  | stats (s : Stats)
  | locks (l : Locks)
  | catchState (c : CatchState)
  | imperfect (i : ImperfectStatus)
  | movementRiding (window : Option Duration)
  | bearing (b : Bearing)
  | emitPace (p : EmitPace)
  | render (m : RenderMode) (full : Bool)
  | renderReady (ready : Bool)
  | spreadLearned (periodUs : UInt32)
  | rateForce (hz : Option UInt16)
  | advertisedHz (hz : UInt16)
  | clipStatus (c : ClipStatus)
  | clipSettings (c : ClipSettings)
  | transferReply (status : UInt8) (data : List UInt8)
  | refuseNextActivate (status : UpdateStatus)
  | rebootAfterActivate (unanswered pending : Nat)
  | silent

def script (b : Box) : Script → Box
  | .version v mac_len => { b with version := v, mac_len := mac_len }
  | .health h => { b with health := h }
  | .deviceInfo d => { b with deviceInfo := d }
  | .caps c => { b with caps := c }
  | .mouseCaps m => { b with caps := { b.caps with mouse := m } }
  | .kbdCaps k => { b with caps := { b.caps with keyboard := k, kbdChangeDriven := true } }
  | .rate r => { b with rate := r }
  | .stats s => { b with stats := s }
  | .locks l => { b with locks := some l }
  | .catchState c => { b with catch_ := c }
  | .imperfect i => b.scriptImperfect i
  | .movementRiding window => { b with moveRideMs := rideWindowMs window }
  | .bearing bearing => { b with bearing := bearing }
  | .emitPace p => { b with emitPace := p }
  | .render m full => { b with renderMode := m, renderFull := full }
  | .renderReady ready => { b with renderReady := ready }
  | .spreadLearned periodUs => { b with spreadLearnedUs := periodUs }
  | .rateForce hz => { b with emitForceHz := hz.filter (· ≠ 0) }
  | .advertisedHz hz => { b with advertisedHz := hz }
  | .clipStatus c => { b with clip := c }
  | .clipSettings c => b.scriptClipSettings c
  | .transferReply status data => { b with transferReply := (status, data) }
  | .refuseNextActivate status =>
    { b with update := { b.update with refuseActivate := some status } }
  | .rebootAfterActivate unanswered pending => { b with reboot := (unanswered, pending) }
  | .silent => { b with respond := false }

end Scripts

/-- A frame arrives, or something happens to the box. -/
inductive Event
  | frame (f : DecodedFrame)
  | restart
  | linkLost
  | detach (back : Bool)
  | attach
  | packet (class_ : TrafficClass) (id : UInt16) (direction : Direction) (head : List UInt8)
  | script (s : Script)

/-- What an event leaves, and the frames the box sends at it. -/
def step (b : Box) (now : Nat) : Event → Box × List DecodedFrame
  | .frame f => b.onFrame digest now f
  | .restart => b.onRestart now
  | .linkLost => (b.linkLost now, [])
  | .detach back => (b.detach now back, [])
  | .attach => (b.attach now, [])
  | .packet class_ id direction head => ((b.clipPacket class_ id direction head).1, [])
  | .script s => (b.script s, [])

/-- The boxes a run of such events reaches, each with the time of the last event: the clock never
goes back. -/
inductive Reachable (ok : Event → Prop) : Nat → Box → Prop
  | default : Reachable ok 0 .default
  | step {t now : Nat} {b : Box} (e : Event) : ok e → Reachable ok t b → t ≤ now →
      Reachable ok now (b.step digest now e).1

end Box

end Medius.Mock
