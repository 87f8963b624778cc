import Medius.Types.Indexed

namespace Medius.Protocol

open Medius.Types Checked
open Checked.Reading (refused ofOption)

/-- A decoded `RESP`, keyed by the selector in its first byte. -/
inductive Resp
  | version (v : Version)
  | health (h : Health)
  | deviceInfo (d : DeviceInfo)
  | caps (c : Reply.Caps)
  | rate (r : Rate)
  | stats (s : Stats)
  | locks (l : Locks)
  | catch_ (c : CatchState)
  | imperfect (i : ImperfectStatus)
  | movementRiding (ms : Option UInt16)
  | emitPace (e : EmitPaceStatus)
  | render (r : RenderStatus)
  | spread (s : SpreadStatus)
  | bearing (b : Bearing)
  | clip (c : ClipStatus)
  | firmware (f : FirmwareInfo)
  | rewrite (t : RewriteTable)
  | patches (s : PatchSet)
  | transforms (t : Transforms)
  deriving DecidableEq

def parseOption (payload : List UInt8) : Reading Resp := do
  let id ← get payload 1
  if id = optImperfect then return .imperfect (← ImperfectStatus.fromPayload payload)
  else if id = optMoveRide then return .movementRiding (← movementRidingFromPayload payload)
  else if id = optEmit then return .emitPace (← EmitPaceStatus.fromPayload payload)
  else if id = optRender then return .render (← RenderStatus.fromPayload payload)
  else if id = optSpread then return .spread (← SpreadStatus.fromPayload payload)
  else if id = optBearing then return .bearing (← Bearing.fromPayload payload)
  else refused

def parseResp (payload : List UInt8) : Reading Resp := do
  let what ← ofOption payload.head?
  if what = qVersion then return .version (← Version.fromPayload payload)
  else if what = qHealth then return .health (← Health.fromPayload payload)
  else if what = qDeviceInfo then return .deviceInfo (← DeviceInfo.fromPayload payload)
  else if what = qCaps then return .caps (← Reply.Caps.fromPayload payload)
  else if what = qRate then return .rate (← Rate.fromPayload payload)
  else if what = qStats then return .stats (← Stats.fromPayload payload)
  else if what = qLocks then return .locks (← ofOption (Locks.fromPayload payload))
  else if what = qCatch then return .catch_ (← CatchState.fromPayload payload)
  else if what = qClip then return .clip (← ClipStatus.readPayload payload)
  else if what = qFirmware then return .firmware (← FirmwareInfo.fromPayload payload)
  else if what = qRewrite then return .rewrite (← RewriteTable.fromPayload payload)
  else if what = qPatches then return .patches (← PatchSet.fromPayload payload)
  else if what = qTransforms then return .transforms (← Transforms.fromPayload payload)
  else if what = qOptions then parseOption payload
  else refused

end Medius.Protocol
