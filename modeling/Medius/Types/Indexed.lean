import Medius.Types.Clip
import Medius.Types.Event
import Medius.Types.Table

/-! The events and the two views of `RESP(CLIP)`, decoded with the bytes indexed as the source
does. -/

namespace Medius.Types

open Protocol Checked
open Checked.Reading (refused ofOption attempt)

abbrev eventHdr : Nat := 5

def MotionEvent.readPayload (p : List UInt8) : Reading MotionEvent := do
  if p.length < eventHdr + 8 then refused
  else
    let tsUs ← le32 p 0
    let clock ← index p 4
    let dx ← le16 p 5
    let dy ← le16 p 7
    let dz ← le16 p 9
    let pan ← le16 p 11
    return {
      tsUs := tsUs
      clock := .fromU8 clock
      dx := dx.toInt16
      dy := dy.toInt16
      dz := dz.toInt16
      pan := pan.toInt16 }

def UsageSnapshot.readPayload (p : List UInt8) : Reading UsageSnapshot := do
  if p.length < eventHdr + 2 then refused
  else
    return {
      tsUs := ← le32 p 0
      clock := .fromU8 (← index p 4)
      class_ := ← ofOption (Class.fromU8 (← index p 5))
      direction := ← ofOption (Direction.fromU8 (← index p 6))
      usages := ← ofOption (Usage.decodeList (← sliceFrom p (eventHdr + 2))) }

def TrafficEvent.readPayload (p : List UInt8) : Reading TrafficEvent := do
  if p.length < 12 then refused
  else
    return {
      tsUs := ← le32 p 0
      clock := .fromU8 (← index p 4)
      class_ := ← ofOption (CatchClass.fromU8 (← index p 5))
      id := ← le16 p 6
      direction := ← ofOption (Direction.fromU8 (← index p 8))
      flags := ← index p 9
      trueLen := ← le16 p 10
      bytes := ← sliceFrom p 12 }

/-- Where the entries end, unless one's match is too long. -/
def skipPackets (p : List UInt8) : Nat → Nat → Reading Nat
  | 0, o => return o
  | n + 1, o => do
    let mlen ← get p (o + 7)
    if mlen.toNat > pktMatchMax then refused
    else skipPackets p n (o + (clipPktTrigEntry + 2 * mlen.toNat))

def readConfigOffset (p : List UInt8) : Reading Nat := do
  if p.length < respClipHdr then refused
  else
    let held ← index p (respClipHdr - 1)
    let cfg := respClipHdr + held.toNat * 3
    let nTrig ← get p (cfg + 2)
    if nTrig.toNat > clipTrigMax then refused
    else
      let tail := cfg + 3 + nTrig.toNat * 6
      let nPkt ← get p tail
      if nPkt.toNat > clipPktTrigMax then refused
      else
        let tail ← skipPackets p nPkt.toNat (tail + 1)
        if p.length = tail then return cfg else refused

def ClipStatus.readPayload (p : List UInt8) : Reading ClipStatus := do
  let _ ← readConfigOffset p
  let held ← ofOption (Usage.decodeList (← sliceFrom p (respClipHdr - 1)))
  return {
    state := ← ofOption (ClipState.fromU8 (← index p 1))
    free := ← le32 p 2
    total := ← le32 p 6
    played := ← le32 p 10
    ticks := ← le32 p 14
    underruns := ← le16 p 18
    overruns := ← le16 p 20
    seqGaps := ← le16 p 22
    xfers := ← le16 p 24
    xferErrs := ← le16 p 26
    gated := ← le16 p 28
    held := held }

def ClipTrigger.readAt (p : List UInt8) (off : Nat) : Reading (Option ClipTrigger) := do
  match Class.fromU8 (← index p off), Edge.fromU8 (← index p (off + 3)),
      ClipAction.fromU8 (← index p (off + 4)) with
  | some class_, some edge, some action =>
    let id ← le16 p (off + 1)
    return some ⟨⟨class_, id⟩, edge, action, (← index p (off + 5)) ≠ 0⟩
  | _, _, _ => return none

def readTriggers (p : List UInt8) : Nat → Nat → Reading (List (Option ClipTrigger) × Nat)
  | 0, off => return ([], off)
  | n + 1, off => do
    let trigger ← ClipTrigger.readAt p off
    let (triggers, off) ← readTriggers p n (off + 6)
    return (trigger :: triggers, off)

def ClipPacketTriggerEntry.readWire (e : List UInt8) : Reading ClipPacketTriggerEntry := do
  let class_ ← ofOption (CatchClass.fromU8 (← index e 0))
  let class_ ← ofOption (TrafficClass.tryFrom class_).toOption
  let direction ← ofOption ((Direction.fromU8 (← index e 3)).filter fun d => !d.isRelative)
  let action ← ofOption (ClipAction.fromU8 (← index e 4))
  if ¬ClipPacketTrigger.isSurface class_ then refused
  else
    let mlen := (← index e 7).toNat
    let body ← sliceFrom e clipPktTrigEntry
    let id ← le16 e 1
    let matchBytes ← slice body 0 mlen
    let mask ← sliceFrom body mlen
    let flags ← index e 5
    let slen ← index e 6
    return {
      trigger :=
        { class_ := class_
          id := id
          direction := direction
          action := action
          matchBytes := matchBytes
          mask := mask
          consume := flags &&& clipTrigFConsume ≠ 0
          oncePerRun := flags &&& clipTrigFRun ≠ 0
          selectorLen := slen }
      hits := ← le16 e 8 }

def readPackets (p : List UInt8) : Nat → Nat → Reading (List (Option ClipPacketTriggerEntry))
  | 0, _ => return []
  | n + 1, off => do
    let mlen ← index p (off + 7)
    let stop := off + (clipPktTrigEntry + 2 * mlen.toNat)
    let entry ← attempt (ClipPacketTriggerEntry.readWire (← slice p off stop))
    return entry :: (← readPackets p n stop)

def ClipSettings.readPayload (p : List UInt8) : Reading ClipSettings := do
  let off ← readConfigOffset p
  let autolock ← index p off
  let flags ← index p (off + 1)
  let nTrig ← index p (off + 2)
  let (triggers, off) ← readTriggers p nTrig.toNat (off + 3)
  let nPkt ← index p off
  let packetTriggers ← readPackets p nPkt.toNat (off + 1)
  return {
    autolock := blanketFromScope autolock
    loop_ := flags &&& clipCfgFLoop ≠ 0
    retain := flags &&& clipCfgFRetain ≠ 0
    finalized := flags &&& clipCfgFFinalized ≠ 0
    ride := flags &&& clipCfgFRide ≠ 0
    triggers := triggers.reduceOption
    packetTriggers := packetTriggers.reduceOption }

end Medius.Types
