import Medius.Types.Catch
import Medius.Protocol.Word
import Medius.Types.Usage

namespace Medius.Types

open Protocol

inductive Edge
  | both | press | release
  deriving DecidableEq

def Edge.asU8 : Edge → UInt8
  | .both => lockDirBoth
  | .press => lockDirPos
  | .release => lockDirNeg

def Edge.fromU8 (v : UInt8) : Option Edge :=
  if v = lockDirBoth then some .both
  else if v = lockDirPos then some .press
  else if v = lockDirNeg then some .release
  else none

@[simp] theorem Edge.fromU8_asU8 (e : Edge) : fromU8 e.asU8 = some e := by cases e <;> rfl

inductive ClipAction
  | start | stop | pause | resume | restart | toggle
  deriving DecidableEq

def ClipAction.asU8 : ClipAction → UInt8
  | .start => clipOpStart
  | .stop => clipOpStop
  | .pause => clipOpPause
  | .resume => clipOpResume
  | .restart => clipOpRestart
  | .toggle => clipOpToggle

def ClipAction.fromU8 (v : UInt8) : Option ClipAction :=
  if v = clipOpStart then some .start
  else if v = clipOpStop then some .stop
  else if v = clipOpPause then some .pause
  else if v = clipOpResume then some .resume
  else if v = clipOpRestart then some .restart
  else if v = clipOpToggle then some .toggle
  else none

@[simp] theorem ClipAction.fromU8_asU8 (a : ClipAction) : fromU8 a.asU8 = some a := by
  cases a <;> rfl

structure ClipTrigger where
  on : Usage
  edge : Edge
  action : ClipAction
  consume : Bool
  deriving DecidableEq

structure ClipPacketTrigger where
  class_ : TrafficClass
  id : UInt16
  direction : Direction
  action : ClipAction
  matchBytes : List UInt8
  mask : List UInt8
  consume : Bool
  oncePerRun : Bool
  selectorLen : UInt8
  deriving DecidableEq

def ClipPacketTrigger.flags (t : ClipPacketTrigger) : UInt8 :=
  (if t.consume then clipTrigFConsume else 0) ||| (if t.oncePerRun then clipTrigFRun else 0)

structure ClipPacketTriggerEntry where
  trigger : ClipPacketTrigger
  hits : UInt16
  deriving DecidableEq

/-- The classes no packet of which meets a trigger. -/
def ClipPacketTrigger.isSurface : TrafficClass → Bool
  | .bus | .clipTransfer => false
  | _ => true

/-- `[class][id u16][dir][action][flags][slen][mlen][hits u16][match][mask]`; nothing for a class,
direction or action without a name. -/
def ClipPacketTriggerEntry.fromWire : List UInt8 → Option ClipPacketTriggerEntry
  | cls :: idLo :: idHi :: dir :: action :: flags :: slen :: framed :: hitsLo :: hitsHi :: body => do
    let class_ ← (TrafficClass.tryFrom (← CatchClass.fromU8 cls)).toOption
    let direction ← (Direction.fromU8 dir).filter fun d => !d.isRelative
    let action ← ClipAction.fromU8 action
    if ¬ClipPacketTrigger.isSurface class_ then none
    else
      let mlen := framed.toNat
      return {
        trigger :=
          { class_ := class_
            id := fromLeBytes idLo idHi
            direction := direction
            action := action
            matchBytes := body.take mlen
            mask := body.drop mlen
            consume := flags &&& clipTrigFConsume ≠ 0
            oncePerRun := flags &&& clipTrigFRun ≠ 0
            selectorLen := slen }
        hits := fromLeBytes hitsLo hitsHi }
  | _ => none

inductive ClipState
  | idle | playing | paused | faulted
  deriving DecidableEq

def ClipState.fromU8 (v : UInt8) : Option ClipState :=
  if v = 0 then some .idle
  else if v = 1 then some .playing
  else if v = 2 then some .paused
  else if v = 3 then some .faulted
  else none

/-- The runtime view of `RESP(CLIP)`. -/
structure ClipStatus where
  state : ClipState
  free : UInt32
  total : UInt32
  played : UInt32
  ticks : UInt32
  underruns : UInt16
  overruns : UInt16
  seqGaps : UInt16
  xfers : UInt16
  xferErrs : UInt16
  gated : UInt16
  held : List Usage
  deriving DecidableEq

def ClipStatus.default : ClipStatus where
  state := .idle
  free := 0
  total := 0
  played := 0
  ticks := 0
  underruns := 0
  overruns := 0
  seqGaps := 0
  xfers := 0
  xferErrs := 0
  gated := 0
  held := []

/-- The config view of `RESP(CLIP)`. -/
structure ClipSettings where
  autolock : List Blanket
  loop_ : Bool
  retain : Bool
  finalized : Bool
  ride : Bool
  triggers : List ClipTrigger
  packetTriggers : List ClipPacketTriggerEntry
  deriving DecidableEq

/-- Where the next packet entry starts, unless this one's match is too long. -/
def clipPacketSize (e : List UInt8) : Option (Unit × Nat) := do
  let mlen ← e[7]?
  if mlen.toNat > pktMatchMax then none else some ((), clipPktTrigEntry + 2 * mlen.toNat)

/-- The config tail's offset, when the payload is exactly the shape its counts describe. -/
def clipConfigOffset (p : List UInt8) : Option Nat := do
  let held ← p[respClipHdr - 1]?
  let cfg := respClipHdr + held.toNat * 3
  let nTrig ← p[cfg + 2]?
  if nTrig.toNat > clipTrigMax then none
  else
    let tail := cfg + 3 + nTrig.toNat * 6
    let nPkt ← p[tail]?
    if nPkt.toNat > clipPktTrigMax then none
    else
      let (_, tail) ← Records.walk clipPacketSize p nPkt.toNat (tail + 1)
      if p.length = tail then some cfg else none

def ClipStatus.fromPayload (p : List UInt8) : Option ClipStatus := do
  let _ ← clipConfigOffset p
  let held ← Usage.decodeList (p.drop (respClipHdr - 1))
  match p with
  | _ :: state :: f₀ :: f₁ :: f₂ :: f₃ :: t₀ :: t₁ :: t₂ :: t₃ :: p₀ :: p₁ :: p₂ :: p₃ ::
      k₀ :: k₁ :: k₂ :: k₃ :: u₀ :: u₁ :: o₀ :: o₁ :: s₀ :: s₁ :: x₀ :: x₁ :: e₀ :: e₁ ::
      g₀ :: g₁ :: _ =>
    return {
      state := ← ClipState.fromU8 state
      free := fromLeBytes32 f₀ f₁ f₂ f₃
      total := fromLeBytes32 t₀ t₁ t₂ t₃
      played := fromLeBytes32 p₀ p₁ p₂ p₃
      ticks := fromLeBytes32 k₀ k₁ k₂ k₃
      underruns := fromLeBytes u₀ u₁
      overruns := fromLeBytes o₀ o₁
      seqGaps := fromLeBytes s₀ s₁
      xfers := fromLeBytes x₀ x₁
      xferErrs := fromLeBytes e₀ e₁
      gated := fromLeBytes g₀ g₁
      held := held }
  | _ => none

/-- A wildcard binding has no concrete class, and is passed over. -/
def ClipTrigger.read : List UInt8 → Option (Option ClipTrigger × Nat)
  | class_ :: lo :: hi :: edge :: action :: consume :: _ =>
    some (do
      let class_ ← Class.fromU8 class_
      let edge ← Edge.fromU8 edge
      let action ← ClipAction.fromU8 action
      return ⟨⟨class_, fromLeBytes lo hi⟩, edge, action, consume ≠ 0⟩, 6)
  | _ => none

def ClipPacketTriggerEntry.read (e : List UInt8) : Option (Option ClipPacketTriggerEntry × Nat) := do
  let mlen ← e[7]?
  let size := clipPktTrigEntry + 2 * mlen.toNat
  return (fromWire (e.take size), size)

def ClipSettings.fromPayload (p : List UInt8) : Option ClipSettings := do
  let off ← clipConfigOffset p
  let autolock ← p[off]?
  let flags ← p[off + 1]?
  let nTrig ← p[off + 2]?
  let (triggers, off) ← Records.walk ClipTrigger.read p nTrig.toNat (off + 3)
  let nPkt ← p[off]?
  let (packetTriggers, _) ← Records.walk ClipPacketTriggerEntry.read p nPkt.toNat (off + 1)
  return {
    autolock := blanketFromScope autolock
    loop_ := flags &&& clipCfgFLoop ≠ 0
    retain := flags &&& clipCfgFRetain ≠ 0
    finalized := flags &&& clipCfgFFinalized ≠ 0
    ride := flags &&& clipCfgFRide ≠ 0
    triggers := triggers.reduceOption
    packetTriggers := packetTriggers.reduceOption }

end Medius.Types
