import Medius.Mock.PacketTriggers
import Medius.Types.Clip

namespace Medius.Mock

open Protocol Medius.Types

abbrev clipHeldMax : Nat := 40

def clipStateByte : ClipState → UInt8
  | .idle => 0
  | .playing => 1
  | .paused => 2
  | .faulted => 3

/-- What `RESP(CLIP)` says ahead of the held usages' count. -/
def clipScalars (c : ClipStatus) : List UInt8 :=
  qClip :: clipStateByte c.state :: toLeBytes32 c.free ++ toLeBytes32 c.total ++
    toLeBytes32 c.played ++ toLeBytes32 c.ticks ++ toLeBytes c.underruns ++ toLeBytes c.overruns ++
    toLeBytes c.seqGaps ++ toLeBytes c.xfers ++ toLeBytes c.xferErrs ++ toLeBytes c.gated

def clipFlags (cfg : ClipSettings) : UInt8 :=
  (if cfg.loop_ then clipCfgFLoop else 0) ||| (if cfg.retain then clipCfgFRetain else 0) |||
    (if cfg.finalized then clipCfgFFinalized else 0) ||| (if cfg.ride then clipCfgFRide else 0)

def clipTriggerBytes (t : ClipTrigger) : List UInt8 :=
  t.on.classId.1 :: toLeBytes t.on.classId.2 ++ [t.edge.asU8, t.action.asU8, t.consume.toUInt8]

/-- The command that set the trigger, with the count spliced in. -/
def packetTriggerBytes (r : MockPacketTrigger) : List UInt8 :=
  r.class_ :: toLeBytes r.id ++ r.dir :: r.action :: r.flags :: r.slen ::
    UInt8.ofNat r.matchBytes.length :: toLeBytes (UInt16.ofNat (min r.hits.toNat 0xFFFF)) ++
    r.matchBytes ++ r.mask

/-- The box stops at so many held usages and so many input triggers. -/
def clipStatusPayload (c : ClipStatus) (cfg : ClipSettings) (packets : PacketTriggers.Rows) :
    List UInt8 :=
  let held := c.held.take clipHeldMax
  let triggers := cfg.triggers.take clipTrigMax
  clipScalars c ++ UInt8.ofNat held.length :: held.flatMap Usage.pushLe ++
    blanketScope cfg.autolock :: clipFlags cfg :: UInt8.ofNat triggers.length ::
    triggers.flatMap clipTriggerBytes ++ UInt8.ofNat packets.length ::
    packets.flatMap packetTriggerBytes

end Medius.Mock
