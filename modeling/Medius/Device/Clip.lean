import Medius.Device.Lock

namespace Medius.Device

open Protocol Link Medius.Types

/-- `positive` is the flow in, `negative` the flow out. -/
def classCarries (class_ : TrafficClass) (direction : Direction) : Bool :=
  match class_ with
  | .hidIn | .emit => direction = .positive
  | .hidOut => direction = .negative
  | .vendorInterrupt | .vendorBulk | .control => direction = .positive || direction = .negative
  | .bus | .clipTransfer => false

abbrev packetAnyId : UInt16 := catchIdAny

/-- The key as the box checks it on a bind and a removal. -/
def validatePacketKey (t : ClipPacketTrigger) : Except Error Unit :=
  if ¬ClipPacketTrigger.isSurface t.class_ then
    .error (.clipPacketTrigger <| "names a surface packets cross: HidIn, HidOut, VendorInterrupt, " ++
      "VendorBulk, Control or Emit")
  else if t.direction.isRelative then
    .error (.relativeDirection t.direction "clip packet trigger")
  else if t.matchBytes.length ≠ t.mask.length then
    .error (.clipPacketTrigger "takes a match and a mask of one length")
  else if t.matchBytes.length > pktMatchMax then
    .error (.clipPacketTrigger "compares at most 16 match bytes")
  else if t.direction ≠ .both ∧ ¬classCarries t.class_ t.direction then
    .error (.clipPacketTrigger <| "names a direction its class never carries: HidIn and Emit flow " ++
      "IN, HidOut flows OUT")
  else if (t.matchBytes.zip t.mask).any fun p => p.1 &&& ~~~p.2 ≠ 0 then
    .error (.clipPacketTrigger <| "has a match bit outside its mask, which no packet can equal: a " ++
      "packet byte is masked before it is compared")
  else .ok ()

def validatePacketTrigger (t : ClipPacketTrigger) : Except Error Unit :=
  match validatePacketKey t with
  | .error e => .error e
  | .ok () =>
    if t.consume ∧ t.class_ = .control then
      .error (.clipPacketTrigger <| "takes consume on a report or vendor class; a Control transfer " ++
      "always runs to completion")
    else if ¬t.oncePerRun then
      if t.selectorLen = 0 then .ok ()
      else .error (.clipPacketTrigger "has a selector length only with once_per_run")
    else if t.class_ = .control ∨ t.id = packetAnyId ∨ t.direction = .both then
      .error (.clipPacketTrigger <| "needs one stream for once_per_run to have a run over: a report " ++
      "class, a concrete id, and IN or OUT")
    else if t.selectorLen.toNat ≥ t.matchBytes.length then
      .error (.clipPacketTrigger <| "needs match bytes past its selector: they are the condition " ++
      "the run is over")
    else if (t.mask.drop t.selectorLen.toNat).all (· = 0) then
      .error (.clipPacketTrigger <| "needs a masked bit past its selector: a condition every packet " ++
      "of the stream meets is a run that never ends")
    else .ok ()

variable {β : Type}

/-- Recorded once the frame is sent. -/
def sentThen (d sent : DesiredState) : Except Error β → DesiredState × Except Error β
  | .ok r => (sent, .ok r)
  | .error e => (d, .error e)

variable (send : FrameType → List UInt8 → Except Error β) (d : DesiredState)

/-- The chunks of an append; each that is sent counts as one. -/
def clipAppend : DesiredState → List (List UInt8) → DesiredState × Except Error Unit
  | d, [] => (d, .ok ())
  | d, chunk :: chunks =>
    match send .clipAppend chunk with
    | .error e => (d, .error e)
    | .ok _ => clipAppend (d.clipLoaded true) chunks

def clipClear : DesiredState × Except Error β :=
  sentThen d (d.clipLoaded false) (send .clipCtrl [clipOpClear])

def clipSet (id value : UInt8) : DesiredState × Except Error β :=
  sentThen d (d.clipSetting id value) (send .clipSet (clipSetPayload id value))

def bind (trigger : ClipTrigger) : DesiredState × Except Error β :=
  sentThen d (d.clipBind trigger) (send .clipTrigger (bindPayload trigger))

def unbind (usage : Usage) (edge : Edge) : DesiredState × Except Error β :=
  let (class_, id) := usage.classId
  sentThen d (d.clipUnbind (class_, id, edge.asU8))
    (send .clipTrigger (clipTriggerPayload class_ id edge.asU8 0 0))

def bindPacket (trigger : ClipPacketTrigger) : DesiredState × Except Error β :=
  match validatePacketTrigger trigger with
  | .error e => (d, .error e)
  | .ok () =>
    sentThen d (d.clipPacketBind trigger) (send .clipTrigger (bindPacketPayload trigger))

def unbindPacket (trigger : ClipPacketTrigger) : DesiredState × Except Error β :=
  match validatePacketKey trigger with
  | .error e => (d, .error e)
  | .ok () =>
    sentThen d (d.clipPacketUnbind (clipPacketKey trigger)) <| send .clipTrigger <|
      clipPacketTriggerPayload trigger.class_.asU8 trigger.id trigger.direction.asU8 0 0 0
        trigger.matchBytes trigger.mask

def clearTriggers : DesiredState × Except Error β :=
  sentThen d d.clipTriggersClear <| send .clipTrigger <|
    clipTriggerPayload clipCondAnyClass clipCondAnyId lockDirBoth 0 0

end Medius.Device
