import Medius.Protocol.Opcode

namespace Medius.Protocol

def injectPayload (class_ : UInt8) (id : UInt16) (action : UInt8) : List UInt8 :=
  class_ :: toLeBytes id ++ [action]

/-- `LOCK`: `[class][usage u16 LE][direction][scale i16 LE]`. -/
def lockPayload (class_ : UInt8) (usage : UInt16) (direction : UInt8) (scale : Int16) : List UInt8 :=
  class_ :: toLeBytes usage ++ direction :: toLeBytes scale.toUInt16

/-- `CATCH`: `[class][id u16 LE][dir][state][snaplen]`. -/
def catchPayload (class_ : UInt8) (id : UInt16) (direction state snaplen : UInt8) : List UInt8 :=
  class_ :: toLeBytes id ++ [direction, state, snaplen]

def clipSetPayload (id value : UInt8) : List UInt8 := [id, value]

def clipTriggerPayload (class_ : UInt8) (id : UInt16) (edge action flags : UInt8) : List UInt8 :=
  class_ :: toLeBytes id ++ [edge, action, flags]

def clipPacketTriggerPayload (class_ : UInt8) (id : UInt16) (dir action flags slen : UInt8)
    (matchBytes mask : List UInt8) : List UInt8 :=
  clipTriggerPayload class_ id dir action flags ++
    slen :: UInt8.ofNat matchBytes.length :: matchBytes ++ mask

/-- `REWRITE`: `[cls][id u16 LE][dir][state][action][off u16 LE][mlen][match][mask][payload]`. -/
def rewritePayload (class_ : UInt8) (id : UInt16) (direction state action : UInt8)
    (offset : UInt16) (matchBytes mask payload : List UInt8) : List UInt8 :=
  class_ :: toLeBytes id ++ direction :: state :: action :: toLeBytes offset ++
    UInt8.ofNat matchBytes.length :: matchBytes ++ mask ++ payload

/-- `PATCH`: `[section][cfg][index][offset u16 LE][bytes]`. -/
def patchPayload (section_ cfg index : UInt8) (offset : UInt16) (bytes : List UInt8) : List UInt8 :=
  section_ :: cfg :: index :: toLeBytes offset ++ bytes

/-- `TRANSFORM`: `[op][sclass][sid u16 LE][dclass][did u16 LE][state]`. -/
def transformPayload (op sclass : UInt8) (sid : UInt16) (dclass : UInt8) (did : UInt16)
    (state : UInt8) : List UInt8 :=
  op :: sclass :: toLeBytes sid ++ dclass :: toLeBytes did ++ [state]

/-- `OPTION(IMPERFECT)`: `[id=0][allow u8]`. -/
def imperfectPayload (allow : Bool) : List UInt8 := [optImperfect, allow.toUInt8]

/-- `OPTION(BEARING)`: `[id=4][window u16 LE ms][mode u8]`. -/
def bearingPayload (windowMs : UInt16) (mode : UInt8) : List UInt8 :=
  optBearing :: toLeBytes windowMs ++ [mode]

/-- `OPTION(MOVE_RIDE)`: `[id=1][timeout u16 LE ms]`. -/
def moveRidePayload (timeoutMs : UInt16) : List UInt8 := optMoveRide :: toLeBytes timeoutMs

/-- `OPTION(EMIT)`: `[id=2][mode u8][rate_hz u16 LE][force_hz u16 LE]`. -/
def emitPacePayload (mode : UInt8) (hz forceHz : UInt16) : List UInt8 :=
  optEmit :: mode :: toLeBytes hz ++ toLeBytes forceHz

/-- `OPTION(RENDER)`: `[id=5][mode u8][full u8]`. -/
def renderPayload (mode : UInt8) (full : Bool) : List UInt8 := [optRender, mode, full.toUInt8]

/-- `OPTION(SPREAD)`: `[id=6][percent u16 LE]`. -/
def spreadPayload (percent : UInt16) : List UInt8 := optSpread :: toLeBytes percent

/-- `OPTION(NAME)`: the id, then the name's bytes. -/
def namePayload (name : List UInt8) : List UInt8 := optName :: name

end Medius.Protocol
