import Medius.Error
import Medius.Types.Patch

namespace Medius.Device

open Protocol Medius.Types

def setPatch {β : Type} (send : FrameType → List UInt8 → Except Error β) (patch : Patch) :
    Except Error β :=
  send .patch <|
    patchPayload patch.section_.asU8 patch.cfg patch.index patch.offset patch.bytes

end Medius.Device
