import Medius.Device.Lock

namespace Medius.Device

open Protocol Link Medius.Types

variable {β : Type}

/-- Turning the opt-in off drops the held rules and the consuming packet triggers. -/
def allowImperfectClones (send : FrameType → List UInt8 → Except Error β) (d : DesiredState)
    (allow : Bool) : DesiredState × Except Error β :=
  if allow then (d, send .option (imperfectPayload true))
  else
    let held := d.heldRewrites
    let (d, consuming) := d.clearRewrites.clipPacketDropConsuming
    recorded d
      (consuming.foldl DesiredState.clipPacketBind
        (held.foldl (fun d r => (d.applyRewrite r).1) d))
      (send .option (imperfectPayload false))

end Medius.Device
