import Medius.Device.Lock

namespace Medius.Device

open Protocol Link Medius.Types

variable {β : Type} (send : FrameType → List UInt8 → Except Error β) (d : DesiredState)

/-- Recorded whether or not the frame was sent. -/
def inject (usage : Usage) (action : Action) : DesiredState × Except Error β :=
  let (class_, id) := usage.classId
  (d.apply usage action, send .inject (injectPayload class_ id action.asU8))

/-- Both resets clear the same state; the whole catch table is cleared first. -/
def resetFrame (payload : List UInt8) : DesiredState × Except Error β :=
  (d.clear.setCatch ∅, send .reset payload)

end Medius.Device
