import Medius.Device.Options
import Medius.Device.Clip
import Medius.Mock.State

/-! A call over a link that loses nothing: its frame reaches the box, or is too long to be one. -/

namespace Medius.Device

open Protocol Link Mock

def deliver (box : State) (frame : FrameType) (payload : List UInt8) : Except Error State :=
  if payload.length > maxPayload then .error .frameTooLong
  else .ok (box.applyTableFrame frame payload)

/-- The host and the box after a call that returns `Ok`. -/
def accepted {β : Type} : DesiredState × Except Error β → Option (DesiredState × β)
  | (d, .ok box) => some (d, box)
  | (_, .error _) => none

theorem accepted_send {d : DesiredState} {box : State} {frame : FrameType} {payload : List UInt8}
    {s : DesiredState × State} (h : accepted (d, deliver box frame payload) = some s) :
    s = (d, box.applyTableFrame frame payload) := by
  unfold deliver at h
  split at h
  · cases h
  · exact (Option.some.inj h).symm

theorem accepted_recorded {d undone : DesiredState} {box : State} {frame : FrameType}
    {payload : List UInt8} {s : DesiredState × State}
    (h : accepted (recorded d undone (deliver box frame payload)) = some s) :
    s = (d, box.applyTableFrame frame payload) := by
  unfold deliver at h
  split at h
  · cases h
  · exact (Option.some.inj h).symm

theorem accepted_sentThen {d sent : DesiredState} {box : State} {frame : FrameType}
    {payload : List UInt8} {s : DesiredState × State}
    (h : accepted (sentThen d sent (deliver box frame payload)) = some s) :
    s = (sent, box.applyTableFrame frame payload) := by
  unfold deliver at h
  split at h
  · cases h
  · exact (Option.some.inj h).symm

end Medius.Device
