import Medius.Device.Clip
import Medius.Device.Inject
import Medius.Device.Options
import Medius.Device.Rewrite
import Medius.Device.Transform

/-! Every way a program drives the desired state: its calls, each with the sends it makes, and
what the link notes on its own. -/

namespace Medius.Device

open Protocol Link Medius.Types

inductive DeviceCall
  | inject (usage : Usage) (action : Action)
  | reset (flags : UInt8)
  | scale (scope : LockScope) (direction : Direction) (scale : Int16)
  | setRewrite (allowed : Bool) (rule : RewriteRule)
  | removeRewrite (rule : RewriteRule)
  | clearRewrite
  | transform (t : Transform)
  | untransform (t : Transform)
  | clearTransforms
  | allowImperfectClones (allow : Bool)
  | clipAppend (chunks : List (List UInt8))
  | clipClear
  | clipSet (id value : UInt8)
  | bind (trigger : ClipTrigger)
  | unbind (usage : Usage) (edge : Edge)
  | bindPacket (trigger : ClipPacketTrigger)
  | unbindPacket (trigger : ClipPacketTrigger)
  | clearTriggers
  | caps (nButtons : UInt8)
  | catch_ (effective : FilterSet)
  | noteRing (seen : Nat) (status : ClipStatus) (released : Bool)
  | adopt (status : ClipStatus) (settings : ClipSettings)

/-- `send` answers each frame the call writes. -/
def call (send : FrameType → List UInt8 → Except Error Unit) (d : DesiredState) :
    DeviceCall → DesiredState × Except Error Unit
  | .inject usage action => inject send d usage action
  | .reset flags => resetFrame send d [flags]
  | .scale scope direction scale =>
    sendLock send d scope.classId.1 scope.classId.2 direction scale
  | .setRewrite allowed rule => setRewrite allowed send d rule
  | .removeRewrite rule => removeRewrite send d rule
  | .clearRewrite => clearRewrite send d
  | .transform t => transform send d t
  | .untransform t => untransform send d t
  | .clearTransforms => clearTransforms send d
  | .allowImperfectClones allow => allowImperfectClones send d allow
  | .clipAppend chunks => clipAppend send d chunks
  | .clipClear => clipClear send d
  | .clipSet id value => clipSet send d id value
  | .bind trigger => bind send d trigger
  | .unbind usage edge => unbind send d usage edge
  | .bindPacket trigger => bindPacket send d trigger
  | .unbindPacket trigger => unbindPacket send d trigger
  | .clearTriggers => clearTriggers send d
  | .caps nButtons => (d.noteDeclaredButtons nButtons, .ok ())
  | .catch_ effective => (d.setCatch effective, .ok ())
  | .noteRing seen status released => (d.clipNoteRing seen status released, .ok ())
  | .adopt status settings => (d.clipAdopt status settings, .ok ())

/-- A state the program can bring about. -/
inductive Reachable : DesiredState → Prop
  | default : Reachable .default
  | call {d : DesiredState} (send : FrameType → List UInt8 → Except Error Unit)
      (c : DeviceCall) : Reachable d → Reachable (Device.call send d c).1

end Medius.Device
