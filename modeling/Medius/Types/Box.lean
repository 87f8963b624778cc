import Medius.Types.Clip
import Medius.Types.Reply
import Medius.Types.Table

/-! What a box holds before a host or a device has said anything, and the targets
only a box's own frames name. -/

namespace Medius.Types

open Protocol

inductive RebootTarget
  | deviceDownload | hostDownload | deviceRun | hostRun
  deriving DecidableEq

def RebootTarget.asU8 : RebootTarget → UInt8
  | .deviceDownload => 0
  | .hostDownload => 1
  | .deviceRun => 2
  | .hostRun => 3

/-- With no clone the identity reads all-zero. -/
def DeviceInfo.default : DeviceInfo where
  vid := 0
  pid := 0
  bcdDevice := 0
  bcdUsb := 0
  hasSerial := false
  hasBos := false
  kind := .unknown
  product := .empty

def MouseCaps.default : MouseCaps where
  nButtons := 0
  hasX := false
  hasY := false
  hasWheel := false
  pan := false
  hasReportId := false
  nHid := 0

def KbdCaps.default : KbdCaps where
  nKeys := 0
  nkro := false
  hasConsumer := false
  hasSystem := false
  hasReportId := false

def Reply.Caps.default : Reply.Caps where
  mouse := .default
  keyboard := .default
  mouseChangeDriven := false
  kbdChangeDriven := false

def ImperfectStatus.default : ImperfectStatus where
  allowed := false
  overCapacity := false
  cloneImperfect := false

/-- Twenty milliseconds, read per axis. -/
def Bearing.default : Bearing where
  window := some 20
  mode := .perAxis

def ClipSettings.default : ClipSettings where
  autolock := []
  loop_ := false
  retain := false
  finalized := false
  ride := false
  triggers := []
  packetTriggers := []

end Medius.Types
