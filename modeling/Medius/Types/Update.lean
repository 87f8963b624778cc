import Medius.Protocol.Opcode

namespace Medius.Types

/-- Chip an update addresses. -/
inductive UpdateTarget
  | device | host
  deriving DecidableEq

def UpdateTarget.asU8 : UpdateTarget → UInt8
  | .device => 0
  | .host => 1

/-- The box's reply to one `UPDATE` op. -/
abbrev UpdateStatus := UInt8

namespace UpdateStatus

abbrev ok : UpdateStatus := 0x00
abbrev ready : UpdateStatus := 0x01
abbrev ack : UpdateStatus := 0x02
abbrev staged : UpdateStatus := 0x03
abbrev busy : UpdateStatus := 0x10
abbrev tooBig : UpdateStatus := 0x12
abbrev seqGap : UpdateStatus := 0x13
abbrev badSha : UpdateStatus := 0x15
abbrev nothingStaged : UpdateStatus := 0x19
abbrev badState : UpdateStatus := 0x1A

end UpdateStatus

structure UpdateProgress where
  target : UpdateTarget
  sent : Nat
  total : Nat
  deriving DecidableEq

end Medius.Types
