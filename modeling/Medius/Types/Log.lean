import Medius.Lib.Utf8
import Medius.Protocol.Opcode

namespace Medius.Types

open Protocol

inductive LogLevel
  | error | warn | info | debug | verbose
  deriving DecidableEq

namespace LogLevel

def asU8 : LogLevel → UInt8
  | .error => 0
  | .warn => 1
  | .info => 2
  | .debug => 3
  | .verbose => 4

/-- An unknown level falls back to `info`. -/
def fromU8 (v : UInt8) : LogLevel :=
  if v = 0 then .error
  else if v = 1 then .warn
  else if v = 3 then .debug
  else if v = 4 then .verbose
  else .info

@[simp] theorem fromU8_asU8 (l : LogLevel) : fromU8 l.asU8 = l := by cases l <;> rfl

end LogLevel

structure LogLine where
  level : LogLevel
  text : Utf8.Text
  deriving DecidableEq

def parseLog : List UInt8 → LogLine
  | level :: text => ⟨.fromU8 level, .lossy text⟩
  | [] => ⟨.info, .empty⟩

end Medius.Types
