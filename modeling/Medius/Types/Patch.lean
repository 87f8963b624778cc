import Medius.Protocol.Command

namespace Medius.Types

open Protocol

/-- The descriptor a patch overwrites. -/
inductive PatchSection
  | device | config | report | string | bos
  deriving DecidableEq

def PatchSection.asU8 : PatchSection → UInt8
  | .device => patchSecDevice
  | .config => patchSecConfig
  | .report => patchSecReport
  | .string => patchSecString
  | .bos => patchSecBos

def PatchSection.fromU8 (v : UInt8) : Option PatchSection :=
  if v = patchSecDevice then some .device
  else if v = patchSecConfig then some .config
  else if v = patchSecReport then some .report
  else if v = patchSecString then some .string
  else if v = patchSecBos then some .bos
  else none

@[simp] theorem PatchSection.fromU8_asU8 (s : PatchSection) : fromU8 s.asU8 = some s := by
  cases s <;> rfl

structure PatchKey where
  section_ : PatchSection
  cfg : UInt8
  index : UInt8
  offset : UInt16
  deriving DecidableEq

structure Patch where
  section_ : PatchSection
  cfg : UInt8
  index : UInt8
  offset : UInt16
  bytes : List UInt8
  deriving DecidableEq

def Patch.key (p : Patch) : PatchKey := ⟨p.section_, p.cfg, p.index, p.offset⟩

/-- `[what][index][section][cfg][index][offset u16][bytes]`, decoded into the patch that replays
it. -/
def patchEntryFromPayload : List UInt8 → Option Patch
  | _ :: _ :: sec :: cfg :: index :: offLo :: offHi :: bytes => do
    let section_ ← PatchSection.fromU8 sec
    return ⟨section_, cfg, index, fromLeBytes offLo offHi, bytes⟩
  | _ => none

end Medius.Types
