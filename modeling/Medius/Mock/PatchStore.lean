import Medius.Types.Patch

namespace Medius.Mock

open Protocol Medius.Types

/-- One stored descriptor patch. -/
structure MockPatch where
  section_ : UInt8
  cfg : UInt8
  index : UInt8
  offset : UInt16
  bytes : List UInt8
  deriving DecidableEq

def MockPatch.key (q : MockPatch) : UInt8 × UInt8 × UInt8 × UInt16 :=
  (q.section_, q.cfg, q.index, q.offset)

/-- The bytes every stored patch shares. -/
abbrev patchPool : Nat := 1024

/-- The stored set, the set the clone was last presented with, whether a re-presentation waits
for a detach's grace to end, and how many the store has brought about. -/
structure PatchStore where
  patches : List MockPatch
  presented : List MockPatch
  refused : Bool
  full : Bool
  representHeld : Bool
  represented : Nat
  deriving DecidableEq

namespace PatchStore

def default : PatchStore where
  patches := []
  presented := []
  refused := false
  full := false
  representHeld := false
  represented := 0

variable (allowed grace : Bool)

def toServe (s : PatchStore) : List MockPatch := if allowed then s.patches else []

def present (s : PatchStore) : PatchStore :=
  if grace then { s with representHeld := true }
  else if s.toServe allowed ≠ s.presented then
    { s with
      presented := s.toServe allowed, refused := false, represented := s.represented + 1 }
  else s

def clear (s : PatchStore) : PatchStore :=
  present allowed grace { s with patches := [], refused := false, full := false }

/-- Empty bytes remove the patch at the key, and the bytes it holds already change nothing.  The
bytes are costed against the pool less what an overwrite frees, then the entry count; an overwrite
moves to the end. -/
def put (s : PatchStore) (q : MockPatch) : PatchStore :=
  let pos := s.patches.findIdx? fun e => e.key = q.key
  if q.bytes.isEmpty then
    match pos with
    | some i => { s with patches := s.patches.eraseIdx i, full := false }
    | none => s
  else if (pos.bind (s.patches[·]?)).any fun e => e.bytes = q.bytes then s
  else
    let used := ((s.patches.filter fun e => e.key ≠ q.key).map (·.bytes.length)).sum
    if used + q.bytes.length > patchPool ∨
        (pos.isNone ∧ s.patches.length ≥ patchMaxEntries) then
      { s with full := true }
    else
      let patches := match pos with
        | some i => s.patches.eraseIdx i
        | none => s.patches
      { s with patches := patches ++ [q], full := false }

def applyPatchFrame (s : PatchStore) : List UInt8 → PatchStore
  | [] => s
  | section_ :: rest =>
    if section_ = patchApply then if allowed then s.present allowed grace else s
    else if section_ = patchClear then s.clear allowed grace
    else
      match rest with
      | cfg :: index :: offLo :: offHi :: bytes =>
        if (PatchSection.fromU8 section_).isNone then s
        else s.put ⟨section_, cfg, index, fromLeBytes offLo offHi, bytes⟩
      | _ => s

def patchEntryRespPayload (s : PatchStore) (index : UInt8) : List UInt8 :=
  qPatchEntry :: index :: match s.patches[index.toNat]? with
    | some q => patchPayload q.section_ q.cfg q.index q.offset q.bytes
    | none => []

end PatchStore

end Medius.Mock
