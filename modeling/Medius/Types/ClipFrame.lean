import Medius.Types.Direction
import Medius.Types.Transfer
import Medius.Types.Usage

/-! What a clip plays, tick by tick. -/

namespace Medius.Types

open Protocol

abbrev clipEdgesMax : Nat := 8

abbrev clipRawMax : Nat := 8

/-- One append's payload. -/
abbrev clipEntryMax : Nat := maxPayload

structure RawItem where
  ep : UInt8
  direction : Direction
  bytes : List UInt8
  deriving DecidableEq

structure TransferItem where
  ep : UInt8
  setup : Setup
  out : List UInt8
  deriving DecidableEq

structure ClipFrame where
  dx : Int16 := 0
  dy : Int16 := 0
  wheel : Int16 := 0
  pan : Int16 := 0
  edges : List (Usage × Action) := []
  raw : List RawItem := []
  transfers : List TransferItem := []
  deriving DecidableEq

namespace ClipFrame

/-- A frame that carries nothing else is cursor motion. -/
def byteLen (f : ClipFrame) : Nat :=
  let motion := (if f.wheel ≠ 0 then 2 else 0) + (if f.pan ≠ 0 then 2 else 0)
  let items := (if f.edges ≠ [] then 1 + f.edges.length * 4 else 0) +
    (f.raw.map fun r => 4 + r.bytes.length).sum + (if f.raw ≠ [] then 1 else 0) +
    (f.transfers.map fun t => 9 + t.out.length).sum + (if f.transfers ≠ [] then 1 else 0)
  let xy := if f.dx ≠ 0 ∨ f.dy ≠ 0 ∨ motion + items = 0 then 4 else 0
  1 + xy + motion + items

end ClipFrame

inductive ClipEntry
  | gap (n : UInt16)
  | frame (f : ClipFrame)
  deriving DecidableEq

structure ClipBuilder where
  entries : List ClipEntry := []

namespace ClipBuilder

def gap (b : ClipBuilder) (frames : UInt16) : ClipBuilder :=
  if frames ≠ 0 then { b with entries := b.entries ++ [.gap frames] } else b

def frame (b : ClipBuilder) (f : ClipFrame) : ClipBuilder :=
  { b with entries := b.entries ++ [.frame f] }

def byteLen (b : ClipBuilder) : Nat :=
  (b.entries.map fun
    | .gap _ => 3
    | .frame f => f.byteLen).sum

end ClipBuilder

end Medius.Types
