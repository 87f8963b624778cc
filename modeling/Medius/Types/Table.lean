import Medius.Types.Catch
import Medius.Types.Patch
import Medius.Types.Reply
import Medius.Types.Rewrite
import Medius.Types.Transform

/-! Replies that list a table's rows, as many as a byte of theirs says. -/

namespace Medius.Types

open Protocol Checked
open Checked.Reading (refused ofOption)

structure ClockEstimate where
  offsetUs : Int32
  ratePpb : Option Int32
  delayUs : UInt16
  age : Option UInt16
  deriving DecidableEq

/-- The twelve-byte clock block. -/
def ClockEstimate.fromPayload (p : List UInt8) : Reading ClockEstimate := do
  if p.length < 12 then refused
  else
    let ageMs ← le16 p 10
    let offsetUs ← le32 p 0
    let rate ← le32 p 4
    return {
      offsetUs := offsetUs.toInt32
      ratePpb := if rate.toInt32 = clkRateNone then none else some rate.toInt32
      delayUs := ← le16 p 8
      age := if ageMs = 0xFFFF then none else some ageMs }

structure CatchEntry where
  filter : CatchFilter
  dropped : UInt16
  deriving DecidableEq

structure CatchState where
  tableFull : Bool
  dropped : UInt32
  clock : ClockEstimate
  entries : List CatchEntry
  deriving DecidableEq

namespace CatchState

abbrev hdr : Nat := 19
abbrev entry : Nat := 7

/-- An entry this build cannot name is passed over. -/
def readEntry (p : List UInt8) (o : Nat) : Reading (Option CatchEntry) := do
  match CatchFilter.fromWire (← index p o) (← le16 p (o + 1)) (← index p (o + 3))
      (← index p (o + 4)) with
  | none => return none
  | some filter => return some { filter := filter, dropped := ← le16 p (o + 5) }

/-- So many entries from `o` on, or as many as the payload has. -/
def readEntries (p : List UInt8) : Nat → Nat → Reading (List (Option CatchEntry))
  | 0, _ => return []
  | n + 1, o => do
    if o + entry > p.length then return []
    else return (← readEntry p o) :: (← readEntries p n (o + entry))

def fromPayload (p : List UInt8) : Reading CatchState := do
  if p.length < hdr then refused
  else
    let n ← index p 18
    let entries ← readEntries p n.toNat hdr
    return {
      tableFull := (← index p 1) &&& 0x01 ≠ 0
      dropped := ← le32 p 2
      clock := ← ClockEstimate.fromPayload (← slice p 6 18)
      entries := entries.reduceOption }

end CatchState

/-- So many rows of `size` bytes from `base` on, each of them whole. -/
def readRows {α : Type} (size : Nat) (readRow : List UInt8 → Reading (Option α)) (p : List UInt8)
    (base n : Nat) : Reading (List α) := do
  let rows ← (List.range n).mapM fun i => do
    let o := base + size * i
    readRow (← ofOption (slice? p o (o + size)))
  return rows.reduceOption

structure RewriteEntry where
  class_ : RewriteClass
  id : UInt16
  direction : Direction
  action : RewriteAction
  matchLen : UInt8
  offset : UInt16
  payloadLen : UInt16
  hits : UInt16
  deriving DecidableEq

structure RewriteTable where
  tableFull : Bool
  generation : UInt8
  entries : List RewriteEntry
  deriving DecidableEq

/-- A row a newer box added is passed over. -/
def RewriteEntry.readRow (row : List UInt8) : Reading (Option RewriteEntry) := do
  match RewriteClass.fromU8 (← index row 0), RewriteAction.fromU8 (← index row 4) with
  | some class_, some action =>
    match Direction.fromU8 (← index row 3) with
    | some direction =>
      return some {
        class_ := class_
        id := ← le16 row 1
        direction := direction
        action := action
        matchLen := ← index row 5
        offset := ← le16 row 6
        payloadLen := ← le16 row 8
        hits := ← le16 row 10 }
    | none => return none
  | _, _ => return none

def RewriteTable.fromPayload (p : List UInt8) : Reading RewriteTable := do
  if p.length < 4 then refused
  else
    let tableFull := (← index p 1) &&& 0x01 ≠ 0
    let generation ← index p 2
    let n ← index p 3
    return {
      tableFull := tableFull
      generation := generation
      entries := ← readRows 12 RewriteEntry.readRow p 4 n.toNat }

structure PatchEntry where
  section_ : PatchSection
  cfg : UInt8
  index : UInt8
  offset : UInt16
  len : UInt16
  deriving DecidableEq

structure PatchSet where
  applied : Bool
  pending : Bool
  refused : Bool
  tableFull : Bool
  entries : List PatchEntry
  deriving DecidableEq

def PatchEntry.readRow (row : List UInt8) : Reading (Option PatchEntry) := do
  match PatchSection.fromU8 (← Checked.index row 0) with
  | none => return none
  | some section_ =>
    return some {
      section_ := section_
      cfg := ← Checked.index row 1
      index := ← Checked.index row 2
      offset := ← le16 row 3
      len := ← le16 row 5 }

def PatchSet.fromPayload (p : List UInt8) : Reading PatchSet := do
  if p.length < 3 then Reading.refused
  else
    let flags ← index p 1
    let n ← index p 2
    return {
      applied := flags &&& 0x01 ≠ 0
      pending := flags &&& 0x02 ≠ 0
      refused := flags &&& 0x04 ≠ 0
      tableFull := flags &&& 0x08 ≠ 0
      entries := ← readRows 7 PatchEntry.readRow p 3 n.toNat }

def TransformOp.fromU8 (v : UInt8) : Option TransformOp :=
  if v = tfRemap then some .remap else if v = tfSwap then some .swap else none

structure Transforms where
  tableFull : Bool
  entries : List Transform
  deriving DecidableEq

def Transform.readRow (row : List UInt8) : Reading (Option Transform) := do
  let op := TransformOp.fromU8 (← index row 0)
  let source := LockTarget.fromClassId (← index row 1) (← le16 row 2)
  let dest := LockTarget.fromClassId (← index row 4) (← le16 row 5)
  match op, source, dest with
  | some op, some source, some dest => return some ⟨op, source, dest⟩
  | _, _, _ => return none

def Transforms.fromPayload (p : List UInt8) : Reading Transforms := do
  if p.length < 3 then refused
  else
    let tableFull := (← index p 1) &&& tfFFull ≠ 0
    let n ← index p 2
    return { tableFull := tableFull, entries := ← readRows 7 Transform.readRow p 3 n.toNat }

/-- `patchEntryFromPayload` with the header indexed as the source does. -/
def readPatchEntry (p : List UInt8) : Reading Patch := do
  let hdr ← ofOption (slice? p 0 7)
  let section_ ← ofOption (PatchSection.fromU8 (← index hdr 2))
  return {
    section_ := section_
    cfg := ← index hdr 3
    index := ← index hdr 4
    offset := ← le16 hdr 5
    bytes := ← ofOption (sliceFrom? p 7) }

/-- `rewriteEntryFromPayload` with the header indexed as the source does. -/
def readRewriteEntry (p : List UInt8) : Reading RewriteRule := do
  let hdr ← ofOption (slice? p 0 11)
  let class_ ← ofOption (RewriteClass.fromU8 (← index hdr 2))
  let id ← le16 hdr 3
  let direction ← ofOption (Direction.fromU8 (← index hdr 5))
  let action ← ofOption (RewriteAction.fromU8 (← index hdr 7))
  let offset ← le16 hdr 8
  let mlen := (← index hdr 10).toNat
  return {
    class_ := class_
    id := id
    direction := direction
    action := action
    offset := offset
    matchBytes := ← ofOption (slice? p 11 (11 + mlen))
    mask := ← ofOption (slice? p (11 + mlen) (11 + 2 * mlen))
    payload := ← ofOption (sliceFrom? p (11 + 2 * mlen)) }

end Medius.Types
