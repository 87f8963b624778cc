import Medius.Link.Slots

namespace Medius.Mock

open Protocol Link

abbrev lockTgtBtnBase : Nat := 4
abbrev lockTgtCount : Nat := lockTgtBtnBase + maxButtons.toNat
abbrev lockSlotWith : Nat := 2
abbrev mediaLockMax : Nat := 8

/-- The box's lock table.  In `media`, 0 is a free slot. -/
structure LockTable where
  mouse : Fin lockTgtCount → Slots
  keyBlanket : UInt8
  keyPress : UInt8 → Bool
  keyRelease : UInt8 → Bool
  media : List UInt16
  mediaBlanket : Bool

def slotMask (dir : UInt8) : UInt8 :=
  if dir = lockDirBoth then 0x0F
  else if dir = lockDirPos then 0x01
  else if dir = lockDirNeg then 0x02
  else if dir = lockDirWith then 0x04
  else if dir = lockDirAgainst then 0x08
  else 0

def buttonTarget (b : Fin maxButtons.toNat) : Fin lockTgtCount := Fin.natAdd lockTgtBtnBase b

def axisTarget (id : Fin lockTgtBtnBase) : Fin lockTgtCount := Fin.castAdd maxButtons.toNat id

namespace LockTable

def default : LockTable where
  mouse := fun _ => Slots.default
  keyBlanket := 0
  keyPress := fun _ => false
  keyRelease := fun _ => false
  media := List.replicate mediaLockMax 0
  mediaBlanket := false

/-- What a write leaves in one slot: a button carries one bit and has no bearing, and `Both`
writes a pass to the relative pair. -/
def slotValue (target : Fin lockTgtCount) (dir : UInt8) (scale : Int16) (i : Fin 4)
    (old : Int16) : Int16 :=
  let button := lockTgtBtnBase ≤ target.val
  if (slotMask dir).toNat.testBit i then
    let v := if button then (if scale < lockScalePass then lockScaleBlock else lockScalePass)
      else scale
    if lockSlotWith ≤ i.val then
      if button ∧ dir ≠ lockDirBoth then old
      else if dir = lockDirBoth then lockScalePass
      else v
    else v
  else old

def setMouse (t : LockTable) (target : Fin lockTgtCount) (dir : UInt8) (scale : Int16) :
    LockTable :=
  { t with mouse := Function.update t.mouse target fun i =>
      slotValue target dir scale i (t.mouse target i) }

def setMouseAll (t : LockTable) (targets : List (Fin lockTgtCount)) (dir : UInt8)
    (scale : Int16) : LockTable :=
  targets.foldl (fun t target => t.setMouse target dir scale) t

/-- A button blanket writes `nButtons` rows and a higher id is dropped. -/
def apply (t : LockTable) (class_ : UInt8) (id : UInt16) (dir : UInt8) (scale : Int16)
    (nButtons : UInt8) : LockTable :=
  if scale < 0 ∧ class_ ≠ lockClsAxis then t
  else
    let on := scale < lockScalePass
    if class_ = lockClsAxis then
      if id = lockIdAll then t.setMouseAll ((List.finRange lockTgtBtnBase).map axisTarget) dir scale
      else if h : id ≤ lockAxisPan then
        t.setMouse (axisTarget ⟨id.toNat, Nat.lt_succ_of_le h⟩) dir scale
      else t
    else if class_ = lockClsBtn then
      let nbtn := min nButtons maxButtons
      if id = lockIdAll then
        t.setMouseAll (((List.finRange maxButtons.toNat).filter
          fun b => b.val < nbtn.toNat).map buttonTarget) dir scale
      else if h : id.toNat < nbtn.toNat ∧ id.toNat < maxButtons.toNat then
        t.setMouse (buttonTarget ⟨id.toNat, h.2⟩) dir scale
      else t
    else if class_ = lockClsKey then
      if id = lockIdAll then
        let m := slotMask dir &&& 0x03
        if m = 0 then t
        else { t with keyBlanket := if on then t.keyBlanket ||| m else t.keyBlanket &&& ~~~m }
      else
        let u := id.toUInt8
        if u < 0x04 then t
        else
          { t with
            keyPress := if dir = lockDirBoth ∨ dir = lockDirPos
              then Function.update t.keyPress u on else t.keyPress
            keyRelease := if dir = lockDirBoth ∨ dir = lockDirNeg
              then Function.update t.keyRelease u on else t.keyRelease }
    else if class_ = lockClsMedia then
      if id = lockIdAll then { t with mediaBlanket := on }
      else if id ≠ 0 then
        if ¬on then { t with media := t.media.map fun s => if s = id then 0 else s }
        else if id ∉ t.media then { t with media := t.media.replace 0 id }
        else t
      else t
    else t

end LockTable

end Medius.Mock
