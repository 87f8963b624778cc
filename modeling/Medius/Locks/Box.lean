import Medius.Lib.SlotArray
import Medius.Locks.Rows
import Medius.Mock.LockTable

namespace Medius.Locks

open Protocol Link Mock

/-- A momentary row with these edges blocked. -/
def edges (press release : Bool) : Slots :=
  ![if press then lockScaleBlock else lockScalePass, if release then lockScaleBlock else lockScalePass,
    lockScalePass, lockScalePass]

def boxRow (t : LockTable) : Field → Slots
  | .axis id => t.mouse (axisTarget id)
  | .button b => t.mouse (buttonTarget b)
  | .keys => edges (t.keyBlanket.toNat.testBit 0) (t.keyBlanket.toNat.testBit 1)
  | .key u => edges (t.keyPress u) (t.keyRelease u)
  | .mediaAll => edges t.mediaBlanket t.mediaBlanket
  | .media id => edges (t.media.contains id.val) (t.media.contains id.val)

/-- The box holds what the rows say at every address it has a row for. -/
def Agree (W : Rows) (t : LockTable) : Prop := ∀ f : Field, boxRow t f = W f.address

structure BoxWf (t : LockTable) : Prop where
  edge_bits : t.keyBlanket.toNat < 4
  media_length : t.media.length = mediaLockMax
  media_nodup : (SlotArray.held 0 t.media).Nodup
  media_granular : lockIdAll ∉ t.media

/-- A media usage taken has a slot to go in. -/
def Room (t : LockTable) (c : Command) : Prop :=
  c.1.1 = lockClsMedia → c.1.2.1 ≠ lockIdAll → c.2 < lockScalePass →
    c.1.2.1 ∈ t.media ∨ 0 ∈ t.media

def applyCommand (n : UInt8) (t : LockTable) (c : Command) : LockTable :=
  t.apply c.1.1 c.1.2.1 c.1.2.2 c.2 n

theorem Field.address_injective : Function.Injective Field.address := by
  intro f g h
  cases f <;> cases g <;> simp only [Field.address, Prod.mk.injEq] at h
  case axis.axis a b =>
    have := congrArg UInt16.toNat h.2
    simp only [UInt16.toNat_ofNat'] at this
    congr 1
    omega
  case button.button a b =>
    have := congrArg UInt16.toNat h.2
    simp only [UInt16.toNat_ofNat'] at this
    congr 1
    omega
  case keys.key u =>
    have := congrArg UInt16.toNat h.2
    have hu : u.toNat < 256 := u.toNat_lt
    simp only [UInt8.toNat_toUInt16] at this
    have : (65535 : Nat) = u.toNat := this
    omega
  case key.keys u =>
    have := congrArg UInt16.toNat h.2
    have hu : u.toNat < 256 := u.toNat_lt
    simp only [UInt8.toNat_toUInt16] at this
    have : u.toNat = (65535 : Nat) := this
    omega
  case key.key u v =>
    have := congrArg UInt16.toNat h.2
    simp only [UInt8.toNat_toUInt16, UInt8.toNat_inj] at this
    rw [this]
  case mediaAll.media id => exact absurd h.2.symm id.property.2
  case media.mediaAll id => exact absurd h.2 id.property.2
  case media.media a b => rw [Subtype.ext h.2]
  case keys.keys | mediaAll.mediaAll => rfl
  all_goals exact absurd h.1 (by decide)

theorem slotValue_axis (a : Fin 4) (d : Types.Direction) (scale : Int16) (r : Slots) :
    (fun i => LockTable.slotValue (axisTarget a) d.asU8 scale i (r i)) = r.write d.asU8 scale := by
  have ha : ¬lockTgtBtnBase ≤ (axisTarget a).val := Nat.not_le.mpr a.isLt
  funext i
  simp only [LockTable.slotValue, ha, if_false, false_and]
  cases d <;> fin_cases i <;> rfl

theorem slotValue_button (b : Fin 16) (d : Types.Direction) (hd : d.isRelative = false)
    (scale : Int16) (r : Slots) :
    (fun i => LockTable.slotValue (buttonTarget b) d.asU8 scale i (r i)) =
      r.write d.asU8 (momentaryScale lockClsBtn scale) := by
  have hb : lockTgtBtnBase ≤ (buttonTarget b).val := Nat.le_add_right _ _
  have hs : momentaryScale lockClsBtn scale =
      if scale < lockScalePass then lockScaleBlock else lockScalePass := rfl
  funext i
  simp only [LockTable.slotValue, hb, if_true, true_and, ← hs]
  cases d with
  | both | positive | negative => fin_cases i <;> rfl
  | with_ | against => cases hd

theorem axisTarget_ne_buttonTarget (a : Fin 4) (b : Fin 16) : axisTarget a ≠ buttonTarget b := by
  intro h
  have := congrArg Fin.val h
  have ha := a.isLt
  simp only [axisTarget, buttonTarget, Fin.val_castAdd, Fin.val_natAdd] at this
  omega

theorem axisTarget_injective : Function.Injective axisTarget := Fin.castAdd_injective _ _

theorem buttonTarget_injective : Function.Injective buttonTarget := Fin.natAdd_injective _ _

theorem setMouseAll_mouse (ts : List (Fin lockTgtCount)) (hn : ts.Nodup) (t : LockTable)
    (dir : UInt8) (scale : Int16) (g : Fin lockTgtCount) :
    (t.setMouseAll ts dir scale).mouse g =
      if g ∈ ts then fun i => LockTable.slotValue g dir scale i (t.mouse g i) else t.mouse g := by
  induction ts generalizing t with
  | nil => simp [LockTable.setMouseAll]
  | cons b ts ih =>
    simp only [List.nodup_cons] at hn
    rw [LockTable.setMouseAll, List.foldl_cons, ← LockTable.setMouseAll, ih hn.2]
    by_cases hg : g = b
    · subst hg
      simp [hn.1, LockTable.setMouse]
    · simp [hg, LockTable.setMouse]

theorem setMouseAll_rest (ts : List (Fin lockTgtCount)) (t : LockTable) (dir : UInt8)
    (scale : Int16) :
    t.setMouseAll ts dir scale = { t with mouse := (t.setMouseAll ts dir scale).mouse } := by
  induction ts generalizing t with
  | nil => rfl
  | cons b ts ih =>
    rw [LockTable.setMouseAll, List.foldl_cons, ← LockTable.setMouseAll, ih]
    rfl

end Medius.Locks
