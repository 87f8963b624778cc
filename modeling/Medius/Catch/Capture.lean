import Medius.Types.Catch

/-! Captures by length: the order in which one keeps more of a packet than another. -/

namespace Medius.Catch

open Medius.Types

/-- A capture as a length, the whole packet being the longest. -/
def width (c : Capture) : Nat := c.bytes.elim 256 UInt8.toNat

theorem bytes_first {n : UInt8} (h : n ≠ 0) : (Capture.first n).bytes = some n := if_neg h

theorem ne_zero_of_bytes {c : Capture} {n : UInt8} (h : c.bytes = some n) : n ≠ 0 := by
  rintro rfl
  cases c with
  | whole => cases h
  | first m =>
    by_cases hm : m = 0
    · simp [Capture.bytes, hm] at h
    · simp [Capture.bytes, hm] at h

theorem toNat_max (a b : UInt8) : (max a b).toNat = max a.toNat b.toNat := by
  have hmax : max a b = if a ≤ b then b else a := rfl
  by_cases h : a ≤ b
  · rw [hmax, if_pos h, Nat.max_eq_right (UInt8.le_iff_toNat_le.mp h)]
  · rw [hmax, if_neg h, Nat.max_eq_left]
    exact Nat.le_of_not_le fun h' => h (UInt8.le_iff_toNat_le.mpr h')

theorem width_of_bytes {c : Capture} {n : UInt8} (h : c.bytes = some n) : width c = n.toNat := by
  rw [width, h]
  rfl

theorem width_of_none {c : Capture} (h : c.bytes = none) : width c = 256 := by
  rw [width, h]
  rfl

theorem width_le (c : Capture) : width c ≤ 256 := by
  cases h : c.bytes with
  | none => rw [width_of_none h]
  | some n => exact width_of_bytes h ▸ n.toNat_lt.le

@[simp] theorem width_widest (a b : Capture) : width (a.widest b) = max (width a) (width b) := by
  unfold Capture.widest
  split
  next x y hx hy =>
    have hne : max x y ≠ 0 := by
      intro h0
      have hpos : 0 < x.toNat := Nat.pos_of_ne_zero fun h => ne_zero_of_bytes hx
        (UInt8.toNat_inj.mp h)
      have hmax := toNat_max x y
      rw [h0] at hmax
      change 0 = _ at hmax
      omega
    rw [width_of_bytes (bytes_first hne), width_of_bytes hx, width_of_bytes hy, toNat_max]
  next hnone =>
    change 256 = _
    cases ha : a.bytes with
    | none => rw [width_of_none ha, Nat.max_eq_left (width_le b)]
    | some x =>
      cases hb : b.bytes with
      | none => rw [width_of_none hb, Nat.max_eq_right (width_le a)]
      | some y => exact absurd hb (hnone x y ha)

@[simp] theorem width_normal (c : Capture) : width c.normal = width c := by
  cases h : c.bytes with
  | none => rw [Capture.normal, h, width_of_none h]; rfl
  | some n =>
    rw [Capture.normal, h, width_of_bytes h]
    exact width_of_bytes (bytes_first (ne_zero_of_bytes h))

/-- The wider of the two is the second. -/
def Within (a b : Capture) : Prop := (a.widest b).bytes = b.bytes

theorem width_injective {a b : Capture} : width a = width b ↔ a.bytes = b.bytes := by
  refine ⟨fun h => ?_, fun h => by rw [width, width, h]⟩
  cases ha : a.bytes with
  | none =>
    cases hb : b.bytes with
    | none => rfl
    | some y =>
      rw [width_of_none ha, width_of_bytes hb] at h
      exact absurd h y.toNat_lt.ne'
  | some x =>
    cases hb : b.bytes with
    | none =>
      rw [width_of_bytes ha, width_of_none hb] at h
      exact absurd h x.toNat_lt.ne
    | some y =>
      rw [width_of_bytes ha, width_of_bytes hb] at h
      rw [UInt8.toNat_inj.mp h]

theorem within_iff {a b : Capture} : Within a b ↔ width a ≤ width b := by
  rw [Within, ← width_injective, width_widest]
  exact max_eq_right_iff

end Medius.Catch
