import Medius.Protocol.Response

/-! Each reply's guard covers every byte its decoder indexes. -/

namespace Medius.Decode

open Protocol Medius.Types Checked Checked.Reading

theorem inRange_guard {α : Type} {p : List UInt8} {n : Nat} {r : Reading α}
    (h : n ≤ p.length → r.InRange) : (if p.length < n then refused else r).InRange := by
  by_cases hlen : p.length < n
  · rw [if_pos hlen]
    exact nofun
  · rw [if_neg hlen]
    exact h (Nat.le_of_not_lt hlen)

theorem inRange_version (p : List UInt8) : (Version.fromPayload p).InRange :=
  inRange_guard fun _ => by simp (disch := omega)

theorem inRange_health (p : List UInt8) : (Health.fromPayload p).InRange := by
  unfold Health.fromPayload
  split
  next w hw =>
    have hlen := length_slice? hw
    simp (disch := omega)
  next => simp

theorem inRange_deviceInfo (p : List UInt8) : (DeviceInfo.fromPayload p).InRange :=
  inRange_guard fun _ => by simp (disch := omega)

theorem inRange_caps (p : List UInt8) : (Reply.Caps.fromPayload p).InRange :=
  inRange_guard fun _ => by simp (disch := omega)

theorem inRange_rate (p : List UInt8) : (Rate.fromPayload p).InRange :=
  inRange_guard fun _ => by simp (disch := omega)

theorem inRange_stats (p : List UInt8) : (Stats.fromPayload p).InRange :=
  inRange_guard fun _ => by simp (disch := omega)

theorem inRange_imperfect (p : List UInt8) : (ImperfectStatus.fromPayload p).InRange :=
  inRange_guard fun _ => by simp (disch := omega)

theorem inRange_movementRiding (p : List UInt8) : (movementRidingFromPayload p).InRange :=
  inRange_guard fun _ => by simp (disch := omega)

theorem inRange_emitPace (p : List UInt8) : (EmitPaceStatus.fromPayload p).InRange :=
  inRange_guard fun _ => by simp (disch := omega)

theorem inRange_render (p : List UInt8) : (RenderStatus.fromPayload p).InRange :=
  inRange_guard fun _ => by simp (disch := omega)

theorem inRange_spread (p : List UInt8) : (SpreadStatus.fromPayload p).InRange :=
  inRange_guard fun _ => by simp (disch := omega)

theorem inRange_bearing (p : List UInt8) : (Bearing.fromPayload p).InRange :=
  inRange_guard fun _ => by simp (disch := omega)

@[simp] theorem inRange_chipFirmware {p : List UInt8} {i : Nat} (h : i + 4 < p.length) :
    (ChipFirmware.readAt p i).InRange := by
  unfold ChipFirmware.readAt
  simp (disch := omega)

theorem inRange_firmware (p : List UInt8) : (FirmwareInfo.fromPayload p).InRange := by
  refine inRange_guard fun h => ?_
  have hlen : 17 ≤ p.length := h
  simp (disch := omega)

theorem inRange_clock (p : List UInt8) : (ClockEstimate.fromPayload p).InRange :=
  inRange_guard fun _ => by simp (disch := omega)

/-- A loop over whole rows stays inside if one row's decoder does. -/
theorem inRange_readRows {α : Type} {size : Nat} {readRow : List UInt8 → Reading (Option α)}
    (h : ∀ row, row.length = size → (readRow row).InRange) (p : List UInt8) (base n : Nat) :
    (readRows size readRow p base n).InRange := by
  refine InRange.bind (inRange_mapM fun i _ => ?_) fun _ _ => inRange_value _
  refine InRange.bind (inRange_ofOption _) fun row hrow => h row ?_
  rw [length_slice? (ofOption_eq_value.mp hrow), Nat.add_sub_cancel_left]

theorem inRange_rewriteRow {row : List UInt8} (h : row.length = 12) :
    (RewriteEntry.readRow row).InRange := by
  unfold RewriteEntry.readRow
  refine (inRange_index (by omega)).bind fun cls _ => ?_
  refine (inRange_index (by omega)).bind fun action _ => ?_
  split
  · refine (inRange_index (by omega)).bind fun dir _ => ?_
    split
    · simp (disch := omega)
    · exact nofun
  · exact nofun

theorem inRange_rewrite (p : List UInt8) : (RewriteTable.fromPayload p).InRange := by
  refine inRange_guard fun _ => ?_
  simp (disch := omega) [inRange_readRows fun _ => inRange_rewriteRow]

theorem inRange_patchRow {row : List UInt8} (h : row.length = 7) :
    (PatchEntry.readRow row).InRange := by
  unfold PatchEntry.readRow
  refine (inRange_index (by omega)).bind fun sec _ => ?_
  split
  · exact nofun
  · simp (disch := omega)

theorem inRange_patches (p : List UInt8) : (PatchSet.fromPayload p).InRange := by
  refine inRange_guard fun _ => ?_
  simp (disch := omega) [inRange_readRows fun _ => inRange_patchRow]

theorem inRange_transformRow {row : List UInt8} (h : row.length = 7) :
    (Transform.readRow row).InRange := by
  unfold Transform.readRow
  refine (inRange_index (by omega)).bind fun op _ => ?_
  refine (inRange_index (by omega)).bind fun scls _ => ?_
  refine (inRange_le16 (by omega)).bind fun sid _ => ?_
  refine (inRange_index (by omega)).bind fun dcls _ => ?_
  refine (inRange_le16 (by omega)).bind fun did _ => ?_
  dsimp only
  split <;> exact nofun

theorem inRange_transforms (p : List UInt8) : (Transforms.fromPayload p).InRange := by
  refine inRange_guard fun _ => ?_
  simp (disch := omega) [inRange_readRows fun _ => inRange_transformRow]

theorem inRange_catchEntry {p : List UInt8} {o : Nat} (h : o + CatchState.entry ≤ p.length) :
    (CatchState.readEntry p o).InRange := by
  have hlen : o + 7 ≤ p.length := h
  unfold CatchState.readEntry
  refine (inRange_index (by omega)).bind fun cls _ => ?_
  refine (inRange_le16 (by omega)).bind fun id _ => ?_
  refine (inRange_index (by omega)).bind fun dir _ => ?_
  refine (inRange_index (by omega)).bind fun capture _ => ?_
  split
  · exact nofun
  · simp (disch := omega)

/-- The loop over the entries looks at each one's end before its bytes. -/
theorem inRange_catchEntries (p : List UInt8) (n o : Nat) :
    (CatchState.readEntries p n o).InRange := by
  induction n generalizing o with
  | zero => exact nofun
  | succ n ih =>
    unfold CatchState.readEntries
    split
    · exact nofun
    next h =>
      exact (inRange_catchEntry (Nat.le_of_not_lt h)).bind fun _ _ =>
        (ih _).bind fun _ _ => inRange_value _

theorem inRange_catch (p : List UInt8) : (CatchState.fromPayload p).InRange := by
  refine inRange_guard fun h => ?_
  have hlen : 19 ≤ p.length := h
  simp (disch := omega) [inRange_catchEntries, inRange_clock]

end Medius.Decode
