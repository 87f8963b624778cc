import Medius.Locks.Reached
import Medius.Replay.Held

/-! The lock rows every reachable state holds. -/

namespace Medius.Replay

open Protocol Link Locks Device Medius.Types

/-- A command `sendLock` lets through, whatever its class byte. -/
theorem shapely_of_lockCommand {class_ : UInt8} {id : UInt16} {direction : Direction}
    {given : Int16} {c : Command} (h : lockCommand class_ id direction given = .ok c) :
    Shapely c := by
  obtain ⟨dir, rfl, hmomentary, hmedia⟩ := lockCommand_ok h
  refine fun r hr => ⟨fun hcls => ?_, fun hcls => ?_⟩
  · exact (hr.momentary hcls).write (hmomentary hcls).1 (momentaryScale_one_bit hcls _)
  · obtain rfl := hmedia hcls
    rfl

/-- The rows are as they should be for the buttons the host takes the device to declare. -/
structure Rowed (d : DesiredState) : Prop where
  rows : RowsWf d.buttonCount.toNat d
  count : d.buttonCount.toNat ≤ 16

theorem Rowed.of_locks {d d' : DesiredState} (h : Rowed d) (hlocks : d'.locks = d.locks)
    (hcount : d'.buttonCount.toNat ≤ 16) : Rowed d' := by
  have hrow : ∀ a, hostRow d' a = hostRow d a := fun a => by rw [hostRow, hostRow, hlocks]
  refine ⟨⟨rfl, fun a => ?_, fun a => ?_, fun hb id hid => ?_⟩, hcount⟩
  · rw [hlocks]
    exact h.rows.no_clear a
  · rw [hrow]
    exact h.rows.shape a
  · rw [hrow] at hb ⊢
    exact h.rows.blanket_alone hb id hid

theorem Rowed.of_declared {d d' : DesiredState} (h : Rowed d) (hlocks : d'.locks = d.locks)
    (hdeclared : d'.declaredButtons = d.declaredButtons) : Rowed d' := by
  refine h.of_locks hlocks ?_
  rw [DesiredState.buttonCount, hdeclared]
  exact h.count

theorem rowed_of_no_locks {d : DesiredState} (hlocks : d.locks = ∅)
    (hcount : d.buttonCount.toNat ≤ 16) : Rowed d := by
  have hrow : ∀ a, hostRow d a = Slots.default := fun a => by
    rw [hostRow, hlocks]
    exact Std.ExtTreeMap.getD_empty
  refine ⟨⟨rfl, fun a => ?_, fun a => ?_, fun hb => ?_⟩, hcount⟩
  · rw [hlocks]
    simp
  · rw [hrow]
    exact RowShape.default a
  · exact absurd (hrow _) hb

theorem buttonCount_noteDeclaredButtons (d : DesiredState) (n : UInt8) :
    (d.noteDeclaredButtons n).buttonCount.toNat ≤ 16 :=
  UInt8.le_iff_toNat_le.mp (min_maxButtons_le n)

theorem Rowed.applyLock {d : DesiredState} (h : Rowed d) {c : Command} (hc : Shapely c) :
    Rowed (d.applyLock c.1 c.2).1 := by
  refine ⟨?_, ?_⟩
  · rw [buttonCount_applyLock]
    exact h.rows.applyLock h.count hc
  · rw [buttonCount_applyLock]
    exact h.count

theorem rowed_recorded {d d' : DesiredState} (h : Rowed d) (hr : Recorded d d') : Rowed d' := by
  cases hr with
  | lock hc => exact h.applyLock (shapely_of_lockCommand hc)
  | reset => exact rowed_of_no_locks rfl h.count
  | caps n => exact h.of_locks rfl (buttonCount_noteDeclaredButtons d n)
  | apply usage action =>
    unfold DesiredState.apply
    split <;> exact h.of_declared rfl rfl
  | setRewrite =>
    rw [DesiredState.applyRewrite_eq]
    exact h.of_declared rfl rfl
  | removeRewrite key =>
    rw [DesiredState.removeRewrite_eq]
    exact h.of_declared rfl rfl
  | setTransform =>
    rw [DesiredState.applyTransform_eq]
    exact h.of_declared rfl rfl
  | removeTransform key =>
    rw [DesiredState.removeTransform_eq]
    exact h.of_declared rfl rfl
  | bindPacket =>
    rw [DesiredState.clipPacketBind_eq]
    exact h.of_declared rfl rfl
  | _ => exact h.of_declared rfl rfl

theorem rowed_of_reachable {d : DesiredState} (h : Reachable d) : Rowed d :=
  h.invariant (rowed_of_no_locks rfl (by decide)) fun _ _ _ hrowed hr => rowed_recorded hrowed hr

end Medius.Replay
