import Medius.Locks.Reached

/-! The held locks sent over whatever the box's table holds. -/

namespace Medius.Locks

open Protocol Link Mock

/-- Every slot the host holds off pass is at the box as the host holds it. -/
def HoldsLocks (d : DesiredState) (t : LockTable) : Prop :=
  ∀ (f : Field) i, hostRows d f.address i ≠ lockScalePass →
    boxRow t f i = hostRows d f.address i

/-- Each media usage taken finds a slot when its command comes. -/
def Roomed (n : UInt8) : LockTable → List Command → Prop
  | _, [] => True
  | t, c :: cs => Room t c ∧ Roomed n (applyCommand n t c) cs

variable {n : UInt8} {t : LockTable} {d : DesiredState} {m : Nat}

theorem Agree.overlay (hn : n ≤ maxButtons) (cs : List Command) {W : Rows}
    (hcs : ∀ c ∈ cs, Accepted n.toNat c) (hroom : Roomed n t cs) (hwf : BoxWf t) (h : Agree W t) :
    Agree (Writes.writeAll act W (cs.flatMap (rowWrites n.toNat))) (cs.foldl (applyCommand n) t) := by
  induction cs generalizing W t with
  | nil => exact h
  | cons c cs ih =>
    have hc := hcs c List.mem_cons_self
    rw [List.flatMap_cons, Writes.writeAll_append, List.foldl_cons]
    exact ih (fun c hc => hcs c (List.mem_cons_of_mem _ hc)) hroom.2 (hwf.apply hn hc hroom.1)
      (h.apply hn hwf hc hroom.1)

/-- A row's commands leave each slot off pass as it is, whatever row they come over. -/
theorem writeAll_commands (r s : Slots) {i : Fin 4} (hi : r i ≠ lockScalePass) :
    s.writeAll r.commands i = r i := by
  unfold Slots.commands
  split
  next h =>
    obtain ⟨hpn, hw, ha⟩ := h
    split
    next hp =>
      exfalso
      fin_cases i
      · exact hi hp
      · exact hi (hpn ▸ hp)
      · exact hi hw
      · exact hi ha
    next =>
      fin_cases i
      · rfl
      · exact hpn
      · exact absurd hw hi
      · exact absurd ha hi
  next =>
    rw [Slots.writeAll_slots, if_pos (List.mem_filter.mpr ⟨List.mem_finRange i, by simpa using hi⟩)]

/-- With every field held declared and room for the media, nothing held is missing afterwards. -/
theorem RowsWf.overlay (hwf : RowsWf m d) (hm : m ≤ 16) (hn : n ≤ maxButtons)
    (hdecl : DeclaredLocks n.toNat d) (hbox : BoxWf t) (hroom : Roomed n t d.heldLocks) :
    HoldsLocks d (d.heldLocks.foldl (applyCommand n) t) := by
  obtain ⟨W, hW⟩ := exists_agree t
  have hrows := hW.overlay hn d.heldLocks (fun c hc => hwf.accepted_heldLocks hm hdecl hc) hroom hbox
  rw [hwf.rowWrites_heldLocks hm hdecl] at hrows
  intro f i hi
  rw [hrows f]
  have hmem : f.address ∈ (blocks d).map Prod.fst := by
    by_contra ha
    have hdefault : hostRows d f.address = Slots.default :=
      hwf.hostRows_of_no_block hm fun k r hr hcls hid => ha
        (List.mem_map_of_mem ((mem_blocks f.address r.commands).mpr ⟨k, r, hr, hcls.symm, hid, rfl⟩))
    exact hi (congrFun hdefault i)
  obtain ⟨⟨a, cs⟩, hb, ha⟩ := List.mem_map.mp hmem
  obtain ⟨k, r, hr, hcls, hid, rfl⟩ := (mem_blocks a cs).mp hb
  have hrow := hwf.hostRows_of_block hm hr hid
  rw [← hcls] at hrow
  obtain rfl : a = f.address := ha
  rw [Writes.writeAll_emit_of_mem act _ _ _ (hwf.blocks_nodup hm) hb]
  rw [show hostRows d f.address = r from hrow] at hi ⊢
  exact writeAll_commands r _ hi

end Medius.Locks
