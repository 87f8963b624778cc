import Medius.Types.Direction

namespace Medius.Link

open Protocol

/-- One row of the box's lock table: the scale each of the four slots holds. -/
abbrev Slots := Fin 4 → Int16

instance instNeZeroSlots : NeZero 4 := ⟨Nat.succ_ne_zero 3⟩

def slotDirs : Fin 4 → UInt8 := ![lockDirPos, lockDirNeg, lockDirWith, lockDirAgainst]

namespace Slots

def default : Slots := fun _ => lockScalePass

def write (r : Slots) (dir : UInt8) (scale : Int16) : Slots :=
  if dir = lockDirBoth then ![scale, scale, lockScalePass, lockScalePass]
  else fun i => if slotDirs i = dir then scale else r i

def isClear (r : Slots) : Bool := (List.finRange 4).all fun i => r i = lockScalePass

/-- The commands that rebuild the row on a box holding nothing. -/
def commands (r : Slots) : List (UInt8 × Int16) :=
  if r 0 = r 1 ∧ r 2 = lockScalePass ∧ r 3 = lockScalePass then
    if r 0 = lockScalePass then [] else [(lockDirBoth, r 0)]
  else
    ((List.finRange 4).filter fun i => r i ≠ lockScalePass).map fun i => (slotDirs i, r i)

def writeAll (r : Slots) (cs : List (UInt8 × Int16)) : Slots :=
  cs.foldl (fun r c => r.write c.1 c.2) r

@[simp] theorem writeAll_nil (r : Slots) : r.writeAll [] = r := rfl

@[simp] theorem writeAll_cons (r : Slots) (c : UInt8 × Int16) (cs : List (UInt8 × Int16)) :
    r.writeAll (c :: cs) = (r.write c.1 c.2).writeAll cs := rfl

theorem slotDirs_injective : Function.Injective slotDirs := by decide

theorem slotDirs_ne_both (i : Fin 4) : slotDirs i ≠ lockDirBoth := by
  revert i
  decide

theorem write_both (r : Slots) (scale : Int16) :
    r.write lockDirBoth scale = ![scale, scale, lockScalePass, lockScalePass] := rfl

theorem write_named (r : Slots) {dir : UInt8} (h : dir ≠ lockDirBoth) (scale : Int16) :
    r.write dir scale = fun i => if slotDirs i = dir then scale else r i := if_neg h

theorem write_slotDir (r : Slots) (i : Fin 4) (scale : Int16) :
    r.write (slotDirs i) scale = Function.update r i scale := by
  funext j
  simp only [write, slotDirs_ne_both, if_false, Function.update_apply, slotDirs_injective.eq_iff]

theorem isClear_iff (r : Slots) : r.isClear = true ↔ r = default := by
  simp [isClear, default, funext_iff]

/-- Writing a list of slots one by one leaves each of them at its own scale. -/
theorem writeAll_slots (is : List (Fin 4)) (r s : Slots) (i : Fin 4) :
    s.writeAll (is.map fun i => (slotDirs i, r i)) i = if i ∈ is then r i else s i := by
  induction is generalizing s with
  | nil => simp
  | cons j is ih =>
    rw [List.map_cons, writeAll_cons, ih, write_slotDir]
    by_cases hi : i ∈ is
    · simp [hi]
    · by_cases hj : i = j
      · subst hj
        simp
      · simp [hi, hj]

theorem commands_rebuild (r : Slots) : default.writeAll r.commands = r := by
  unfold commands
  split
  next h =>
    obtain ⟨hpn, hw, ha⟩ := h
    split
    next hp =>
      funext i
      fin_cases i
      · exact hp.symm
      · exact (hpn.symm.trans hp).symm
      · exact hw.symm
      · exact ha.symm
    next hp =>
      funext i
      fin_cases i
      · rfl
      · exact hpn
      · exact hw.symm
      · exact ha.symm
  next h =>
    funext i
    rw [writeAll_slots]
    by_cases hi : r i = lockScalePass
    · simp [hi, default]
    · simp [hi]

end Slots

end Medius.Link
