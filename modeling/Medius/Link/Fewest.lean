import Medius.Link.Slots

namespace Medius.Link.Slots

open Protocol

/-- What a slot costs on its own: one command where it holds something. -/
def weight (scale : Int16) : Nat := if scale = lockScalePass then 0 else 1

/-- What the two absolute slots cost: one command sets both where they agree. -/
def pair (pos neg : Int16) : Nat := if pos = neg then weight pos else weight pos + weight neg

def cost (r : Slots) : Nat := pair (r 0) (r 1) + weight (r 2) + weight (r 3)

/-- The two absolute slots hold one scale and a relative slot holds something as well. -/
def Mixed (r : Slots) : Prop :=
  r 0 = r 1 ∧ r 0 ≠ lockScalePass ∧ (r 2 ≠ lockScalePass ∨ r 3 ≠ lockScalePass)

@[simp] theorem weight_pass : weight lockScalePass = 0 := rfl

theorem weight_of_ne {scale : Int16} (h : scale ≠ lockScalePass) : weight scale = 1 := if_neg h

theorem weight_le_one (scale : Int16) : weight scale ≤ 1 := by
  unfold weight
  split <;> omega

@[simp] theorem pair_self (scale : Int16) : pair scale scale = weight scale := if_pos rfl

theorem pair_of_ne {pos neg : Int16} (h : pos ≠ neg) : pair pos neg = weight pos + weight neg :=
  if_neg h

theorem pair_comm (pos neg : Int16) : pair pos neg = pair neg pos := by
  by_cases h : pos = neg
  · rw [h]
  · rw [pair_of_ne h, pair_of_ne (Ne.symm h), Nat.add_comm]

theorem weight_le_pair (pos neg : Int16) : weight neg ≤ pair pos neg := by
  by_cases h : pos = neg
  · rw [h, pair_self]
  · rw [pair_of_ne h]
    exact Nat.le_add_left _ _

theorem pair_le (pos neg : Int16) : pair pos neg ≤ weight neg + 1 := by
  by_cases h : pos = neg
  · rw [h, pair_self]
    exact Nat.le_add_right _ _
  · rw [pair_of_ne h, Nat.add_comm]
    exact Nat.add_le_add_left (weight_le_one pos) _

/-- Whatever one absolute slot is set to, the pair costs at most one command more. -/
theorem pair_le_pair (pos pos' neg : Int16) : pair pos' neg ≤ pair pos neg + 1 :=
  (pair_le pos' neg).trans (Nat.add_le_add_right (weight_le_pair pos neg) 1)

@[simp] theorem cost_default : cost default = 0 := rfl

theorem cost_both (r : Slots) (scale : Int16) :
    (r.write lockDirBoth scale).cost = weight scale :=
  pair_self scale

theorem cost_slotDir_le (r : Slots) (i : Fin 4) (scale : Int16) :
    (r.write (slotDirs i) scale).cost ≤ r.cost + 1 := by
  rw [write_slotDir]
  have hscale := weight_le_one scale
  match i with
  | 0 =>
    have hpair := pair_le_pair (r 0) scale (r 1)
    change pair scale (r 1) + weight (r 2) + weight (r 3) ≤ r.cost + 1
    unfold cost
    omega
  | 1 =>
    have hpair := pair_le_pair (r 1) scale (r 0)
    rw [pair_comm, pair_comm (r 1)] at hpair
    change pair (r 0) scale + weight (r 2) + weight (r 3) ≤ r.cost + 1
    unfold cost
    omega
  | 2 =>
    change pair (r 0) (r 1) + weight scale + weight (r 3) ≤ r.cost + 1
    unfold cost
    omega
  | 3 =>
    change pair (r 0) (r 1) + weight (r 2) + weight scale ≤ r.cost + 1
    unfold cost
    omega

/-- One command raises the cost of a row by at most one. -/
theorem cost_write_le (r : Slots) (dir : UInt8) (scale : Int16) :
    (r.write dir scale).cost ≤ r.cost + 1 := by
  by_cases hboth : dir = lockDirBoth
  · rw [hboth, cost_both]
    exact (weight_le_one scale).trans (Nat.le_add_left 1 _)
  · by_cases hslot : ∃ i, slotDirs i = dir
    · obtain ⟨i, rfl⟩ := hslot
      exact cost_slotDir_le r i scale
    · have hsame : r.write dir scale = r := by
        funext i
        rw [write_named r hboth]
        exact if_neg fun h => hslot ⟨i, h⟩
      rw [hsame]
      exact Nat.le_add_right _ _

theorem cost_writeAll_le (r : Slots) (cs : List (UInt8 × Int16)) :
    (r.writeAll cs).cost ≤ r.cost + cs.length := by
  induction cs generalizing r with
  | nil => exact Nat.le_refl _
  | cons c cs ih =>
    have hstep := cost_write_le r c.1 c.2
    have hrest := ih (r.write c.1 c.2)
    rw [writeAll_cons, List.length_cons]
    omega

/-- Every list of commands that builds a row is at least as long as the row costs. -/
theorem cost_le_length {r : Slots} {cs : List (UInt8 × Int16)} (h : default.writeAll cs = r) :
    r.cost ≤ cs.length := by
  have hcost := cost_writeAll_le default cs
  rwa [h, cost_default, Nat.zero_add] at hcost

/-- The slots of a row that hold something, one command each. -/
def slotwise (r : Slots) : List (UInt8 × Int16) :=
  ((List.finRange 4).filter fun i => r i ≠ lockScalePass).map fun i => (slotDirs i, r i)

theorem length_filter_slots (r : Slots) (is : List (Fin 4)) :
    (is.filter fun i => r i ≠ lockScalePass).length = (is.map fun i => weight (r i)).sum := by
  induction is with
  | nil => rfl
  | cons i is ih =>
    by_cases h : r i = lockScalePass
    · simp [h, ← ih]
    · simp [h, weight_of_ne h, ← ih, Nat.add_comm]

theorem length_slotwise (r : Slots) :
    r.slotwise.length = weight (r 0) + weight (r 1) + weight (r 2) + weight (r 3) := by
  rw [slotwise, List.length_map, length_filter_slots]
  simp [List.finRange, Nat.add_assoc]

/-- Setting both absolute slots at once and then the relative ones. -/
def bothFirst (r : Slots) : List (UInt8 × Int16) :=
  (lockDirBoth, r 0) ::
    ([2, 3].filter fun i => r i ≠ lockScalePass).map fun i => (slotDirs i, r i)

theorem bothFirst_rebuild {r : Slots} (h : r 0 = r 1) : default.writeAll r.bothFirst = r := by
  funext i
  rw [bothFirst, writeAll_cons, writeAll_slots, write_both]
  match i with
  | 0 => simp
  | 1 => simp [h]
  | 2 => by_cases hi : r 2 = lockScalePass <;> simp [hi]
  | 3 => by_cases hi : r 3 = lockScalePass <;> simp [hi]

theorem length_bothFirst (r : Slots) :
    r.bothFirst.length = 1 + weight (r 2) + weight (r 3) := by
  rw [bothFirst, List.length_cons, List.length_map, length_filter_slots]
  simp [Nat.add_comm, Nat.add_assoc]

/-- Off the mixed rows the commands cost what the row does. -/
theorem length_commands_of_not_mixed {r : Slots} (h : ¬r.Mixed) : r.commands.length = r.cost := by
  by_cases hblanket : r 0 = r 1 ∧ r 2 = lockScalePass ∧ r 3 = lockScalePass
  · rw [commands, if_pos hblanket, cost, ← hblanket.1, hblanket.2.1, hblanket.2.2, pair_self]
    by_cases hp : r 0 = lockScalePass
    · simp [hp]
    · simp [hp, weight_of_ne hp]
  · have hslots : r.commands = r.slotwise := if_neg hblanket
    rw [hslots, length_slotwise, cost]
    by_cases hpn : r 0 = r 1
    · have hp : r 0 = lockScalePass := by
        by_contra hp
        refine h ⟨hpn, hp, ?_⟩
        by_contra hrel
        rw [not_or, not_not, not_not] at hrel
        exact hblanket ⟨hpn, hrel⟩
      simp [← hpn, hp]
    · rw [pair_of_ne hpn]

theorem length_commands_of_mixed {r : Slots} (h : r.Mixed) :
    r.commands.length = r.bothFirst.length + 1 := by
  obtain ⟨hpn, hp, hrel⟩ := h
  have hslots : r.commands = r.slotwise :=
    if_neg fun hblanket => hrel.elim (fun h => h hblanket.2.1) (fun h => h hblanket.2.2)
  rw [hslots, length_slotwise, length_bothFirst, ← hpn, weight_of_ne hp]
  omega

/-- The commands of a row rebuild it, and are the fewest that do just off the mixed rows. -/
theorem commands_fewest_iff (r : Slots) :
    (default.writeAll r.commands = r ∧
      ∀ cs, default.writeAll cs = r → r.commands.length ≤ cs.length) ↔ ¬r.Mixed := by
  constructor
  · intro h hmixed
    have hle := h.2 r.bothFirst (bothFirst_rebuild hmixed.1)
    rw [length_commands_of_mixed hmixed] at hle
    omega
  · intro h
    refine ⟨commands_rebuild r, fun cs hcs => ?_⟩
    rw [length_commands_of_not_mixed h]
    exact cost_le_length hcs

/-- Both absolute slots at half, one relative slot lower: three commands where two do. -/
theorem commands_not_fewest :
    ¬∀ r : Slots, default.writeAll r.commands = r ∧
      ∀ cs, default.writeAll cs = r → r.commands.length ≤ cs.length := by
  intro h
  have hle := (h ![50, 50, 40, 100]).2 [(lockDirBoth, 50), (lockDirWith, 40)] (by decide)
  exact absurd hle (by decide)

end Medius.Link.Slots
