import Medius.Lib.Bounded

/-! Keyed tables with so many places and one budget that all their entries share. -/

universe u v

namespace Keyed

variable {α : Type u} {κ : Type v} [DecidableEq κ]

/-- Each key once, within the count and the budget, and each entry one that may be held. -/
structure Stocked (key : α → κ) (cost : α → Nat) (count budget : Nat) (ok : α → Prop)
    (l : List α) : Prop where
  keyed : (l.map key).Nodup
  count : l.length ≤ count
  budget : (l.map cost).sum ≤ budget
  entries : ∀ a ∈ l, ok a

section

variable {key : α → κ} {cost : α → Nat} {count budget : Nat} {ok : α → Prop} {l l' : List α}

omit [DecidableEq κ] in
theorem Stocked.nil : Stocked key cost count budget ok [] where
  keyed := List.nodup_nil
  count := Nat.zero_le _
  budget := Nat.zero_le _
  entries := fun _ h => absurd h List.not_mem_nil

omit [DecidableEq κ] in
theorem Stocked.sublist (h : Stocked key cost count budget ok l) (hsub : l'.Sublist l) :
    Stocked key cost count budget ok l' where
  keyed := h.keyed.sublist (hsub.map key)
  count := hsub.length_le.trans h.count
  budget := ((hsub.map cost).sum_le_sum fun _ _ => Nat.zero_le _).trans h.budget
  entries := fun a ha => h.entries a (hsub.mem ha)

theorem length_remove_lt {l : List α} {k : κ} (h : ∃ b ∈ l, key b = k) :
    (remove key l k).length < l.length := by
  unfold remove
  cases hi : position key l k with
  | none =>
    obtain ⟨b, hb, hk⟩ := h
    exact absurd hk ((position_eq_none key l _).mp hi b hb)
  | some i =>
    obtain ⟨hlt, -⟩ := List.findIdx?_eq_some_iff_getElem.mp hi
    dsimp only
    rw [List.length_eraseIdx_of_lt hlt]
    omega

/-- A new entry goes last, in place of the one that holds its key; what that one costs is free
again. -/
theorem Stocked.replaceLast (h : Stocked key cost count budget ok l) {a : α} (ha : ok a)
    (hcost : ((l.filter fun b => key b ≠ key a).map cost).sum + cost a ≤ budget)
    (hplace : (∃ b ∈ l, key b = key a) ∨ l.length < count) :
    Stocked key cost count budget ok (remove key l (key a) ++ [a]) := by
  have hrest := h.sublist (remove_sublist key l (key a))
  have hmem : ∀ b ∈ remove key l (key a), key b ≠ key a := fun b hb =>
    ((mem_remove key h.keyed).mp hb).2
  refine ⟨append_nodup key hrest.keyed hmem, ?_, ?_, fun b hb => ?_⟩
  · rw [List.length_append, List.length_singleton]
    obtain hheld | hfree := hplace
    · exact (length_remove_lt hheld).trans_le h.count
    · exact Nat.succ_le_of_lt ((remove_sublist key l (key a)).length_le.trans_lt hfree)
  · rw [List.map_append, List.sum_append, remove_eq_filter key h.keyed]
    exact hcost
  · rw [List.mem_append, List.mem_singleton] at hb
    obtain hb | rfl := hb
    · exact hrest.entries b hb
    · exact ha

/-- A table whose entries cost nothing takes a new key while it has a place. -/
theorem Stocked.setWithin {room : List α → α → Prop} [∀ l a, Decidable (room l a)]
    (h : Stocked key (fun _ => 0) count budget ok l) {a : α} (ha : ok a)
    (hroom : room l a → l.length < count) :
    Stocked key (fun _ => 0) count budget ok (Keyed.setWithin key room l a) := by
  refine ⟨setWithin_nodup key room h.keyed a, ?_, by simp, fun b hb => ?_⟩
  · obtain ⟨hset, hheld | hfree⟩ | ⟨hset, -, -⟩ := setWithin_cases key room l a
    · rw [hset, length_setInPlace_of_mem key hheld]
      exact h.count
    · rw [hset]
      exact (length_setInPlace_le key l a).trans (hroom hfree)
    · rw [hset]
      exact h.count
  · obtain rfl | hb := mem_setWithin key room hb
    · exact ha
    · exact h.entries b hb

end

end Keyed
