import Mathlib

/-! An array of slots in which one value marks a slot free.  What is held is the rest, and
slot order carries no meaning. -/

universe u

namespace SlotArray

variable {α : Type u} [DecidableEq α]

def held (z : α) (l : List α) : List α := l.filter (· ≠ z)

def release (z a : α) (l : List α) : List α := l.map fun s => if s = a then z else s

def take (z a : α) (l : List α) : List α := l.replace z a

theorem held_cons (z s : α) (l : List α) :
    held z (s :: l) = if s = z then held z l else s :: held z l := by
  by_cases h : s = z <;> simp [held, h]

theorem mem_held {z a : α} {l : List α} : a ∈ held z l ↔ a ∈ l ∧ a ≠ z := by
  simp [held]

theorem length_release (z a : α) (l : List α) : (release z a l).length = l.length :=
  List.length_map _

theorem length_take (z a : α) (l : List α) : (take z a l).length = l.length :=
  List.length_replace

theorem mem_release {z a b : α} {l : List α} (hb : b ≠ z) :
    b ∈ release z a l ↔ b ∈ l ∧ b ≠ a := by
  simp only [release, List.mem_map]
  constructor
  · rintro ⟨s, hs, h⟩
    split at h
    next => exact absurd h.symm hb
    next hsa => exact h ▸ ⟨hs, hsa⟩
  · rintro ⟨hs, hba⟩
    exact ⟨b, hs, if_neg hba⟩

theorem held_release (z a : α) (l : List α) :
    held z (release z a l) = (held z l).filter (· ≠ a) := by
  induction l with
  | nil => rfl
  | cons s l ih =>
    rw [release, List.map_cons, ← release, held_cons, held_cons, ih]
    by_cases hs : s = a
    · by_cases hz : s = z
      · rw [if_pos hs, if_pos rfl, if_pos hz]
      · rw [if_pos hs, if_pos rfl, if_neg hz, List.filter_cons, if_neg (by simpa using hs)]
    · by_cases hz : s = z
      · rw [if_neg hs, if_pos hz, if_pos hz]
      · rw [if_neg hs, if_neg hz, if_neg hz, List.filter_cons, if_pos (by simpa using hs)]

theorem held_take_perm {z a : α} {l : List α} (hz : z ∈ l) (ha : a ≠ z) :
    (held z (take z a l)).Perm (a :: held z l) := by
  induction l with
  | nil => cases hz
  | cons s l ih =>
    by_cases hs : s = z
    · subst hs
      rw [take, List.replace_cons_self, held_cons, if_neg ha, held_cons, if_pos rfl]
    · have hz' : z ∈ l := by simpa [Ne.symm hs] using hz
      have hcons : take z a (s :: l) = s :: take z a l := by
        rw [take, List.replace_cons, beq_false_of_ne (Ne.symm hs), take]
      rw [hcons, held_cons, if_neg hs, held_cons, if_neg hs]
      exact ((ih hz').cons s).trans (.swap a s _)

theorem mem_take {z a b : α} {l : List α} (hz : z ∈ l) (ha : a ≠ z) (hb : b ≠ z) :
    b ∈ take z a l ↔ b = a ∨ b ∈ l := by
  have h := (held_take_perm hz ha).mem_iff (a := b)
  simpa [mem_held, hb] using h

theorem nodup_held_release {z a : α} {l : List α} (h : (held z l).Nodup) :
    (held z (release z a l)).Nodup := by
  rw [held_release]
  exact h.filter _

theorem nodup_held_take {z a : α} {l : List α} (h : (held z l).Nodup) (hz : z ∈ l) (ha : a ≠ z)
    (hal : a ∉ l) : (held z (take z a l)).Nodup := by
  rw [(held_take_perm hz ha).nodup_iff, List.nodup_cons]
  exact ⟨fun hm => hal (mem_held.mp hm).1, h⟩

/-- Two arrays of one length holding the same things differ in slot order only. -/
theorem perm_of_held {z : α} {l m : List α} (hl : (held z l).Nodup) (hm : (held z m).Nodup)
    (hlen : l.length = m.length) (h : ∀ a, a ≠ z → (a ∈ l ↔ a ∈ m)) : l.Perm m := by
  have hheld : (held z l).Perm (held z m) := by
    rw [List.perm_ext_iff_of_nodup hl hm]
    intro a
    simp only [mem_held]
    exact and_congr_left (h a)
  have hfree : ∀ k : List α, (held z k ++ List.replicate (k.count z) z).Perm k := by
    intro k
    have h := List.filter_append_perm (· ≠ z) k
    have hz : (k.filter fun s => !decide (s ≠ z)) = List.replicate (k.count z) z := by
      rw [← List.filter_eq]
      congr 1
      funext s
      simp
    rwa [hz] at h
  have hcount : l.count z = m.count z := by
    have hl := (hfree l).length_eq
    have hm := (hfree m).length_eq
    have := hheld.length_eq
    simp only [List.length_append, List.length_replicate] at hl hm
    omega
  have hlast : (held z l ++ List.replicate (l.count z) z).Perm m := by
    rw [hcount]
    exact (hheld.append_right _).trans (hfree m)
  exact (hfree l).symm.trans hlast

/-- A full array has no room for anything new among so few things. -/
theorem free_of_length_le {z a : α} {l M : List α} (hn : (held z l).Nodup)
    (hM : M.length ≤ l.length) (hsub : ∀ b ∈ l, b ≠ z → b ∈ M) (ha : a ∈ M) (hal : a ∉ l) :
    z ∈ l := by
  by_contra hz
  have hheld : held z l = l := by
    rw [held, List.filter_eq_self]
    intro b hb
    exact decide_eq_true fun h => hz (h ▸ hb)
  rw [hheld] at hn
  have hcons : (a :: l).Nodup := List.nodup_cons.mpr ⟨hal, hn⟩
  have hmem : a :: l ⊆ M := by
    intro b hb
    cases hb with
    | head => exact ha
    | tail _ hb => exact hsub b hb fun h => hz (h ▸ hb)
  have := (List.subperm_of_subset hcons hmem).length_le
  simp only [List.length_cons] at this
  omega

end SlotArray
