import Mathlib.Data.List.Induction

/-! Pieces put one after another into packs, each cut before it would pass a limit. -/

universe u

namespace Packing

variable {α : Type u}

/-- The packs cut so far, and the one being filled. -/
def push (limit : Nat) (s : List (List α) × List α) (piece : List α) : List (List α) × List α :=
  if s.2 ≠ [] ∧ limit < s.2.length + piece.length then (s.1 ++ [s.2], piece)
  else (s.1, s.2 ++ piece)

def finish (s : List (List α) × List α) : List (List α) := if s.2 = [] then s.1 else s.1 ++ [s.2]

def pack (limit : Nat) (pieces : List (List α)) : List (List α) :=
  finish (pieces.foldl (push limit) ([], []))

/-- Whatever the limit, nothing is lost. -/
theorem flatten_pack (limit : Nat) (pieces : List (List α)) :
    (pack limit pieces).flatten = pieces.flatten := by
  have hpush : ∀ (ps : List (List α)) (s : List (List α) × List α),
      (finish (ps.foldl (push limit) s)).flatten = s.1.flatten ++ s.2 ++ ps.flatten := by
    intro ps
    induction ps with
    | nil =>
      intro s
      by_cases he : s.2 = [] <;> simp [finish, he]
    | cons p ps ih =>
      intro s
      rw [List.foldl_cons, ih, push]
      split <;> simp
  exact (hpush pieces ([], [])).trans (by simp)

/-- The packs are the pieces in order, in groups; `group` is what is in the last. -/
structure Packed (limit : Nat) (pieces : List (List α)) (groups : List (List (List α)))
    (group : List (List α)) (s : List (List α) × List α) : Prop where
  pieces : groups.flatten ++ group = pieces
  cut : s.1 = groups.map List.flatten
  filling : s.2 = group.flatten
  full : ∀ c ∈ s.1, c ≠ [] ∧ c.length ≤ limit
  room : s.2.length ≤ limit

variable {limit : Nat} {pieces : List (List α)}

theorem Packed.push {groups : List (List (List α))} {group : List (List α)}
    {s : List (List α) × List α} (h : Packed limit pieces groups group s) {piece : List α}
    (hfits : piece.length ≤ limit) :
    ∃ groups group, Packed limit (pieces ++ [piece]) groups group (push limit s piece) := by
  unfold Packing.push
  split
  next hcut =>
    refine ⟨groups ++ [group], [piece], ?_, ?_, by simp, fun c hc => ?_, hfits⟩
    · simp [← h.pieces]
    · simp [h.cut, h.filling]
    · obtain hc | hc := List.mem_append.mp hc
      · exact h.full c hc
      · rw [List.mem_singleton.mp hc]
        exact ⟨hcut.1, h.room⟩
  next hkeep =>
    refine ⟨groups, group ++ [piece], ?_, h.cut, ?_, h.full, ?_⟩
    · simp [← h.pieces]
    · simp [h.filling]
    · rw [List.length_append]
      by_cases he : s.2 = []
      · simpa [he] using hfits
      · exact Nat.not_lt.mp fun hlt => hkeep ⟨he, hlt⟩

theorem foldl_packed (hfits : ∀ p ∈ pieces, p.length ≤ limit) :
    ∃ groups group, Packed limit pieces groups group (pieces.foldl (push limit) ([], [])) := by
  induction pieces using List.reverseRecOn with
  | nil => exact ⟨[], [], rfl, rfl, rfl, nofun, Nat.zero_le _⟩
  | append_singleton pieces piece ih =>
    obtain ⟨groups, group, h⟩ := ih fun p hp => hfits p (List.mem_append_left _ hp)
    rw [List.foldl_append]
    exact h.push (hfits piece (by simp))

/-- No pack is empty or past the limit, and each is a whole number of the pieces, in order. -/
theorem pack_spec (hfits : ∀ p ∈ pieces, p.length ≤ limit) (hne : ∀ p ∈ pieces, p ≠ []) :
    (∀ c ∈ pack limit pieces, c ≠ [] ∧ c.length ≤ limit) ∧
      ∃ groups : List (List (List α)), groups.flatten = pieces ∧
        pack limit pieces = groups.map List.flatten := by
  obtain ⟨groups, group, h⟩ := foldl_packed hfits
  unfold pack finish
  split
  next he =>
    have hgroup : group = [] := by
      cases group with
      | nil => rfl
      | cons p group =>
        have hp : p ∈ pieces := by
          rw [← h.pieces]
          exact List.mem_append_right _ List.mem_cons_self
        have hnil := h.filling.symm.trans he
        rw [List.flatten_cons] at hnil
        exact absurd (List.append_eq_nil_iff.mp hnil).1 (hne p hp)
    have hpieces := h.pieces
    rw [hgroup, List.append_nil] at hpieces
    exact ⟨h.full, groups, hpieces, h.cut⟩
  next hlast =>
    refine ⟨fun c hc => ?_, groups ++ [group], ?_, ?_⟩
    · obtain hc | hc := List.mem_append.mp hc
      · exact h.full c hc
      · rw [List.mem_singleton.mp hc]
        exact ⟨hlast, h.room⟩
    · rw [List.flatten_concat]
      exact h.pieces
    · rw [List.map_append, h.cut, h.filling]
      rfl

end Packing
