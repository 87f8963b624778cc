import Mathlib

/-! Edges of a set that is seen only in snapshots: what each snapshot takes away from the one
before, then what it adds. -/

universe u

inductive Edge (α : Type u)
  | press (a : α)
  | release (a : α)
  deriving DecidableEq

namespace Edge

variable {α : Type u} [DecidableEq α]

def isPress : Edge α → Bool
  | .press _ => true
  | .release _ => false

/-- Of the edges of `a`, which are presses. -/
def edgesOf (a : α) (edges : List (Edge α)) : List Bool :=
  edges.filterMap fun e =>
    match e with
    | .press b => if b = a then some true else none
    | .release b => if b = a then some false else none

def diff (was now : List α) : List (Edge α) :=
  (was.filter (· ∉ now)).map .release ++ (now.filter (· ∉ was)).map .press

theorem edgesOf_append (a : α) (edges edges' : List (Edge α)) :
    edgesOf a (edges ++ edges') = edgesOf a edges ++ edgesOf a edges' :=
  List.filterMap_append

theorem filterMap_ite_eq {β : Type} (a : α) (b : β) {l : List α} (h : l.Nodup) :
    (l.filterMap fun e => if e = a then some b else none) = if a ∈ l then [b] else [] := by
  induction l with
  | nil => rfl
  | cons e l ih =>
    obtain ⟨he, h⟩ := List.nodup_cons.mp h
    rw [List.filterMap_cons, ih h]
    by_cases hea : e = a
    · subst hea
      simp [he]
    · simp [hea, Ne.symm hea]

/-- A snapshot makes one edge of what changed, and none of what did not. -/
theorem edgesOf_diff (a : α) {was now : List α} (hwas : was.Nodup) (hnow : now.Nodup) :
    edgesOf a (diff was now) =
      if a ∈ was ∧ a ∉ now then [false] else if a ∈ now ∧ a ∉ was then [true] else [] := by
  have hr : edgesOf a ((was.filter (· ∉ now)).map .release) =
      if a ∈ was ∧ a ∉ now then [false] else [] := by
    rw [edgesOf, List.filterMap_map]
    refine (filterMap_ite_eq a false (hwas.filter _)).trans ?_
    simp only [List.mem_filter, decide_eq_true_eq]
  have hp : edgesOf a ((now.filter (· ∉ was)).map .press) =
      if a ∈ now ∧ a ∉ was then [true] else [] := by
    rw [edgesOf, List.filterMap_map]
    refine (filterMap_ite_eq a true (hnow.filter _)).trans ?_
    simp only [List.mem_filter, decide_eq_true_eq]
  rw [diff, edgesOf_append, hr, hp]
  by_cases h : a ∈ was ∧ a ∉ now
  · rw [if_pos h, if_pos h, if_neg fun h' => h.2 h'.1]
    rfl
  · rw [if_neg h, if_neg h]
    rfl

/-- Press and release take turns, and a press is first. -/
structure Alternates (edges : List Bool) : Prop where
  chain : edges.IsChain (· ≠ ·)
  head : ∀ b, edges.head? = some b → b = true

/-- The edges so far leave `a` held or not. -/
structure Tracks (a : α) (edges : List (Edge α)) (held : Prop) : Prop where
  alternates : Alternates (edgesOf a edges)
  last : (edgesOf a edges).getLast? = some true ↔ held

theorem Tracks.nil (a : α) : Tracks a [] False :=
  ⟨⟨.nil, nofun⟩, by simp [edgesOf]⟩

theorem Alternates.snoc {edges : List Bool} (h : Alternates edges) {b : Bool}
    (hb : edges.getLast? = some true ↔ b = false) : Alternates (edges ++ [b]) := by
  refine ⟨h.chain.append (.singleton b) fun x hx y hy => ?_, fun c hc => ?_⟩
  · obtain rfl : b = y := by simpa using hy
    cases x with
    | true => rw [hb.mp hx]; decide
    | false =>
      have hne : b ≠ false := fun hb' => by
        rw [hb.mpr hb'] at hx
        cases hx
      exact hne.symm
  · cases edges with
    | nil =>
      obtain rfl : b = c := by simpa using hc
      cases b with
      | true => rfl
      | false => exact absurd (hb.mpr rfl) (by simp)
    | cons e edges => exact h.head c hc

/-- Edges that say nothing of `a`. -/
theorem Tracks.aside {a : α} {edges e : List (Edge α)} {held : Prop} (h : Tracks a edges held)
    (he : edgesOf a e = []) : Tracks a (edges ++ e) held := by
  have hsame : edgesOf a (edges ++ e) = edgesOf a edges := by
    rw [edgesOf_append, he, List.append_nil]
  exact ⟨hsame ▸ h.alternates, hsame ▸ h.last⟩

theorem Tracks.diff {a : α} {edges : List (Edge α)} {was now : List α}
    (h : Tracks a edges (a ∈ was)) (hwas : was.Nodup) (hnow : now.Nodup) :
    Tracks a (edges ++ diff was now) (a ∈ now) := by
  have hd := edgesOf_diff a hwas hnow
  by_cases hw : a ∈ was
  · by_cases hn : a ∈ now
    · obtain ⟨halt, hlast⟩ := h.aside (e := Edge.diff was now) (by simp [hd, hw, hn])
      exact ⟨halt, hlast.trans (iff_of_true hw hn)⟩
    · rw [if_pos ⟨hw, hn⟩] at hd
      have hlast : (edgesOf a edges).getLast? = some true := h.last.mpr hw
      refine ⟨?_, ?_⟩
      · rw [edgesOf_append, hd]
        exact h.alternates.snoc (iff_of_true hlast rfl)
      · rw [edgesOf_append, hd]
        simp [hn]
  · by_cases hn : a ∈ now
    · rw [if_neg fun h => hw h.1, if_pos ⟨hn, hw⟩] at hd
      refine ⟨?_, ?_⟩
      · rw [edgesOf_append, hd]
        exact h.alternates.snoc (iff_of_false (fun hl => hw (h.last.mp hl)) (by decide))
      · rw [edgesOf_append, hd]
        simp [hn]
    · obtain ⟨halt, hlast⟩ := h.aside (e := Edge.diff was now) (by simp [hd, hw, hn])
      exact ⟨halt, hlast.trans (iff_of_false hw hn)⟩

theorem diff_releases_first (was now : List α) :
    (diff was now).Pairwise fun e e' => e.isPress = true → e'.isPress = true := by
  rw [diff, List.pairwise_append]
  refine ⟨?_, ?_, ?_⟩
  · exact List.pairwise_map.mpr (List.pairwise_of_forall fun _ _ h => h)
  · exact List.pairwise_map.mpr (List.pairwise_of_forall fun _ _ h => h)
  · rintro e he e' he' hp
    obtain ⟨a, -, rfl⟩ := List.mem_map.mp he
    cases hp

/-- What passes is taken once, where it first stands. -/
theorem foldl_collect (p : α → Bool) (l : List α) {now : List α} (hnow : now.Nodup) :
    (l.foldl (fun now a => if p a ∧ a ∉ now then now ++ [a] else now) now).Nodup ∧
      ∀ b, b ∈ l.foldl (fun now a => if p a ∧ a ∉ now then now ++ [a] else now) now ↔
        b ∈ now ∨ b ∈ l ∧ p b = true := by
  induction l generalizing now with
  | nil => exact ⟨hnow, fun b => by simp⟩
  | cons a l ih =>
    rw [List.foldl_cons]
    by_cases ha : p a = true ∧ a ∉ now
    · rw [if_pos ha]
      obtain ⟨hn, hm⟩ := ih (hnow.append (List.nodup_singleton a) (by simpa using ha.2))
      refine ⟨hn, fun b => (hm b).trans ?_⟩
      simp only [List.mem_append, List.mem_cons, List.not_mem_nil, or_false]
      constructor
      · rintro ((hb | rfl) | hb)
        · exact .inl hb
        · exact .inr ⟨.inl rfl, ha.1⟩
        · exact .inr ⟨.inr hb.1, hb.2⟩
      · rintro (hb | ⟨rfl | hb, hp⟩)
        · exact .inl (.inl hb)
        · exact .inl (.inr rfl)
        · exact .inr ⟨hb, hp⟩
    · rw [if_neg ha]
      obtain ⟨hn, hm⟩ := ih hnow
      refine ⟨hn, fun b => (hm b).trans ?_⟩
      rw [List.mem_cons]
      constructor
      · rintro (hb | hb)
        · exact .inl hb
        · exact .inr ⟨.inr hb.1, hb.2⟩
      · rintro (hb | ⟨rfl | hb, hp⟩)
        · exact .inl hb
        · exact .inl (by_contra fun hb => ha ⟨hp, hb⟩)
        · exact .inr ⟨hb, hp⟩

end Edge
