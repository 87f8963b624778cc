import Mathlib.Data.List.Basic

/-! Codes that end where they say. -/

universe u v w

namespace Delimited

variable {α : Type u} {β : Type v} {γ : Type w}

/-- Of two codes in front of anything, of values related by `R`: read alike, the values are
related by `S` and both codes end at one place. -/
def Delimits (R : α → α → Prop) (enc : α → List γ) (S : α → α → Prop) : Prop :=
  ∀ ⦃x y : α⦄ ⦃s t : List γ⦄, R x y → enc x ++ s = enc y ++ t → S x y ∧ s = t

def Both (P : α → Prop) (x y : α) : Prop := P x ∧ P y

variable {R S T : α → α → Prop} {enc enc' : α → List γ}

theorem Delimits.of_length (hlen : ∀ x y, R x y → (enc x).length = (enc y).length)
    (h : ∀ x y, R x y → enc x = enc y → S x y) : Delimits R enc S := by
  intro x y s t hr heq
  obtain ⟨henc, hrest⟩ := List.append_inj heq (hlen x y hr)
  exact ⟨h x y hr henc, hrest⟩

theorem Delimits.mono {R' S' : α → α → Prop} (h : Delimits R enc S) (hR : ∀ x y, R' x y → R x y)
    (hS : ∀ x y, R' x y → S x y → S' x y) : Delimits R' enc S' := by
  intro x y s t hr heq
  obtain ⟨hs, hrest⟩ := h (hR x y hr) heq
  exact ⟨hS x y hr hs, hrest⟩

/-- What the first code tells is known when the second is read. -/
theorem Delimits.append (h : Delimits R enc S)
    (h' : Delimits (fun x y => R x y ∧ S x y) enc' T) :
    Delimits R (fun x => enc x ++ enc' x) (fun x y => S x y ∧ T x y) := by
  intro x y s t hr heq
  simp only [List.append_assoc] at heq
  obtain ⟨hs, heq⟩ := h hr heq
  obtain ⟨ht, hrest⟩ := h' ⟨hr, hs⟩ heq
  exact ⟨⟨hs, ht⟩, hrest⟩

theorem Delimits.and (h : Delimits R enc S) (h' : Delimits R enc' T) :
    Delimits R (fun x => enc x ++ enc' x) (fun x y => S x y ∧ T x y) :=
  h.append (h'.mono (fun _ _ hr => hr.1) fun _ _ _ ht => ht)

theorem Delimits.comap {R S : β → β → Prop} {enc : β → List γ} (h : Delimits R enc S) (f : α → β) :
    Delimits (fun x y => R (f x) (f y)) (fun x => enc (f x)) (fun x y => S (f x) (f y)) :=
  fun _ _ _ _ hr heq => h hr heq

/-- A part that both values have, or neither. -/
theorem Delimits.opt {c : α → Prop} [DecidablePred c] (hc : ∀ x y, R x y → (c x ↔ c y))
    (h : Delimits (fun x y => R x y ∧ c x ∧ c y) enc S)
    (hn : ∀ x y, R x y → ¬c x → ¬c y → S x y) :
    Delimits R (fun x => if c x then enc x else []) S := by
  intro x y s t hr heq
  by_cases hx : c x
  · have hy := (hc x y hr).mp hx
    simp only [if_pos hx, if_pos hy] at heq
    exact h ⟨hr, hx, hy⟩ heq
  · have hy := mt (hc x y hr).mpr hx
    simp only [if_neg hx, if_neg hy, List.nil_append] at heq
    exact ⟨hn x y hr hx hy, heq⟩

/-- As many items on both sides, each ending where it says. -/
theorem Delimits.items (h : Delimits R enc S) :
    Delimits (fun xs ys => xs.length = ys.length ∧ ∀ x ∈ xs, ∀ y ∈ ys, R x y)
      (fun xs => xs.flatMap enc) (List.Forall₂ S) := by
  intro xs ys s t hr heq
  obtain ⟨hlen, hall⟩ := hr
  induction xs generalizing ys with
  | nil =>
    cases ys with
    | nil => exact ⟨.nil, heq⟩
    | cons y ys => cases hlen
  | cons x xs ih =>
    cases ys with
    | nil => cases hlen
    | cons y ys =>
      simp only [List.flatMap_cons, List.append_assoc] at heq
      obtain ⟨hs, heq⟩ := h (hall x List.mem_cons_self y List.mem_cons_self) heq
      obtain ⟨hrest, ht⟩ := ih heq (Nat.succ.inj hlen)
        fun x hx y hy => hall x (List.mem_cons_of_mem _ hx) y (List.mem_cons_of_mem _ hy)
      exact ⟨.cons hs hrest, ht⟩

/-- A stream of codes, none of them empty, is read in one way. -/
theorem Delimits.stream (h : Delimits R enc S) {xs ys : List α}
    (hall : ∀ x ∈ xs, ∀ y ∈ ys, R x y) (hx : ∀ x ∈ xs, enc x ≠ []) (hy : ∀ y ∈ ys, enc y ≠ [])
    (heq : xs.flatMap enc = ys.flatMap enc) : List.Forall₂ S xs ys := by
  induction xs generalizing ys with
  | nil =>
    cases ys with
    | nil => exact .nil
    | cons y ys =>
      rw [List.flatMap_nil, List.flatMap_cons] at heq
      exact absurd (List.append_eq_nil_iff.mp heq.symm).1 (hy y List.mem_cons_self)
  | cons x xs ih =>
    cases ys with
    | nil =>
      rw [List.flatMap_nil, List.flatMap_cons] at heq
      exact absurd (List.append_eq_nil_iff.mp heq).1 (hx x List.mem_cons_self)
    | cons y ys =>
      rw [List.flatMap_cons, List.flatMap_cons] at heq
      obtain ⟨hs, heq⟩ := h (hall x List.mem_cons_self y List.mem_cons_self) heq
      exact .cons hs (ih
        (fun x hx y hy => hall x (List.mem_cons_of_mem _ hx) y (List.mem_cons_of_mem _ hy))
        (fun x h => hx x (List.mem_cons_of_mem _ h)) (fun y h => hy y (List.mem_cons_of_mem _ h)) heq)

end Delimited
