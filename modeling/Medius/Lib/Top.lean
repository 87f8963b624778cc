import Mathlib.Data.List.Induction
import Mathlib.Data.Prod.Lex
import Mathlib.Order.Basic

/-! A scan of a list for its best candidate: only a strictly greater score takes the place of an
earlier one. -/

namespace Medius.Top

/-- A score packed of two digits orders as the pair of them does. -/
theorem digits_lt_iff {k hi lo hi' lo' : Nat} (hlo : lo < k) (hlo' : lo' < k) :
    hi * k + lo < hi' * k + lo' ↔ toLex (hi, lo) < toLex (hi', lo') := by
  rw [Prod.Lex.toLex_lt_toLex]
  rcases Nat.lt_trichotomy hi hi' with h | h | h
  · have hk := Nat.mul_le_mul_right k (Nat.succ_le_of_lt h)
    rw [Nat.succ_mul] at hk
    exact iff_of_true (by omega) (.inl h)
  · subst h
    simp
  · have hk := Nat.mul_le_mul_right k (Nat.succ_le_of_lt h)
    rw [Nat.succ_mul] at hk
    exact iff_of_false (by omega) (by omega)

variable {α ω : Type*} [LinearOrder ω] {score : α → Option ω}

/-- The candidate the scan holds after one more element. -/
def better (score : α → Option ω) (best : Option (Nat × ω)) (a : α) (i : Nat) :
    Option (Nat × ω) :=
  match score a with
  | some s => if best.all (·.2 < s) then some (i, s) else best
  | none => best

/-- The scan's candidate, with its place and its score. -/
def top (score : α → Option ω) (l : List α) : Option (Nat × ω) :=
  l.zipIdx.foldl (fun best (a, i) => better score best a i) none

/-- Every element of the list before `i` scores below `s`, and every other one at most `s`. -/
structure First (score : α → Option ω) (l : List α) (i : Nat) (s : ω) : Prop where
  scored : ∃ a, l[i]? = some a ∧ score a = some s
  greatest : ∀ a ∈ l, ∀ s' ∈ score a, s' ≤ s
  earliest : ∀ j < i, ∀ a ∈ l[j]?, ∀ s' ∈ score a, s' < s

def Best (score : α → Option ω) (l : List α) : Option (Nat × ω) → Prop
  | none => ∀ a ∈ l, score a = none
  | some (i, s) => First score l i s

theorem First.lt_length {l : List α} {i : Nat} {s : ω} (h : First score l i s) : i < l.length := by
  obtain ⟨a, ha, -⟩ := h.scored
  exact (List.getElem?_eq_some_iff.mp ha).1

/-- An element that does not score above the candidate leaves it in place. -/
theorem First.append {l : List α} {i : Nat} {s : ω} {a : α} (h : First score l i s)
    (ha : ∀ s' ∈ score a, s' ≤ s) : First score (l ++ [a]) i s where
  scored := by
    obtain ⟨b, hb, hs⟩ := h.scored
    exact ⟨b, by rw [List.getElem?_append_left h.lt_length, hb], hs⟩
  greatest := by
    intro b hb
    rcases List.mem_append.mp hb with hb | hb
    · exact h.greatest b hb
    · obtain rfl := List.mem_singleton.mp hb
      exact ha
  earliest := by
    intro j hj
    rw [List.getElem?_append_left (Nat.lt_trans hj h.lt_length)]
    exact h.earliest j hj

/-- An element that scores above every one before it is the candidate. -/
theorem First.last {l : List α} {s : ω} {a : α} (hs : score a = some s)
    (hl : ∀ b ∈ l, ∀ s' ∈ score b, s' < s) : First score (l ++ [a]) l.length s where
  scored := ⟨a, by simp, hs⟩
  greatest := by
    intro b hb s' hs'
    rcases List.mem_append.mp hb with hb | hb
    · exact (hl b hb s' hs').le
    · obtain rfl := List.mem_singleton.mp hb
      exact (Option.some.inj (hs.symm.trans hs')).ge
  earliest := by
    intro j hj b hb
    rw [List.getElem?_append_left hj] at hb
    exact hl b (List.mem_of_getElem? hb)

theorem Best.better {l : List α} {best : Option (Nat × ω)} (h : Best score l best) (a : α) :
    Best score (l ++ [a]) (better score best a l.length) := by
  unfold Top.better
  cases hs : score a with
  | none =>
    cases best with
    | none =>
      intro b hb
      rcases List.mem_append.mp hb with hb | hb
      · exact h b hb
      · obtain rfl := List.mem_singleton.mp hb
        exact hs
    | some best => exact First.append h fun s' hs' => absurd hs' (by rw [hs]; exact nofun)
  | some s =>
    cases best with
    | none => exact First.last hs fun b hb s' hs' => absurd hs' (by rw [h b hb]; exact nofun)
    | some best =>
      obtain ⟨i, s₀⟩ := best
      by_cases hlt : s₀ < s
      · simp only [Option.all_some, hlt, decide_true, if_true]
        exact First.last hs fun b hb s' hs' => (h.greatest b hb s' hs').trans_lt hlt
      · simp only [Option.all_some, hlt, decide_false, Bool.false_eq_true, if_false]
        refine First.append h fun s' hs' => ?_
        obtain rfl : s = s' := Option.some.inj (hs.symm.trans hs')
        exact not_lt.mp hlt

theorem top_append (l : List α) (a : α) :
    top score (l ++ [a]) = better score (top score l) a l.length := by
  simp [top, List.zipIdx_append]

/-- The scan ends with the first of the greatest scores, or with none where nothing scores. -/
theorem best_top (l : List α) : Best score l (top score l) := by
  induction l using List.reverseRecOn with
  | nil => exact fun a ha => absurd ha List.not_mem_nil
  | append_singleton l a ih =>
    rw [top_append]
    exact ih.better a

end Medius.Top
