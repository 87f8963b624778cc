import Mathlib.Order.MinMax

/-! The least of a sliding window, kept in two buckets. -/

universe u

/-- `now` is the least of the bucket being filled, `prev` of the full one before it. -/
structure Buckets (α : Type u) where
  now : Option α := none
  prev : Option α := none
  count : Nat := 0

namespace Buckets

variable {α : Type u} [LinearOrder α]

def floor (s : Buckets α) : Option α := Option.merge min s.now s.prev

def push (cap : Nat) (s : Buckets α) (a : α) : Buckets α :=
  if cap ≤ s.count + 1 then ⟨none, Option.merge min s.now (some a), 0⟩
  else ⟨Option.merge min s.now (some a), s.prev, s.count + 1⟩

/-- How many of `n` pushed the two buckets stand for. -/
def window (cap n : Nat) : Nat := if n < cap then n else cap + n % cap

def recent (cap : Nat) (xs : List α) : List α := xs.drop (xs.length - window cap xs.length)

theorem min?_append (xs ys : List α) :
    (xs ++ ys).min? = Option.merge min xs.min? ys.min? := by
  induction xs with
  | nil =>
    rw [List.nil_append]
    cases ys.min? <;> rfl
  | cons x xs ih =>
    rw [List.cons_append, List.min?_cons, List.min?_cons, ih]
    cases xs.min? <;> cases ys.min? <;> simp [Option.merge, min_assoc]

/-- What was pushed ends in the full bucket and the one being filled. -/
def Filled (cap : Nat) (xs : List α) (s : Buckets α) : Prop :=
  ∃ old prev cur : List α, xs = old ++ prev ++ cur ∧ s.now = cur.min? ∧ s.prev = prev.min? ∧
    s.count = cur.length ∧ cur.length < cap ∧ cap ∣ old.length ∧
      (prev.length = cap ∨ prev = [] ∧ old = [])

variable {cap : Nat}

theorem Filled.start (hcap : 0 < cap) : Filled cap [] ({} : Buckets α) :=
  ⟨[], [], [], rfl, rfl, rfl, rfl, hcap, ⟨0, rfl⟩, .inr ⟨rfl, rfl⟩⟩

theorem Filled.push {xs : List α} {s : Buckets α} (h : Filled cap xs s) (a : α) :
    Filled cap (xs ++ [a]) (s.push cap a) := by
  obtain ⟨old, prev, cur, rfl, hnow, hprev, hcount, hlt, hold, hfull⟩ := h
  have hnow' : Option.merge min s.now (some a) = (cur ++ [a]).min? := by
    rw [min?_append, hnow]
    rfl
  unfold Buckets.push
  split
  next hle =>
    refine ⟨old ++ prev, cur ++ [a], [], by simp, rfl, hnow', rfl, ?_, ?_, .inl ?_⟩
    · simpa using Nat.zero_lt_of_lt hlt
    · obtain hp | ⟨rfl, rfl⟩ := hfull
      · rw [List.length_append, hp]
        exact Nat.dvd_add hold (Nat.dvd_refl cap)
      · exact ⟨0, rfl⟩
    · simp
      omega
  next hgt =>
    refine ⟨old, prev, cur ++ [a], by simp, hnow', hprev, by simp [hcount], ?_, hold, hfull⟩
    simp
    omega

theorem Filled.count_lt {xs : List α} {s : Buckets α} (h : Filled cap xs s) : s.count < cap := by
  obtain ⟨_, _, _, -, -, -, hcount, hlt, -⟩ := h
  rw [hcount]
  exact hlt

theorem Filled.floor {xs : List α} {s : Buckets α} (h : Filled cap xs s) :
    s.floor = (recent cap xs).min? := by
  obtain ⟨old, prev, cur, rfl, hnow, hprev, -, hlt, ⟨k, hold⟩, hfull⟩ := h
  have hrecent : recent cap (old ++ prev ++ cur) = prev ++ cur := by
    have hwindow : window cap (old ++ prev ++ cur).length = (prev ++ cur).length := by
      obtain hp | ⟨rfl, rfl⟩ := hfull
      · have hmod : (cap * k + cap + cur.length) % cap = cur.length := by
          rw [← Nat.mul_succ, Nat.mul_add_mod, Nat.mod_eq_of_lt hlt]
        simp only [List.length_append, hold, hp, window, hmod]
        rw [if_neg (by omega)]
      · simp [window, hlt]
    rw [recent, hwindow, List.append_assoc, List.length_append, Nat.add_sub_cancel,
      List.drop_left]
  rw [hrecent, min?_append, Buckets.floor, hnow, hprev]
  cases cur.min? <;> cases prev.min? <;> simp [Option.merge, min_comm]

omit [LinearOrder α] in
theorem mem_recent_append {xs ys : List α} {a : α} (hle : ys.length ≤ cap) (ha : a ∈ ys) :
    a ∈ recent cap (xs ++ ys) := by
  have hwindow : ys.length ≤ window cap (xs ++ ys).length := by
    unfold window
    split
    · simp
    · omega
  have hdrop : (xs ++ ys).length - window cap (xs ++ ys).length ≤ xs.length := by
    rw [List.length_append] at *
    omega
  rw [recent, List.drop_append_of_le_length hdrop]
  exact List.mem_append_right _ ha

theorem mem_and_le_of_min? {xs : List α} {f : α} (h : xs.min? = some f) :
    f ∈ xs ∧ ∀ a ∈ xs, f ≤ a := by
  have : Std.LawfulOrderMin α :=
    { le_min_iff := fun _ _ _ => le_min_iff, min_eq_or := min_choice }
  exact List.min?_eq_some_iff.mp h

theorem Filled.least {xs : List α} {a : α} {s : Buckets α} (h : Filled cap (xs ++ [a]) s) :
    ∃ f, s.floor = some f ∧ (recent cap (xs ++ [a])).min? = some f ∧ f ≤ a ∧ f ∈ xs ++ [a] := by
  have ha : a ∈ recent cap (xs ++ [a]) :=
    mem_recent_append (Nat.lt_of_le_of_lt (Nat.zero_le _) h.count_lt) (List.mem_singleton_self a)
  obtain ⟨f, hf⟩ := Option.isSome_iff_exists.mp (List.isSome_min?_of_mem ha)
  obtain ⟨hmem, hle⟩ := mem_and_le_of_min? hf
  exact ⟨f, h.floor.trans hf, hf, hle a ha, List.mem_of_mem_drop hmem⟩

end Buckets
