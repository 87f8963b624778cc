import Mathlib

/-! A table of rows, written one row at a time.  A history of writes is a list of addressed
commands; a block is one address with every command meant for it. -/

universe u v w

namespace Writes

variable {A : Type u} {R : Type v} {C : Type w} [DecidableEq A] (act : R → C → R)

def write (W : A → R) (c : A × C) : A → R := Function.update W c.1 (act (W c.1) c.2)

def writeAll (W : A → R) (cs : List (A × C)) : A → R := cs.foldl (write act) W

@[simp] theorem writeAll_nil (W : A → R) : writeAll act W [] = W := rfl

@[simp] theorem writeAll_cons (W : A → R) (c : A × C) (cs : List (A × C)) :
    writeAll act W (c :: cs) = writeAll act (write act W c) cs := rfl

theorem writeAll_append (W : A → R) (cs ds : List (A × C)) :
    writeAll act W (cs ++ ds) = writeAll act (writeAll act W cs) ds := by
  simp [writeAll, List.foldl_append]

theorem write_apply (W : A → R) (c : A × C) (a : A) :
    write act W c a = if a = c.1 then act (W a) c.2 else W a := by
  by_cases h : a = c.1
  · subst h
    simp [write]
  · simp [write, h]

def block (a : A) (cs : List C) : List (A × C) := cs.map fun c => (a, c)

theorem writeAll_block (W : A → R) (a : A) (cs : List C) :
    writeAll act W (block a cs) = Function.update W a (cs.foldl act (W a)) := by
  induction cs generalizing W with
  | nil => simp [block]
  | cons c cs ih =>
    simp only [block, List.map_cons, writeAll_cons]
    rw [← block, ih]
    simp [write]

def emit (bs : List (A × List C)) : List (A × C) := bs.flatMap fun b => block b.1 b.2

theorem writeAll_emit_of_not_mem (bs : List (A × List C)) (W : A → R) (a : A)
    (h : a ∉ bs.map Prod.fst) : writeAll act W (emit bs) a = W a := by
  induction bs generalizing W with
  | nil => rfl
  | cons b bs ih =>
    simp only [List.map_cons, List.mem_cons, not_or] at h
    rw [emit, List.flatMap_cons, writeAll_append, writeAll_block, ← emit, ih _ h.2]
    simp [h.1]

/-- Blocks at distinct addresses do not disturb one another. -/
theorem writeAll_emit_of_mem (bs : List (A × List C)) (W : A → R) (b : A × List C)
    (hn : (bs.map Prod.fst).Nodup) (hb : b ∈ bs) :
    writeAll act W (emit bs) b.1 = b.2.foldl act (W b.1) := by
  induction bs generalizing W with
  | nil => cases hb
  | cons c bs ih =>
    simp only [List.map_cons, List.nodup_cons] at hn
    rw [emit, List.flatMap_cons, writeAll_append, writeAll_block, ← emit]
    cases hb with
    | head => rw [writeAll_emit_of_not_mem _ _ _ _ hn.1, Function.update_self]
    | tail _ hb =>
      have hne : b.1 ≠ c.1 := fun h => hn.1 (h ▸ List.mem_map_of_mem hb)
      rw [ih _ hn.2 hb, Function.update_of_ne hne]

/-- Writing one command to each of a list of distinct addresses. -/
theorem writeAll_map_apply (as : List A) (hn : as.Nodup) (c : C) (W : A → R) (a : A) :
    writeAll act W (as.map fun a => (a, c)) a = if a ∈ as then act (W a) c else W a := by
  induction as generalizing W with
  | nil => simp
  | cons b as ih =>
    simp only [List.nodup_cons] at hn
    rw [List.map_cons, writeAll_cons, ih hn.2, write_apply]
    by_cases hab : a = b
    · subst hab
      simp [hn.1]
    · simp [hab]

/-- A command that changes nothing the second time may be written twice. -/
theorem writeAll_map_apply_idem {c : C} (hc : ∀ r, act (act r c) c = act r c) (as : List A)
    (W : A → R) (a : A) :
    writeAll act W (as.map fun a => (a, c)) a = if a ∈ as then act (W a) c else W a := by
  induction as generalizing W with
  | nil => simp
  | cons b as ih =>
    rw [List.map_cons, writeAll_cons, ih, write_apply]
    by_cases hab : a = b
    · subst hab
      simp [hc]
    · simp [hab]

end Writes
