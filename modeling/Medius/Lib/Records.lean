import Mathlib

/-! Records laid end to end: each is read at the front of what is left and says how far it
goes. -/

universe u v w

namespace Records

variable {γ : Type u} {α : Type v} {β : Type w}

/-- Reads so many records from an offset on, and says where the last one ends. -/
def walk (read : List γ → Option (β × Nat)) (p : List γ) : Nat → Nat → Option (List β × Nat)
  | 0, off => some ([], off)
  | n + 1, off => do
    let (b, len) ← read (p.drop off)
    let (bs, off) ← walk read p n (off + len)
    return (b :: bs, off)

/-- What is written in front of anything is read back, and no further. -/
def Reads (read : List γ → Option (β × Nat)) (write : α → List γ) (f : α → β) (a : α) : Prop :=
  ∀ rest, read (write a ++ rest) = some (f a, (write a).length)

variable {read : List γ → Option (β × Nat)} {write : α → List γ} {f : α → β}

theorem walk_flatMap {p : List γ} {as : List α} {rest : List γ} {off : Nat}
    (h : ∀ a ∈ as, Reads read write f a) (hp : p.drop off = as.flatMap write ++ rest) :
    walk read p as.length off = some (as.map f, off + (as.flatMap write).length) := by
  induction as generalizing off with
  | nil => rfl
  | cons a as ih =>
    rw [List.flatMap_cons, List.append_assoc] at hp
    have hnext : p.drop (off + (write a).length) = as.flatMap write ++ rest := by
      rw [← List.drop_drop, hp, List.drop_left]
    have hwalk := ih (fun b hb => h b (List.mem_cons_of_mem _ hb)) hnext
    rw [List.length_cons, walk, hp, h a List.mem_cons_self]
    simp only [Option.bind_eq_bind, Option.bind_some, hwalk, Option.pure_def, List.map_cons,
      List.flatMap_cons, List.length_append, Nat.add_assoc]

/-- With every record named, none is passed over. -/
theorem forall₂_reduceOption {f : α → Option β} {R : α → β → Prop} {as : List α}
    (h : ∀ a ∈ as, ∃ b, f a = some b ∧ R a b) : List.Forall₂ R as (as.map f).reduceOption := by
  induction as with
  | nil => exact .nil
  | cons a as ih =>
    obtain ⟨b, hb, hr⟩ := h a List.mem_cons_self
    rw [List.map_cons, hb, List.reduceOption_cons_of_some]
    exact .cons hr (ih fun a' ha' => h a' (List.mem_cons_of_mem _ ha'))

end Records
