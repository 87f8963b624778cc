import Mathlib.Data.List.Basic
import Mathlib.Tactic.Common

/-! Decoders of a list that may step outside it: an index or a slice past the end is an outcome of
its own, apart from a refusal. -/

universe u v

namespace Checked

inductive Reading (α : Type u)
  | outOfRange
  | refused
  | value (a : α)
  deriving DecidableEq

namespace Reading

variable {α : Type u} {β : Type u}

def bind (r : Reading α) (f : α → Reading β) : Reading β :=
  match r with
  | outOfRange => outOfRange
  | refused => refused
  | value a => f a

instance : Monad Reading where
  pure := value
  bind := bind

@[simp] theorem pure_eq (a : α) : (pure a : Reading α) = value a := rfl

@[simp] theorem value_bind (a : α) (f : α → Reading β) : (value a >>= f) = f a := rfl

@[simp] theorem refused_bind (f : α → Reading β) : (refused >>= f) = refused := rfl

@[simp] theorem outOfRange_bind (f : α → Reading β) : (outOfRange >>= f) = outOfRange := rfl

instance : LawfulMonad Reading :=
  LawfulMonad.mk' Reading (fun r => by cases r <;> rfl) (fun _ _ => rfl)
    (fun r _ _ => by cases r <;> rfl)

/-- An answer of code that cannot step outside. -/
def ofOption : Option α → Reading α
  | some a => value a
  | none => refused

@[simp] theorem ofOption_some (a : α) : ofOption (some a) = value a := rfl

@[simp] theorem ofOption_none : ofOption (none : Option α) = refused := rfl

theorem ofOption_bind (o : Option α) (f : α → Option β) :
    ofOption (o >>= f) = ofOption o >>= fun a => ofOption (f a) := by
  cases o <;> rfl

theorem ofOption_eq_value {o : Option α} {a : α} : ofOption o = value a ↔ o = some a := by
  cases o <;> simp [ofOption]

/-- What a caller that passes over a refusal sees. -/
def attempt : Reading α → Reading (Option α)
  | outOfRange => outOfRange
  | refused => value none
  | value a => value (some a)

@[simp] theorem attempt_ofOption (o : Option α) : attempt (ofOption o) = value o := by
  cases o <;> rfl

def InRange (r : Reading α) : Prop := r ≠ outOfRange

@[simp] theorem inRange_value (a : α) : (value a).InRange := nofun

@[simp] theorem inRange_refused : (refused : Reading α).InRange := nofun

@[simp] theorem inRange_ofOption (o : Option α) : (ofOption o).InRange := by
  cases o <;> nofun

@[simp] theorem inRange_bind_iff {r : Reading α} {f : α → Reading β} :
    (r >>= f).InRange ↔ r.InRange ∧ ∀ a, r = value a → (f a).InRange := by
  cases r with
  | outOfRange => exact iff_of_false (fun h => h rfl) fun h => h.1 rfl
  | refused => exact iff_of_true nofun ⟨nofun, nofun⟩
  | value a => simp

@[simp] theorem inRange_ite {c : Prop} [Decidable c] {r s : Reading α} :
    (if c then r else s).InRange ↔ (c → r.InRange) ∧ (¬c → s.InRange) := by
  by_cases h : c <;> simp [h]

theorem InRange.bind {r : Reading α} {f : α → Reading β} (h : r.InRange)
    (hf : ∀ a, r = value a → (f a).InRange) : (r >>= f).InRange :=
  inRange_bind_iff.mpr ⟨h, hf⟩

end Reading

open Reading

variable {γ : Type u}

/-- `p[i]`. -/
def index (p : List γ) (i : Nat) : Reading γ :=
  match p[i]? with
  | some a => value a
  | none => outOfRange

/-- `p.get(i)`. -/
def get (p : List γ) (i : Nat) : Reading γ := ofOption p[i]?

/-- `&p[lo..hi]`. -/
def slice (p : List γ) (lo hi : Nat) : Reading (List γ) :=
  if lo ≤ hi ∧ hi ≤ p.length then value ((p.take hi).drop lo) else outOfRange

/-- `&p[lo..]`. -/
def sliceFrom (p : List γ) (lo : Nat) : Reading (List γ) :=
  if lo ≤ p.length then value (p.drop lo) else outOfRange

/-- `p.get(lo..hi)`. -/
def slice? (p : List γ) (lo hi : Nat) : Option (List γ) :=
  if lo ≤ hi ∧ hi ≤ p.length then some ((p.take hi).drop lo) else none

/-- `p.get(lo..)`. -/
def sliceFrom? (p : List γ) (lo : Nat) : Option (List γ) :=
  if lo ≤ p.length then some (p.drop lo) else none

variable {p : List γ}

theorem index_drop (p : List γ) (o i : Nat) : index (p.drop o) i = index p (o + i) := by
  rw [index, index, List.getElem?_drop]

@[simp] theorem index_cons_zero (a : γ) (p : List γ) : index (a :: p) 0 = value a := rfl

@[simp] theorem index_cons_succ (a : γ) (p : List γ) (i : Nat) :
    index (a :: p) (i + 1) = index p i := by
  rw [index, index, List.getElem?_cons_succ]

theorem index_eq_value {i : Nat} {a : γ} : index p i = value a ↔ p[i]? = some a := by
  unfold index
  cases p[i]? <;> simp

@[simp] theorem inRange_index {i : Nat} (h : i < p.length) : (index p i).InRange := by
  rw [index, List.getElem?_eq_getElem h]
  exact nofun

@[simp] theorem inRange_get (p : List γ) (i : Nat) : (get p i).InRange := inRange_ofOption _

@[simp] theorem inRange_slice {lo hi : Nat} (h : lo ≤ hi) (hp : hi ≤ p.length) :
    (slice p lo hi).InRange := by
  rw [slice, if_pos ⟨h, hp⟩]
  exact nofun

@[simp] theorem inRange_sliceFrom {lo : Nat} (h : lo ≤ p.length) : (sliceFrom p lo).InRange := by
  rw [sliceFrom, if_pos h]
  exact nofun

theorem slice?_eq_some {lo hi : Nat} {s : List γ} (h : slice? p lo hi = some s) :
    s = (p.take hi).drop lo ∧ lo ≤ hi ∧ hi ≤ p.length := by
  unfold slice? at h
  split at h
  next hle => exact ⟨(Option.some.inj h).symm, hle⟩
  next => cases h

/-- A slice taken is as long as its bounds say. -/
theorem length_slice? {lo hi : Nat} {s : List γ} (h : slice? p lo hi = some s) :
    s.length = hi - lo := by
  obtain ⟨rfl, hlo, hhi⟩ := slice?_eq_some h
  rw [List.length_drop, List.length_take]
  omega

/-- Past what comes first, a slice is one of the rest. -/
theorem slice?_append (q p : List γ) (lo hi : Nat) :
    slice? (q ++ p) (q.length + lo) (q.length + hi) = slice? p lo hi := by
  simp only [slice?, List.length_append, Nat.add_le_add_iff_left, List.take_length_add_append,
    List.drop_length_add_append]

theorem sliceFrom?_append (q p : List γ) (lo : Nat) :
    sliceFrom? (q ++ p) (q.length + lo) = sliceFrom? p lo := by
  simp only [sliceFrom?, List.length_append, Nat.add_le_add_iff_left, List.drop_length_add_append]

/-- A loop stays inside if each of its rounds does. -/
theorem inRange_mapM {α β : Type u} {f : α → Reading β} {as : List α}
    (h : ∀ a ∈ as, (f a).InRange) : (as.mapM f).InRange := by
  induction as with
  | nil => exact nofun
  | cons a as ih =>
    rw [List.mapM_cons]
    exact (h a List.mem_cons_self).bind fun _ _ =>
      (ih fun a ha => h a (List.mem_cons_of_mem _ ha)).bind fun _ _ => nofun

end Checked
