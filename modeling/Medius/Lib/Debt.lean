import Mathlib

/-! Histories of requests and of spans of work, newest entry first.  A request is answered by a
span that begins after it and completes. -/

namespace Debt

inductive Kind
  | request | begins | completes
  deriving DecidableEq

universe u

variable {α : Type u} (kind : α → Option Kind)

/-- A span of work that began and completed, with none begun in between. -/
def Worked (post : List α) : Prop :=
  ∃ c y b x a, post = c ++ y :: (b ++ x :: a) ∧ kind y = some .completes ∧
    kind x = some .begins ∧ ∀ z ∈ b, kind z ≠ some .begins

def Answered (log : List α) : Prop :=
  ∀ post e pre, log = post ++ e :: pre → kind e = some .request → Worked kind post

/-- Whether a request waits for its answer, and whether one came since work last began. -/
structure State where
  waiting : Bool
  since : Bool
  deriving DecidableEq

def State.advance (s : State) : Option Kind → State
  | some .request => ⟨true, true⟩
  | some .begins => ⟨s.waiting, false⟩
  | some .completes => ⟨s.since, s.since⟩
  | none => s

def state (log : List α) : State := log.foldr (fun e s => s.advance (kind e)) ⟨false, false⟩

variable {kind}

@[simp] theorem state_nil : state kind [] = ⟨false, false⟩ := rfl

@[simp] theorem state_cons (e : α) (log : List α) :
    state kind (e :: log) = (state kind log).advance (kind e) := rfl

theorem since_of_not_waiting {log : List α} (h : (state kind log).waiting = false) :
    (state kind log).since = false := by
  induction log with
  | nil => rfl
  | cons e log ih =>
    rw [state_cons] at h ⊢
    cases hk : kind e with
    | none =>
      rw [hk] at h
      exact ih h
    | some k =>
      rw [hk] at h
      cases k with
      | request => cases h
      | begins => rfl
      | completes => exact h

theorem Worked.cons {post : List α} (h : Worked kind post) (e : α) : Worked kind (e :: post) := by
  obtain ⟨c, y, b, x, a, rfl, hy, hx, hb⟩ := h
  exact ⟨e :: c, y, b, x, a, rfl, hy, hx, hb⟩

/-- Work has begun, and not again since. -/
def Begun (kind : α → Option Kind) (post : List α) : Prop :=
  ∃ b x a, post = b ++ x :: a ∧ kind x = some .begins ∧ ∀ z ∈ b, kind z ≠ some .begins

theorem Begun.cons {post : List α} (h : Begun kind post) (e : α) : Begun kind (e :: post) := by
  obtain ⟨b, x, a, rfl, hx, hb⟩ := h
  by_cases he : kind e = some .begins
  · exact ⟨[], e, b ++ x :: a, rfl, he, fun _ h => absurd h List.not_mem_nil⟩
  · refine ⟨e :: b, x, a, rfl, hx, fun z hz => ?_⟩
    obtain rfl | hz := List.mem_cons.mp hz
    · exact he
    · exact hb z hz

/-- A later entry of the history is a request itself, or comes after one. -/
theorem eq_cons_cases {e x : α} {log post pre : List α} (h : e :: log = post ++ x :: pre) :
    post = [] ∧ x = e ∨ ∃ post', post = e :: post' ∧ log = post' ++ x :: pre := by
  cases post with
  | nil => exact .inl ⟨rfl, (List.cons.inj h).1.symm⟩
  | cons p post =>
    obtain ⟨rfl, htail⟩ := List.cons.inj h
    exact .inr ⟨post, rfl, htail⟩

theorem begun_of_since {log : List α} (h : (state kind log).since = false) :
    ∀ post e pre, log = post ++ e :: pre → kind e = some .request → Begun kind post := by
  induction log with
  | nil =>
    intro post e pre hlog
    cases post <;> cases hlog
  | cons e log ih =>
    intro post x pre hlog hx
    rw [state_cons] at h
    obtain ⟨rfl, rfl⟩ | ⟨post, rfl, htail⟩ := eq_cons_cases hlog
    · rw [hx] at h
      cases h
    · cases hk : kind e with
      | none =>
        rw [hk] at h
        exact (ih h post x pre htail hx).cons e
      | some k =>
        rw [hk] at h
        cases k with
        | request => cases h
        | begins => exact ⟨[], e, post, rfl, hk, fun _ h => absurd h List.not_mem_nil⟩
        | completes => exact (ih h post x pre htail hx).cons e

/-- No request waits, so each has been answered. -/
theorem answered_of_waiting {log : List α} (h : (state kind log).waiting = false) :
    Answered kind log := by
  induction log with
  | nil =>
    intro post e pre hlog
    cases post <;> cases hlog
  | cons e log ih =>
    intro post x pre hlog hx
    rw [state_cons] at h
    obtain ⟨rfl, rfl⟩ | ⟨post, rfl, htail⟩ := eq_cons_cases hlog
    · rw [hx] at h
      cases h
    · cases hk : kind e with
      | none =>
        rw [hk] at h
        exact (ih h post x pre htail hx).cons e
      | some k =>
        rw [hk] at h
        cases k with
        | request => cases h
        | begins => exact (ih h post x pre htail hx).cons e
        | completes =>
          obtain ⟨b, y, a, rfl, hy, hb⟩ := begun_of_since h post x pre htail hx
          exact ⟨[], e, b, y, a, rfl, hk, hy, hb⟩

end Debt
