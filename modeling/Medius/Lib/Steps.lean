import Mathlib

/-! Runs of a deterministic labelled machine: a label either takes the machine to
its next state or is refused.  Nothing here knows what the machine models. -/

universe u v w

namespace Steps

variable {σ : Type u} {τ : Type v} {ℓ : Type w}

def run (next : σ → ℓ → Option σ) : σ → List ℓ → Option σ
  | s, [] => some s
  | s, l :: ls => (next s l).bind fun s' => run next s' ls

@[simp] theorem run_nil (next : σ → ℓ → Option σ) (s : σ) : run next s [] = some s := rfl

@[simp] theorem run_cons (next : σ → ℓ → Option σ) (s : σ) (l : ℓ) (ls : List ℓ) :
    run next s (l :: ls) = (next s l).bind fun s' => run next s' ls := rfl

theorem run_append (next : σ → ℓ → Option σ) (s : σ) (ks ls : List ℓ) :
    run next s (ks ++ ls) = (run next s ks).bind fun s' => run next s' ls := by
  induction ks generalizing s with
  | nil => rfl
  | cons k ks ih =>
    simp only [List.cons_append, run_cons]
    cases next s k with
    | none => rfl
    | some s' => exact ih s'

/-- Every step the run takes meets `ok`, which reads the state before the step. -/
def Guarded (next : σ → ℓ → Option σ) (ok : σ → ℓ → Prop) : σ → List ℓ → Prop
  | _, [] => True
  | s, l :: ls => ok s l ∧ ∀ s', next s l = some s' → Guarded next ok s' ls

theorem Guarded.cons {next : σ → ℓ → Option σ} {ok : σ → ℓ → Prop} {s t : σ} {l : ℓ}
    {ls : List ℓ} (hok : ok s l) (hn : next s l = some t) (h : Guarded next ok t ls) :
    Guarded next ok s (l :: ls) := by
  refine ⟨hok, fun s' hs => ?_⟩
  rw [hn] at hs
  cases hs
  exact h

theorem Guarded.mono {next : σ → ℓ → Option σ} {ok ok' : σ → ℓ → Prop} {s : σ} {ls : List ℓ}
    (h : Guarded next ok s ls) (hok : ∀ s l, ok s l → ok' s l) : Guarded next ok' s ls := by
  induction ls generalizing s with
  | nil => trivial
  | cons l ls ih => exact ⟨hok s l h.1, fun s' hs => ih (h.2 s' hs)⟩

theorem Guarded.of_forall {next : σ → ℓ → Option σ} {ok : σ → ℓ → Prop} {ls : List ℓ}
    (h : ∀ l ∈ ls, ∀ s, ok s l) (s : σ) : Guarded next ok s ls := by
  induction ls generalizing s with
  | nil => trivial
  | cons l ls ih =>
    exact ⟨h l List.mem_cons_self s, fun s' _ =>
      ih (fun l hl => h l (List.mem_cons_of_mem _ hl)) s'⟩

theorem Guarded.of_append {next : σ → ℓ → Option σ} {ok : σ → ℓ → Prop} {s : σ}
    {ks ls : List ℓ} (h : Guarded next ok s (ks ++ ls)) : Guarded next ok s ks := by
  induction ks generalizing s with
  | nil => trivial
  | cons k ks ih => exact ⟨h.1, fun s' hs => ih (h.2 s' hs)⟩

theorem Guarded.of_append_right {next : σ → ℓ → Option σ} {ok : σ → ℓ → Prop} {s t : σ}
    {ks ls : List ℓ} (h : Guarded next ok s (ks ++ ls)) (hr : run next s ks = some t) :
    Guarded next ok t ls := by
  induction ks generalizing s with
  | nil =>
    cases hr
    exact h
  | cons k ks ih =>
    obtain ⟨s', hs, hrs⟩ := Option.bind_eq_some_iff.mp hr
    exact ih (h.2 s' hs) hrs

instance {next : σ → ℓ → Option σ} {ok : σ → ℓ → Prop} [∀ s l, Decidable (ok s l)] :
    ∀ (s : σ) (ls : List ℓ), Decidable (Guarded next ok s ls)
  | _, [] => .isTrue trivial
  | s, l :: ls =>
    have : ∀ s', Decidable (Guarded next ok s' ls) := fun s' => instDecidableGuarded s' ls
    inferInstanceAs (Decidable (ok s l ∧ ∀ s' ∈ next s l, Guarded next ok s' ls))

theorem Guarded.and {next : σ → ℓ → Option σ} {ok ok' : σ → ℓ → Prop} {s : σ} {ls : List ℓ}
    (h : Guarded next ok s ls) (h' : Guarded next ok' s ls) :
    Guarded next (fun s l => ok s l ∧ ok' s l) s ls := by
  induction ls generalizing s with
  | nil => trivial
  | cons l ls ih => exact ⟨⟨h.1, h'.1⟩, fun s' hs => ih (h.2 s' hs) (h'.2 s' hs)⟩

/-- What every guarded step keeps, every guarded run keeps. -/
theorem run_induction {next : σ → ℓ → Option σ} {ok : σ → ℓ → Prop} {I : σ → Prop}
    (step : ∀ s l s', I s → ok s l → next s l = some s' → I s')
    {s s' : σ} {ls : List ℓ} (h : I s) (hg : Guarded next ok s ls)
    (hr : run next s ls = some s') : I s' := by
  induction ls generalizing s with
  | nil =>
    cases hr
    exact h
  | cons l ls ih =>
    obtain ⟨t, ht, hrt⟩ := Option.bind_eq_some_iff.mp hr
    exact ih (step s l t h hg.1 ht) (hg.2 t ht) hrt

end Steps
