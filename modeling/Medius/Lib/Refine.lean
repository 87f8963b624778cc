import Medius.Lib.Steps

/-! A machine whose every step is a few steps of another, on the same states. -/

universe u v w

namespace Steps

variable {σ : Type u} {ℓ : Type v} {κ : Type w} {next : σ → ℓ → Option σ} {base : σ → κ → Option σ}
  {steps : ℓ → List κ}

theorem Guarded.append {ok : σ → κ → Prop} {s t : σ} {ks ls : List κ} (h : Guarded base ok s ks)
    (hr : run base s ks = some t) (h' : Guarded base ok t ls) : Guarded base ok s (ks ++ ls) := by
  induction ks generalizing s with
  | nil =>
    cases hr
    exact h'
  | cons k ks ih =>
    obtain ⟨s', hs, hrs⟩ := Option.bind_eq_some_iff.mp hr
    exact .cons h.1 hs (ih (h.2 s' hs) hrs)

theorem run_refine (hstep : ∀ s l s', next s l = some s' → run base s (steps l) = some s')
    {s s' : σ} {ls : List ℓ} (hr : run next s ls = some s') :
    run base s (ls.flatMap steps) = some s' := by
  induction ls generalizing s with
  | nil => exact hr
  | cons l ls ih =>
    obtain ⟨t, ht, hrt⟩ := Option.bind_eq_some_iff.mp hr
    rw [List.flatMap_cons, run_append, hstep s l t ht]
    exact ih hrt

theorem guarded_refine (hstep : ∀ s l s', next s l = some s' → run base s (steps l) = some s')
    {ok : σ → ℓ → Prop} {ok' : σ → κ → Prop}
    (hok : ∀ s l s', next s l = some s' → (ok s l ↔ Guarded base ok' s (steps l)))
    {s s' : σ} {ls : List ℓ} (hr : run next s ls = some s') :
    Guarded next ok s ls ↔ Guarded base ok' s (ls.flatMap steps) := by
  induction ls generalizing s with
  | nil => exact Iff.rfl
  | cons l ls ih =>
    obtain ⟨t, ht, hrt⟩ := Option.bind_eq_some_iff.mp hr
    rw [List.flatMap_cons]
    constructor
    · exact fun h => ((hok s l t ht).mp h.1).append (hstep s l t ht) ((ih hrt).mp (h.2 t ht))
    · exact fun h => .cons ((hok s l t ht).mpr h.of_append) ht
        ((ih hrt).mpr (h.of_append_right (hstep s l t ht)))

end Steps
