import Mathlib

/-! Operations that may be done again: those that overwrite part of a state with values of their
own, and those that change nothing once their subject is settled. -/

universe u v w x

namespace Overwrite

variable {σ : Type u} {ι : Type v} {α : Type w} {γ : Type x} (look : σ → ι → α)

/-- Each place is left alone or given a value that does not depend on the state. -/
def Overwrites (f : σ → σ) : Prop :=
  ∀ i, (∀ s, look (f s) i = look s i) ∨ ∃ v, ∀ s, look (f s) i = v

variable {look}

theorem Overwrites.of_look {f : σ → σ} (h : ∀ s i, look (f s) i = look s i) : Overwrites look f :=
  fun i => .inl fun s => h s i

theorem Overwrites.comp {f g : σ → σ} (hf : Overwrites look f) (hg : Overwrites look g) :
    Overwrites look fun s => g (f s) := by
  intro i
  obtain hg | ⟨v, hg⟩ := hg i
  · obtain hf | ⟨v, hf⟩ := hf i
    · exact .inl fun s => (hg (f s)).trans (hf s)
    · exact .inr ⟨v, fun s => (hg (f s)).trans (hf s)⟩
  · exact .inr ⟨v, fun s => hg (f s)⟩

theorem Overwrites.foldl {f : σ → γ → σ} {cs : List γ}
    (h : ∀ c ∈ cs, Overwrites look fun s => f s c) : Overwrites look fun s => cs.foldl f s := by
  induction cs with
  | nil => exact .of_look fun _ _ => rfl
  | cons c cs ih =>
    exact (h c List.mem_cons_self).comp (ih fun d hd => h d (List.mem_cons_of_mem c hd))

theorem Overwrites.twice {f : σ → σ} (h : Overwrites look f) (s : σ) (i : ι) :
    look (f (f s)) i = look (f s) i := by
  obtain h | ⟨v, h⟩ := h i
  · exact h (f s)
  · rw [h, h]

/-- Once every subject is settled, a second pass changes nothing. -/
theorem foldl_twice_of_settled {f : σ → γ → σ} (settled : σ → γ → Prop)
    (settles : ∀ s c, settled (f s c) c) (keeps : ∀ s c d, settled s c → settled (f s d) c)
    (skips : ∀ s c, settled s c → f s c = s) (cs : List γ) (s : σ) :
    cs.foldl f (cs.foldl f s) = cs.foldl f s := by
  have hall : ∀ (cs : List γ) (s : σ), (∀ c, settled s c → settled (cs.foldl f s) c) ∧
      ∀ c ∈ cs, settled (cs.foldl f s) c := by
    intro cs
    induction cs with
    | nil => exact fun s => ⟨fun _ h => h, fun c hc => absurd hc List.not_mem_nil⟩
    | cons d cs ih =>
      intro s
      obtain ⟨hkeep, hsettled⟩ := ih (f s d)
      refine ⟨fun c hc => hkeep c (keeps s c d hc), fun c hc => ?_⟩
      obtain rfl | hc := List.mem_cons.mp hc
      · exact hkeep c (settles s c)
      · exact hsettled c hc
  have hskip : ∀ (ds : List γ) (t : σ), (∀ d ∈ ds, settled t d) → ds.foldl f t = t := by
    intro ds
    induction ds with
    | nil => exact fun _ _ => rfl
    | cons d ds ih =>
      intro t h
      rw [List.forall_mem_cons] at h
      rw [List.foldl_cons, skips t d h.1]
      exact ih t h.2
  exact hskip cs _ (hall cs s).2

end Overwrite
