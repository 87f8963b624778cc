import Medius.Lib.Steps

/-! One thread of atomic actions, among others that may move the shared state between any
two of them.  Nothing here knows what the thread does. -/

/-- An action reads an input and may not be enabled; what it answers decides how the thread
goes on. -/
inductive Thread (σ ι α : Type) : Type 1
  | done (a : α)
  | act {β : Type} (f : σ → ι → Option (σ × β)) (k : β → Thread σ ι α)

namespace Thread

variable {σ ι ε α β : Type}

def bind : Thread σ ι α → (α → Thread σ ι β) → Thread σ ι β
  | .done a, g => g a
  | .act f k, g => .act f fun b => (k b).bind g

instance : Monad (Thread σ ι) where
  pure := .done
  bind := bind

def atomic (f : σ → ι → Option (σ × β)) : Thread σ ι β := .act f .done

/-- The thread takes its next action, or another takes a step; `again` is how a thread that has
ended goes on. -/
def next (env : σ → ε → Option σ) (again : α → Option (Thread σ ι α)) :
    σ × Thread σ ι α → ε ⊕ ι → Option (σ × Thread σ ι α)
  | (s, t), .inl e => (env s e).map fun s' => (s', t)
  | (s, .act f k), .inr i => (f s i).map fun r => (r.1, k r.2)
  | (s, .done a), .inr _ => (again a).map fun t => (s, t)

section Safe

variable (R : σ → σ → Prop) (I : σ → Prop)

/-- Whatever the others do within `R`, `I` holds as long as the thread runs, and `Q` from where
it ends. -/
def Safe (Q : α → σ → Prop) : Thread σ ι α → σ → Prop
  | .done a, s => ∀ s', Relation.ReflTransGen R s s' → I s' ∧ Q a s'
  | .act f k, s => ∀ s', Relation.ReflTransGen R s s' →
      I s' ∧ ∀ i s'' b, f s' i = some (s'', b) → Safe Q (k b) s''

/-- From every state with the invariant and `P`. -/
def Triple (P : σ → Prop) (t : Thread σ ι α) (Q : α → σ → Prop) : Prop :=
  ∀ s, I s → P s → Safe R I Q t s

/-- The others keep the invariant, and `P` under it. -/
def Stable (P : σ → Prop) : Prop := ∀ s s', I s → P s → R s s' → I s' ∧ P s'

end Safe

variable {R : σ → σ → Prop} {I : σ → Prop} {P P' : σ → Prop} {Q Q' : α → σ → Prop}

theorem Stable.closure (h : Stable R I P) {s s' : σ} (hr : Relation.ReflTransGen R s s')
    (hI : I s) (hP : P s) : I s' ∧ P s' := by
  induction hr with
  | refl => exact ⟨hI, hP⟩
  | tail _ hstep ih => exact h _ _ ih.1 ih.2 hstep

theorem Safe.invariant {t : Thread σ ι α} {s : σ} (h : Safe R I Q t s) : I s := by
  cases t with
  | done a => exact (h s .refl).1
  | act f k => exact (h s .refl).1

theorem Safe.moved {t : Thread σ ι α} {s s' : σ} (h : Safe R I Q t s) (hr : R s s') :
    Safe R I Q t s' := by
  cases t with
  | done a => exact fun s'' hs => h s'' (.head hr hs)
  | act f k => exact fun s'' hs => h s'' (.head hr hs)

theorem Safe.bind {t : Thread σ ι α} {g : α → Thread σ ι β} {Q' : β → σ → Prop} {s : σ}
    (h : Safe R I (fun a s => Safe R I Q' (g a) s) t s) : Safe R I Q' (t.bind g) s := by
  induction t generalizing s with
  | done a => exact (h s .refl).2
  | act f k ih =>
    intro s' hs
    obtain ⟨hI, hk⟩ := h s' hs
    exact ⟨hI, fun i s'' b hf => ih b (hk i s'' b hf)⟩

theorem Safe.mono {t : Thread σ ι α} {s : σ} (h : Safe R I Q t s)
    (hQ : ∀ a s, I s → Q a s → Q' a s) : Safe R I Q' t s := by
  induction t generalizing s with
  | done a => exact fun s' hs => ⟨(h s' hs).1, hQ a s' (h s' hs).1 (h s' hs).2⟩
  | act f k ih =>
    intro s' hs
    obtain ⟨hI, hk⟩ := h s' hs
    exact ⟨hI, fun i s'' b hf => ih b (hk i s'' b hf)⟩

namespace Triple

variable {t : Thread σ ι α}

theorem bind {g : α → Thread σ ι β} {Q' : β → σ → Prop} (h : Triple R I P t Q)
    (hg : ∀ a, Triple R I (Q a) (g a) Q') : Triple R I P (t >>= g) Q' :=
  fun s hI hP => Safe.bind ((h s hI hP).mono fun a s hI hQ => hg a s hI hQ)

theorem pure (a : α) (h : Stable R I P) (hQ : ∀ s, I s → P s → Q a s) :
    Triple (ι := ι) R I P (Pure.pure a) Q := by
  intro s hI hP s' hs
  obtain ⟨hI', hP'⟩ := h.closure hs hI hP
  exact ⟨hI', hQ s' hI' hP'⟩

/-- An action need only be looked at where it stands. -/
theorem atomic {f : σ → ι → Option (σ × α)} (hP : Stable R I P) (hQ : ∀ a, Stable R I (Q a))
    (h : ∀ s i s' a, I s → P s → f s i = some (s', a) → I s' ∧ Q a s') :
    Triple R I P (Thread.atomic f) Q := by
  intro s hI hPs s' hs
  obtain ⟨hI', hP'⟩ := hP.closure hs hI hPs
  refine ⟨hI', fun i s'' a hf s₃ hs₃ => ?_⟩
  obtain ⟨hI'', hQ''⟩ := h s' i s'' a hI' hP' hf
  exact (hQ a).closure hs₃ hI'' hQ''

/-- An action that only answers keeps what the others keep. -/
theorem answer {f : σ → ι → Option (σ × α)} (hP : Stable R I P)
    (h : ∀ s i s' a, f s i = some (s', a) → s' = s) :
    Triple R I P (Thread.atomic f) fun _ => P := by
  refine atomic hP (fun _ => hP) fun s i s' a hI hPs hf => ?_
  rw [h s i s' a hf]
  exact ⟨hI, hPs⟩

theorem weaken (h : Triple R I P t Q) (hP : ∀ s, I s → P' s → P s)
    (hQ : ∀ a s, I s → Q a s → Q' a s) : Triple R I P' t Q' :=
  fun s hI hP' => (h s hI (hP s hI hP')).mono hQ

theorem ite {c : Prop} [Decidable c] {u : Thread σ ι α} (ht : c → Triple R I P t Q)
    (hu : ¬c → Triple R I P u Q) : Triple R I P (if c then t else u) Q := by
  split
  next h => exact ht h
  next h => exact hu h

theorem pre (h : Triple R I P t Q) (hP : ∀ s, I s → P' s → P s) : Triple R I P' t Q :=
  fun s hI hP' => h s hI (hP s hI hP')

end Triple

/-- A run stays safe if whatever an ended thread starts over with is. -/
theorem run_safe {env : σ → ε → Option σ} {again : α → Option (Thread σ ι α)}
    (hagain : ∀ a t, again a = some t → Triple R I (Q a) t Q)
    (henv : ∀ s e s', env s e = some s' → R s s') {s s' : σ} {t t' : Thread σ ι α}
    (h : Safe R I Q t s) {ls : List (ε ⊕ ι)}
    (hr : Steps.run (next env again) (s, t) ls = some (s', t')) : Safe R I Q t' s' := by
  refine Steps.run_induction (I := fun c => Safe R I Q c.2 c.1) ?_ h
    (Steps.Guarded.of_forall (fun _ _ _ => trivial) _) hr
  rintro ⟨s, t⟩ l c' hs - hn
  cases l with
  | inl e =>
    obtain ⟨s', he, rfl⟩ := Option.map_eq_some_iff.mp (by simpa only [next] using hn)
    exact hs.moved (henv s e s' he)
  | inr i =>
    cases t with
    | done a =>
      obtain ⟨t, ha, rfl⟩ := Option.map_eq_some_iff.mp (by simpa only [next] using hn)
      exact hagain a t ha s (hs s .refl).1 (hs s .refl).2
    | act f k =>
      obtain ⟨⟨s', b⟩, hf, rfl⟩ := Option.map_eq_some_iff.mp (by simpa only [next] using hn)
      exact (hs s .refl).2 i s' b hf

/-- A loop whose body keeps `P` keeps the invariant in every run. -/
theorem loop_invariant {env : σ → ε → Option σ} {body t : Thread σ ι Unit} {P : σ → Prop}
    (hbody : Triple R I P body fun _ => P) (henv : ∀ s e s', env s e = some s' → R s s')
    {s s' : σ} (hI : I s) (hP : P s) {ls : List (ε ⊕ ι)}
    (hr : Steps.run (next env fun _ => some body) (s, body) ls = some (s', t)) : I s' := by
  refine (run_safe (fun _ t ht => ?_) henv (hbody s hI hP) hr).invariant
  obtain rfl := Option.some.inj ht
  exact hbody

end Thread
