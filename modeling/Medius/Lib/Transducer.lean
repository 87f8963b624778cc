import Mathlib

/-! A machine that reads one symbol at a time and gives at most one item for each. -/

universe u v w

namespace Transducer

variable {σ : Type u} {α : Type v} {β : Type w} (step : σ → α → σ × Option β)

def feed : σ → List α → σ × List β
  | s, [] => (s, [])
  | s, a :: as => (feed (step s a).1 as).map id ((step s a).2.toList ++ ·)

/-- The symbols come in chunks, and the state is kept from one to the next. -/
def feedAll : σ → List (List α) → σ × List β
  | s, [] => (s, [])
  | s, c :: cs => (feedAll (feed step s c).1 cs).map id ((feed step s c).2 ++ ·)

@[simp] theorem feed_nil (s : σ) : feed step s [] = (s, []) := rfl

@[simp] theorem feed_cons (s : σ) (a : α) (as : List α) :
    feed step s (a :: as) = (feed step (step s a).1 as).map id ((step s a).2.toList ++ ·) := rfl

theorem feed_append (s : σ) (as bs : List α) :
    feed step s (as ++ bs) =
      (feed step (feed step s as).1 bs).map id ((feed step s as).2 ++ ·) := by
  induction as generalizing s with
  | nil => rfl
  | cons a as ih => simp [ih, Prod.map]

/-- However the symbols are cut, the machine reads them as one list. -/
theorem feedAll_eq (s : σ) (cs : List (List α)) :
    feedAll step s cs = feed step s cs.flatten := by
  induction cs generalizing s with
  | nil => rfl
  | cons c cs ih => simp [feedAll, ih, feed_append]

variable {step}

theorem feed_of_silent {s s' : σ} {a : α} {as : List α} (h : step s a = (s', none)) :
    feed step s (a :: as) = feed step s' as := by
  simp [h, Prod.map]

/-- What ties the symbols read so far to the state and the items given, symbol by symbol. -/
theorem feed_induction {J : List α → σ → List β → Prop} {s : σ} (start : J [] s [])
    (next : ∀ read s items a, J read s items →
      J (read ++ [a]) (step s a).1 (items ++ (step s a).2.toList)) (as : List α) :
    J as (feed step s as).1 (feed step s as).2 := by
  have h : ∀ (bs : List α) (read : List α) (s : σ) (items : List β), J read s items →
      J (read ++ bs) (feed step s bs).1 (items ++ (feed step s bs).2) := by
    intro bs
    induction bs with
    | nil =>
      intro read s items hJ
      simpa using hJ
    | cons b bs ih =>
      intro read s items hJ
      have hb := ih (read ++ [b]) _ _ (next read s items b hJ)
      simpa using hb
  exact h as [] s [] start

end Transducer
