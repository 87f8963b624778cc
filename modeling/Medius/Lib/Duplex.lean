import Medius.Lib.Transducer

/-! A client and a server joined by two first-in-first-out queues.  The server is a
machine that reads one request at a time and owes at most one reply for each, so what
the client may still hear is fixed by what it has sent, whenever the server runs. -/

universe u v w

structure Duplex (σ : Type u) (α : Type v) (β : Type w) where
  requests : List α
  server : σ
  replies : List β

namespace Duplex

variable {σ : Type u} {α : Type v} {β : Type w}

def send (d : Duplex σ α β) (a : α) : Duplex σ α β := { d with requests := d.requests ++ [a] }

variable (step : σ → α → σ × Option β)

def serve (d : Duplex σ α β) : Option (Duplex σ α β) :=
  match d.requests with
  | [] => none
  | a :: as => some ⟨as, (step d.server a).1, d.replies ++ (step d.server a).2.toList⟩

/-- The replies in flight, then the ones owed for the requests in flight. -/
def pending (d : Duplex σ α β) : List β :=
  d.replies ++ (Transducer.feed step d.server d.requests).2

/-- The server once it has read every request in flight. -/
def settled (d : Duplex σ α β) : σ := (Transducer.feed step d.server d.requests).1

/-- The last request in flight, if any, is owed a reply. -/
def LastOwed (d : Duplex σ α β) : Prop :=
  ∀ as a, d.requests = as ++ [a] → (step (Transducer.feed step d.server as).1 a).2 ≠ none

variable {step}

@[simp] theorem settled_send (d : Duplex σ α β) (a : α) :
    (d.send a).settled step = (step (d.settled step) a).1 := by
  simp [settled, send, Transducer.feed_append]

@[simp] theorem pending_send (d : Duplex σ α β) (a : α) :
    (d.send a).pending step = d.pending step ++ (step (d.settled step) a).2.toList := by
  simp [pending, settled, send, Transducer.feed_append]

theorem settled_serve {d d' : Duplex σ α β} (h : d.serve step = some d') :
    d'.settled step = d.settled step := by
  obtain ⟨_ | ⟨a, as⟩, s, rs⟩ := d
  · cases h
  · cases h
    rfl

theorem pending_serve {d d' : Duplex σ α β} (h : d.serve step = some d') :
    d'.pending step = d.pending step := by
  obtain ⟨_ | ⟨a, as⟩, s, rs⟩ := d
  · cases h
  · cases h
    simp [pending]

theorem lastOwed_send {d : Duplex σ α β} {a : α} (h : (step (d.settled step) a).2 ≠ none) :
    (d.send a).LastOwed step := by
  intro as b hb
  obtain ⟨rfl, hab⟩ := List.append_inj' hb rfl
  cases hab
  exact h

theorem lastOwed_serve {d d' : Duplex σ α β} (h : d.serve step = some d')
    (hd : d.LastOwed step) : d'.LastOwed step := by
  obtain ⟨_ | ⟨a, as⟩, s, rs⟩ := d
  · cases h
  · cases h
    intro bs b hb
    have hlast := hd (a :: bs) b (congrArg (a :: ·) hb)
    simpa using hlast

/-- A client with nothing more to hear has left nothing unread. -/
theorem idle_of_pending_nil {d : Duplex σ α β} (hd : d.LastOwed step)
    (h : d.pending step = []) : d.requests = [] ∧ d.replies = [] := by
  obtain ⟨hr, hf⟩ := List.append_eq_nil_iff.mp h
  refine ⟨?_, hr⟩
  rcases List.eq_nil_or_concat' d.requests with hn | ⟨as, a, ha⟩
  · exact hn
  · have hlast := hd as a ha
    rw [ha, Transducer.feed_append] at hf
    simp only [Transducer.feed_cons, Transducer.feed_nil, Prod.map, List.append_nil,
      List.append_eq_nil_iff, Option.toList_eq_nil_iff] at hf
    exact absurd hf.2 hlast

end Duplex
