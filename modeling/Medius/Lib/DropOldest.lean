import Medius.Lib.Steps

/-! A bounded queue whose one sender makes room by taking the oldest item itself, each of its
steps apart, and counts what it takes. -/

universe u

namespace DropOldest

/-- Where the sender is: making room for `a`, sending it again, counting it. -/
inductive Sender (α : Type u)
  | ready
  | evicting (a : α)
  | resending (a : α)
  | counting
  deriving DecidableEq

/-- `received` and `offered` are history. -/
structure Queue (α : Type u) where
  items : List α := []
  dropped : Nat := 0
  sender : Sender α := .ready
  received : List α := []
  offered : List α := []

/-- How often the other end receives before the sender makes room, sends again, and counts. -/
structure Gaps where
  evict : Nat := 0
  resend : Nat := 0
  count : Nat := 0

inductive Act (α : Type u)
  | offer (a : α)
  | evict
  | resend
  | count
  | receive

variable {α : Type u}

namespace Queue

/-- What was offered and is neither received nor queued. -/
def missing (q : Queue α) : Nat := q.offered.length - (q.received.length + q.items.length)

def offer (cap : Nat) (q : Queue α) (a : α) : Queue α :=
  let q := { q with offered := q.offered ++ [a] }
  if q.items.length < cap then { q with items := q.items ++ [a] }
  else { q with sender := .evicting a }

/-- There may be nothing left to take. -/
def evict (q : Queue α) (a : α) : Queue α := { q with items := q.items.tail, sender := .resending a }

def resend (cap : Nat) (q : Queue α) (a : α) : Queue α :=
  if q.items.length < cap then { q with items := q.items ++ [a], sender := .counting }
  else { q with sender := .counting }

def count (q : Queue α) : Queue α := { q with dropped := q.dropped + 1, sender := .ready }

def receive (q : Queue α) : Queue α :=
  { q with items := q.items.tail, received := q.received ++ q.items.head?.toList }

def receives (q : Queue α) (n : Nat) : Queue α := Nat.iterate receive n q

/-- All of the sender's steps for one item, with what is received between them. -/
def push (cap : Nat) (gaps : Gaps) (q : Queue α) (a : α) : Queue α :=
  if q.items.length < cap then q.offer cap a
  else
    let q := ((q.offer cap a).receives gaps.evict).evict a
    let q := (q.receives gaps.resend).resend cap a
    (q.receives gaps.count).count

end Queue

def next (cap : Nat) (q : Queue α) : Act α → Option (Queue α)
  | .offer a => if q.sender matches .ready then some (q.offer cap a) else none
  | .evict =>
    match q.sender with
    | .evicting a => some (q.evict a)
    | _ => none
  | .resend =>
    match q.sender with
    | .resending a => some (q.resend cap a)
    | _ => none
  | .count => if q.sender matches .counting then some q.count else none
  | .receive => some q.receive

/-- The item the sender has in hand. -/
def Sender.inHand : Sender α → List α
  | .evicting a | .resending a => [a]
  | _ => []

/-- What is missing and not counted yet. -/
def Sender.owed : Sender α → Nat
  | .ready => 0
  | .evicting _ => 1
  | .resending _ => 2
  | .counting => 1

/-- An eviction finds something to take. -/
def Finds (q : Queue α) : Act α → Prop
  | .evict => q.items ≠ []
  | _ => True

def idle (q : Queue α) : Act α → Nat
  | .evict => if q.items = [] then 1 else 0
  | _ => 0

/-- With `n` evictions that found nothing, the count is over by so many. -/
structure Counted (cap : Nat) (n : Nat) (q : Queue α) : Prop where
  order : (q.received ++ q.items ++ q.sender.inHand).Sublist q.offered
  balance : q.dropped + q.sender.owed + (q.received.length + q.items.length) = q.offered.length + n
  room : q.items.length ≤ cap
  made : ∀ a, q.sender = .resending a → q.items.length < cap

theorem received_receive (q : Queue α) :
    q.receive.received ++ q.receive.items = q.received ++ q.items := by
  cases h : q.items <;> simp [Queue.receive, h]

section Steps

variable {cap n : Nat} {q : Queue α}

theorem Counted.offer (h : Counted cap n q) (hs : q.sender = .ready) (a : α) :
    Counted cap n (q.offer cap a) := by
  obtain ⟨horder, hcount, hroom, -⟩ := h
  rw [hs] at horder hcount
  simp only [Sender.inHand, List.append_nil] at horder
  simp only [Sender.owed] at hcount
  unfold Queue.offer
  dsimp only
  split
  next hlt =>
    refine ⟨?_, ?_, ?_, fun b hb => ?_⟩
    · simpa [hs, Sender.inHand, ← List.append_assoc] using horder
    · simp [hs, Sender.owed]
      omega
    · simp
      omega
    · rw [hs] at hb
      cases hb
  next hge =>
    refine ⟨horder.append_right _, ?_, hroom, nofun⟩
    simp [Sender.owed]
    omega

theorem Counted.evict (h : Counted cap n q) (hcap : 0 < cap) {a : α} (hs : q.sender = .evicting a) :
    Counted cap (n + idle q .evict) (q.evict a) := by
  obtain ⟨horder, hcount, hroom, -⟩ := h
  rw [hs] at horder hcount
  simp only [Sender.owed] at hcount
  cases hi : q.items with
  | nil =>
    rw [hi] at horder hcount
    refine ⟨?_, ?_, ?_, fun b _ => ?_⟩
    · simpa [Queue.evict, hi, Sender.inHand] using horder
    · simp [Queue.evict, hi, Sender.owed, idle] at hcount ⊢
      omega
    · simp [Queue.evict, hi]
    · simpa [Queue.evict, hi] using hcap
  | cons b items =>
    rw [hi] at horder hcount hroom
    simp only [List.length_cons] at hcount hroom
    have hrest : (q.evict a).items = items := by simp [Queue.evict, hi]
    refine ⟨?_, ?_, ?_, fun b _ => ?_⟩
    · refine List.Sublist.trans ?_ horder
      rw [hrest]
      exact ((List.sublist_cons_self b items).append_left _).append_right _
    · simp [Queue.evict, hi, Sender.owed, idle]
      omega
    · rw [hrest]
      omega
    · rw [hrest]
      omega

theorem Counted.resend (h : Counted cap n q) {a : α} (hs : q.sender = .resending a) :
    Counted cap n (q.resend cap a) := by
  obtain ⟨horder, hcount, hroom, hmade⟩ := h
  have hlt := hmade a hs
  rw [hs] at horder hcount
  simp only [Sender.owed] at hcount
  rw [Queue.resend, if_pos hlt]
  refine ⟨?_, ?_, ?_, nofun⟩
  · simpa [Sender.inHand] using horder
  · simp [Sender.owed]
    omega
  · simp
    omega

theorem Counted.count (h : Counted cap n q) (hs : q.sender = .counting) :
    Counted cap n q.count := by
  obtain ⟨horder, hcount, hroom, -⟩ := h
  rw [hs] at horder hcount
  refine ⟨horder, ?_, hroom, nofun⟩
  simp [Queue.count, Sender.owed] at hcount ⊢
  omega

theorem Counted.receive (h : Counted cap n q) : Counted cap n q.receive := by
  obtain ⟨horder, hcount, hroom, hmade⟩ := h
  have hlen := congrArg List.length (received_receive q)
  simp only [List.length_append] at hlen
  have htail : q.receive.items.length ≤ q.items.length := by simp [Queue.receive]
  refine ⟨?_, ?_, htail.trans hroom, fun a ha => lt_of_le_of_lt htail (hmade a ha)⟩
  · rw [received_receive]
    exact horder
  · rw [hlen]
    exact hcount

theorem Counted.next (h : Counted cap n q) (hcap : 0 < cap) {q' : Queue α} {l : Act α}
    (hn : next cap q l = some q') : Counted cap (n + idle q l) q' := by
  cases l with
  | offer a =>
    cases hs : q.sender with
    | ready =>
      obtain rfl := Option.some.inj (by simpa [DropOldest.next, hs] using hn)
      exact h.offer hs a
    | _ => simp [DropOldest.next, hs] at hn
  | evict =>
    cases hs : q.sender with
    | evicting a =>
      obtain rfl := Option.some.inj (by simpa [DropOldest.next, hs] using hn)
      exact h.evict hcap hs
    | _ => simp [DropOldest.next, hs] at hn
  | resend =>
    cases hs : q.sender with
    | resending a =>
      obtain rfl := Option.some.inj (by simpa [DropOldest.next, hs] using hn)
      exact h.resend hs
    | _ => simp [DropOldest.next, hs] at hn
  | count =>
    cases hs : q.sender with
    | counting =>
      obtain rfl := Option.some.inj (by simpa [DropOldest.next, hs] using hn)
      exact h.count hs
    | _ => simp [DropOldest.next, hs] at hn
  | receive =>
    obtain rfl := Option.some.inj hn
    exact h.receive

end Steps

theorem counted_empty (cap : Nat) : Counted cap 0 ({} : Queue α) :=
  ⟨.slnil, rfl, Nat.zero_le _, nofun⟩

theorem finds_iff (q : Queue α) (l : Act α) : Finds q l ↔ idle q l = 0 := by
  cases l with
  | evict => simp [Finds, idle]
  | _ => exact iff_of_true trivial rfl

/-- A run counts every eviction that found nothing as well. -/
theorem Counted.run {cap n : Nat} (hcap : 0 < cap) {q q' : Queue α} (h : Counted cap n q)
    {ls : List (Act α)} (hr : Steps.run (DropOldest.next cap) q ls = some q') :
    ∃ m, n ≤ m ∧ Counted cap m q' ∧
      (Steps.Guarded (DropOldest.next cap) Finds q ls ↔ m = n) := by
  induction ls generalizing n q with
  | nil =>
    cases hr
    exact ⟨n, Nat.le_refl n, h, iff_of_true trivial rfl⟩
  | cons l ls ih =>
    obtain ⟨t, ht, hrt⟩ := Option.bind_eq_some_iff.mp hr
    obtain ⟨m, hm, hcounted, hguarded⟩ := ih (h.next hcap ht) hrt
    refine ⟨m, by omega, hcounted, ?_⟩
    have hcons : Steps.Guarded (DropOldest.next cap) Finds q (l :: ls) ↔
        Finds q l ∧ Steps.Guarded (DropOldest.next cap) Finds t ls :=
      ⟨fun hg => ⟨hg.1, hg.2 t ht⟩, fun hg => hg.2.cons hg.1 ht |>.mono fun _ _ h => h⟩
    rw [hcons, hguarded, finds_iff]
    omega

section Receives

variable {cap n : Nat} {q : Queue α}

theorem sender_receives (q : Queue α) (k : Nat) : (q.receives k).sender = q.sender := by
  induction k generalizing q with
  | zero => rfl
  | succ k ih => exact ih q.receive

theorem offered_receives (q : Queue α) (k : Nat) : (q.receives k).offered = q.offered := by
  induction k generalizing q with
  | zero => rfl
  | succ k ih => exact ih q.receive

theorem length_receives (q : Queue α) (k : Nat) :
    (q.receives k).items.length = q.items.length - k := by
  induction k generalizing q with
  | zero => rfl
  | succ k ih =>
    refine (ih q.receive).trans ?_
    rw [Queue.receive, List.length_tail]
    omega

theorem Counted.receives (h : Counted cap n q) (k : Nat) : Counted cap n (q.receives k) := by
  induction k generalizing q with
  | zero => exact h
  | succ k ih => exact ih h.receive

/-- One item that finds the queue full, with the count over by one if it is emptied meanwhile. -/
theorem Counted.push_full (hcap : 0 < cap) (h : Counted cap n q) (hs : q.sender = .ready)
    (hfull : cap ≤ q.items.length) (gaps : Gaps) (a : α) :
    ∃ m, Counted cap m (q.push cap gaps a) ∧ (q.push cap gaps a).sender = .ready ∧
      (q.push cap gaps a).offered = q.offered ++ [a] ∧ (gaps.evict < cap → m = n) := by
  have hoffer := (h.offer hs a).receives gaps.evict
  have hoffered : q.offer cap a = { q with offered := q.offered ++ [a], sender := .evicting a } :=
    if_neg (Nat.not_lt.mpr hfull)
  have hsender : ((q.offer cap a).receives gaps.evict).sender = .evicting a := by
    rw [sender_receives, hoffered]
  have hevict := (hoffer.evict hcap hsender).receives gaps.resend
  have hresend := (hevict.resend (a := a) (by rw [sender_receives]; rfl)).receives gaps.count
  have hpush : q.push cap gaps a =
      ((((((q.offer cap a).receives gaps.evict).evict a).receives gaps.resend).resend cap
        a).receives gaps.count).count := if_neg (Nat.not_lt.mpr hfull)
  rw [hpush]
  refine ⟨_, hresend.count ?_, rfl, ?_, fun hgap => ?_⟩
  · rw [sender_receives]
    unfold Queue.resend
    split <;> rfl
  · have hrest (q : Queue α) : (q.resend cap a).offered = q.offered := by
      unfold Queue.resend
      split <;> rfl
    change (Queue.receives _ _).offered = _
    rw [offered_receives, hrest, offered_receives]
    change (Queue.receives _ _).offered = _
    rw [offered_receives, hoffered]
  · have hlen := length_receives (q.offer cap a) gaps.evict
    rw [hoffered] at hlen
    rw [(finds_iff _ .evict).mp, Nat.add_zero]
    rw [Finds, ← List.length_pos_iff, hoffered, hlen]
    exact Nat.sub_pos_of_lt (hgap.trans_le hfull)

end Receives

/-- A queue between items: its count is what is missing, or more, and no more if `sharp`. -/
structure Idle (cap : Nat) (sharp : Prop) (q : Queue α) : Prop where
  counted : ∃ n, Counted cap n q ∧ (sharp → n = 0)
  ready : q.sender = .ready

theorem idle_empty (cap : Nat) (sharp : Prop) : Idle cap sharp ({} : Queue α) :=
  ⟨⟨0, counted_empty cap, fun _ => rfl⟩, rfl⟩

section Idle

variable {cap : Nat} {sharp : Prop} {q : Queue α}

theorem Idle.push (hcap : 0 < cap) (h : Idle cap sharp q) {gaps : Gaps}
    (hgaps : sharp → gaps.evict < cap) (a : α) :
    Idle cap sharp (q.push cap gaps a) ∧ (q.push cap gaps a).offered = q.offered ++ [a] := by
  obtain ⟨⟨n, hcounted, hexact⟩, hs⟩ := h
  by_cases hroom : q.items.length < cap
  · have hpush : q.push cap gaps a = q.offer cap a := if_pos hroom
    have hoffer : q.offer cap a =
        { q with offered := q.offered ++ [a], items := q.items ++ [a] } := if_pos hroom
    refine ⟨⟨⟨n, hpush ▸ hcounted.offer hs a, hexact⟩, ?_⟩, ?_⟩
    · rw [hpush, hoffer]
      exact hs
    · rw [hpush, hoffer]
  · obtain ⟨m, hcounted, hready, hoffered, hsame⟩ :=
      hcounted.push_full hcap hs (Nat.not_lt.mp hroom) gaps a
    exact ⟨⟨⟨m, hcounted, fun he => (hsame (hgaps he)).trans (hexact he)⟩, hready⟩, hoffered⟩

theorem Idle.receive (h : Idle cap sharp q) : Idle cap sharp q.receive := by
  obtain ⟨⟨n, hcounted, hexact⟩, hs⟩ := h
  exact ⟨⟨n, hcounted.receive, hexact⟩, hs⟩

/-- What was offered was received, is queued, or is counted as dropped. -/
theorem Idle.balance (h : Idle cap sharp q) :
    (q.received ++ q.items).Sublist q.offered ∧ q.items.length ≤ cap ∧
      q.offered.length ≤ q.dropped + (q.received.length + q.items.length) ∧
      (sharp → q.dropped + (q.received.length + q.items.length) = q.offered.length) := by
  obtain ⟨⟨n, hcounted, hexact⟩, hs⟩ := h
  have hbalance := hcounted.balance
  rw [hs] at hbalance
  refine ⟨(List.sublist_append_left _ _).trans hcounted.order, hcounted.room, ?_, fun he => ?_⟩
  · exact (Nat.le_add_right _ _).trans hbalance.ge
  · rw [hexact he] at hbalance
    exact hbalance

end Idle

/-- Once the sender is done, the count is exact if and only if every eviction found something. -/
theorem dropped_iff {cap : Nat} (hcap : 0 < cap) {ls : List (Act α)} {q : Queue α}
    (hr : Steps.run (next cap) {} ls = some q) (hs : q.sender = .ready) :
    q.dropped = q.missing ↔ Steps.Guarded (next cap) Finds ({} : Queue α) ls := by
  obtain ⟨m, -, hcounted, hguarded⟩ := (counted_empty cap).run hcap hr
  have hcount := hcounted.balance
  rw [hs] at hcount
  simp only [Sender.owed] at hcount
  have hlen := hcounted.order.length_le
  simp only [List.length_append] at hlen
  rw [hguarded, Queue.missing]
  omega

theorem received_sublist {cap : Nat} (hcap : 0 < cap) {ls : List (Act α)} {q : Queue α}
    (hr : Steps.run (next cap) {} ls = some q) : (q.received ++ q.items).Sublist q.offered := by
  obtain ⟨m, -, hcounted, -⟩ := (counted_empty cap).run hcap hr
  exact (List.sublist_append_left _ _).trans hcounted.order

end DropOldest
