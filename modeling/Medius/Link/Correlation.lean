import Medius.Lib.Steps
import Medius.Protocol.Frame

/-! The queries in flight, by `SEQ`, and the replies handed to their waiters. -/

namespace Medius.Link

open Protocol

structure PendingEntry where
  genId : Nat
  expectedTy : FrameType
  expectedWhat : UInt8
  deriving DecidableEq

/-- The pending map. -/
abbrev Pending := UInt8 → Option PendingEntry

/-- `SEQ` of the box's unsolicited hello. -/
abbrev helloSeq : UInt8 := 0

namespace Pending

/-- The search for a free `SEQ`: what it settles on, and the counter after it. -/
def findFree (pending : Pending) : Nat → UInt8 → UInt8 → UInt8 × UInt8
  | 0, seq, counter => (seq, counter)
  | n + 1, seq, counter =>
    if seq ≠ helloSeq ∧ pending seq = none then (seq, counter)
    else findFree pending n counter (counter + 1)

/-- The `SEQ` the query takes, and the counter after it. -/
def takeSeq (pending : Pending) (counter : UInt8) : UInt8 × UInt8 :=
  let (seq, counter) := findFree pending 256 counter (counter + 1)
  if seq = helloSeq then (counter, counter + 1) else (seq, counter)

def register (pending : Pending) (genId : Nat) (counter : UInt8) (expectedTy : FrameType)
    (expectedWhat : UInt8) : UInt8 × UInt8 × Pending :=
  let (seq, counter) := pending.takeSeq counter
  (seq, counter, Function.update pending seq (some ⟨genId, expectedTy, expectedWhat⟩))

def cancel (pending : Pending) (seq : UInt8) (genId : Nat) : Pending :=
  if (pending seq).any (·.genId = genId) then Function.update pending seq none else pending

/-- The waiter the payload goes to, if any. -/
def deliver (pending : Pending) (ty : FrameType) (seq : UInt8) (payload : List UInt8) :
    Pending × Option Nat :=
  match pending seq with
  | some e =>
    if e.expectedTy = ty ∧ payload.head? = some e.expectedWhat then
      (Function.update pending seq none, some e.genId)
    else (pending, none)
  | none => (pending, none)

/-! ## The `SEQ` a query takes -/

/-- Some `SEQ` but the hello's is free. -/
def HasFree (pending : Pending) : Prop := ∃ seq, seq ≠ helloSeq ∧ pending seq = none

/-- The new waiter's `SEQ` is not the hello's and nobody's, so no waiter loses its entry. -/
structure Spares (pending : Pending) (genId : Nat) (counter : UInt8) (expectedTy : FrameType)
    (expectedWhat : UInt8) : Prop where
  not_hello : (pending.register genId counter expectedTy expectedWhat).1 ≠ helloSeq
  free : pending (pending.register genId counter expectedTy expectedWhat).1 = none
  kept : ∀ seq e, pending seq = some e →
    (pending.register genId counter expectedTy expectedWhat).2.2 seq = some e

variable {pending : Pending}

variable (pending) in
/-- The search stops at a free value or has tried as many as it may. -/
theorem findFree_spec (n : Nat) (seq : UInt8) :
    (pending.findFree n seq (seq + 1)).1 ≠ helloSeq ∧
        pending (pending.findFree n seq (seq + 1)).1 = none ∨
      pending.findFree n seq (seq + 1) = (seq + UInt8.ofNat n, seq + UInt8.ofNat n + 1) ∧
        ∀ k < n, ¬(seq + UInt8.ofNat k ≠ helloSeq ∧ pending (seq + UInt8.ofNat k) = none) := by
  induction n generalizing seq with
  | zero => exact .inr ⟨by simp [findFree], by simp⟩
  | succ n ih =>
    rw [findFree]
    split
    next h => exact .inl h
    next h =>
      rcases ih (seq + 1) with hfree | ⟨hlast, hnone⟩
      · exact .inl hfree
      · refine .inr ⟨?_, fun k hk => ?_⟩
        · rw [hlast]
          have hadd : seq + 1 + UInt8.ofNat n = seq + UInt8.ofNat (n + 1) := by
            rw [UInt8.ofNat_add]
            grind
          rw [hadd]
        · cases k with
          | zero => simpa using h
          | succ k =>
            have hadd : seq + UInt8.ofNat (k + 1) = seq + 1 + UInt8.ofNat k := by
              rw [UInt8.ofNat_add]
              grind
            rw [hadd]
            exact hnone k (by omega)

theorem takeSeq_ne_hello (pending : Pending) (counter : UInt8) :
    (pending.takeSeq counter).1 ≠ helloSeq := by
  simp only [takeSeq]
  rcases findFree_spec pending 256 counter with ⟨hseq, -⟩ | ⟨hlast, -⟩
  · rw [if_neg hseq]
    exact hseq
  · have hround : counter + UInt8.ofNat 256 = counter := by
      change counter + 0 = counter
      exact UInt8.add_zero counter
    rw [hlast, hround]
    split
    next h =>
      have hzero : counter = helloSeq := h
      rw [hzero]
      decide
    next h => exact h

theorem takeSeq_free (h : pending.HasFree) (counter : UInt8) :
    pending (pending.takeSeq counter).1 = none := by
  simp only [takeSeq]
  rcases findFree_spec pending 256 counter with ⟨hseq, hfree⟩ | ⟨-, hnone⟩
  · rw [if_neg hseq]
    exact hfree
  · obtain ⟨seq, hseq⟩ := h
    have hat := hnone (seq - counter).toNat (seq - counter).toNat_lt
    have hback : counter + UInt8.ofNat (seq - counter).toNat = seq := by
      rw [UInt8.ofNat_toNat]
      grind
    rw [hback] at hat
    exact absurd hseq hat

/-- A query takes a free `SEQ` exactly where there is one. -/
theorem spares_iff (pending : Pending) (genId : Nat) (counter : UInt8) (expectedTy : FrameType)
    (expectedWhat : UInt8) :
    pending.Spares genId counter expectedTy expectedWhat ↔ pending.HasFree := by
  constructor
  · intro h
    exact ⟨_, h.not_hello, h.free⟩
  · intro h
    have hfree := takeSeq_free h counter
    refine ⟨takeSeq_ne_hello pending counter, hfree, fun seq e he => ?_⟩
    have hne : seq ≠ (pending.takeSeq counter).1 := by
      rintro rfl
      rw [hfree] at he
      cases he
    exact (Function.update_of_ne hne _ _).trans he

/-- A query in flight on every `SEQ` but the hello's. -/
def full : Pending := fun seq =>
  if seq = helloSeq then none else some ⟨seq.toNat, .resp, qVersion⟩

/-- With a query on every `SEQ`, the next one takes a live waiter's. -/
theorem register_evicts :
    full 5 = some ⟨5, .resp, qVersion⟩ ∧
      (full.register 256 5 .resp qCaps).1 = 5 ∧
      (full.register 256 5 .resp qCaps).2.2 5 = some ⟨256, .resp, qCaps⟩ ∧
      ¬full.Spares 256 5 .resp qCaps := by
  have hseq : (full.register 256 5 .resp qCaps).1 = 5 := by decide +kernel
  refine ⟨rfl, hseq, by decide +kernel, fun h => ?_⟩
  have hfree := h.free
  rw [hseq] at hfree
  cases hfree

/-! ## Waiters -/

end Pending

/-- One caller's registration. -/
structure Waiter where
  genId : Nat
  seq : UInt8
  ty : FrameType
  what : UInt8
  deriving DecidableEq

/-- The map, the counters every frame shares, and what was handed to whom. -/
structure Correlation where
  pending : Pending
  seq : UInt8
  queryGen : Nat
  waiters : List Waiter
  received : List (Nat × DecodedFrame)

inductive CorrelationLabel
  | register (expectedTy : FrameType) (expectedWhat : UInt8)
  | cancel (seq : UInt8) (genId : Nat)
  | frame (frame : DecodedFrame)
  | otherFrames (sent : UInt8)
  deriving DecidableEq

namespace Correlation

def start (seq : UInt8) : Correlation where
  pending _ := none
  seq := seq
  queryGen := 0
  waiters := []
  received := []

def deliver (c : Correlation) (frame : DecodedFrame) : Correlation :=
  match c.pending.deliver frame.ty frame.seq frame.payload with
  | (pending, some genId) =>
    { c with pending := pending, received := c.received ++ [(genId, frame)] }
  | (pending, none) => { c with pending := pending }

/-- What the reader does with one frame, as far as queries go. -/
def routeFrame (c : Correlation) (frame : DecodedFrame) : Correlation :=
  match frame.ty with
  | .resp =>
    if frame.seq = helloSeq ∧ frame.payload.head? = some qVersion then c else c.deliver frame
  | .transferResp => c.deliver frame
  | _ => c

/-- A cancel may come from any waiter there has been, however late. -/
def next (c : Correlation) : CorrelationLabel → Option Correlation
  | .register expectedTy expectedWhat =>
    let (seq, counter, pending) :=
      c.pending.register c.queryGen c.seq expectedTy expectedWhat
    some { c with
      pending := pending
      seq := counter
      queryGen := c.queryGen + 1
      waiters := c.waiters ++ [⟨c.queryGen, seq, expectedTy, expectedWhat⟩] }
  | .cancel seq genId =>
    if ∃ w ∈ c.waiters, w.seq = seq ∧ w.genId = genId then
      some { c with pending := c.pending.cancel seq genId }
    else none
  | .frame frame => some (c.routeFrame frame)
  | .otherFrames sent => some { c with seq := c.seq + sent }

/-- What was handed out is right: each waiter has at most one payload, from a frame with its
own `SEQ`, type and first byte, and never the hello's `SEQ`. -/
structure Delivers (c : Correlation) : Prop where
  once : (c.received.map (·.1)).Nodup
  matches_ : ∀ g frame, (g, frame) ∈ c.received → ∃ w ∈ c.waiters, w.genId = g ∧
    frame.seq = w.seq ∧ frame.ty = w.ty ∧ frame.payload.head? = some w.what
  not_hello : ∀ g frame, (g, frame) ∈ c.received → frame.seq ≠ helloSeq

/-- An entry belongs to a waiter that has had nothing yet, under its own `SEQ`. -/
structure Inv (c : Correlation) : Prop extends Delivers c where
  entry : ∀ seq e, c.pending seq = some e →
    ⟨e.genId, seq, e.expectedTy, e.expectedWhat⟩ ∈ c.waiters ∧
      ∀ frame, (e.genId, frame) ∉ c.received
  seqs : ∀ w ∈ c.waiters, w.seq ≠ helloSeq
  fresh : ∀ w ∈ c.waiters, w.genId < c.queryGen
  unique : ∀ w ∈ c.waiters, ∀ w' ∈ c.waiters, w.genId = w'.genId → w = w'

theorem start_inv (seq : UInt8) : (start seq).Inv where
  once := List.nodup_nil
  matches_ _ _ h := absurd h List.not_mem_nil
  not_hello _ _ h := absurd h List.not_mem_nil
  entry _ _ h := by cases h
  seqs _ h := absurd h List.not_mem_nil
  fresh _ h := absurd h List.not_mem_nil
  unique _ h := absurd h List.not_mem_nil

/-- A step that hands out nothing, brings no waiter and at most drops entries. -/
theorem Inv.of_pending {c : Correlation} (h : c.Inv) {pending : Pending} {seq : UInt8}
    (hp : ∀ seq e, pending seq = some e → c.pending seq = some e) :
    ({ c with pending := pending, seq := seq } : Correlation).Inv :=
  { h with entry := fun seq e he => h.entry seq e (hp seq e he) }

/-- The state after a registration under this `SEQ`. -/
def registered (c : Correlation) (seq counter : UInt8) (ty : FrameType) (what : UInt8) :
    Correlation :=
  { c with
    pending := Function.update c.pending seq (some ⟨c.queryGen, ty, what⟩)
    seq := counter
    queryGen := c.queryGen + 1
    waiters := c.waiters ++ [⟨c.queryGen, seq, ty, what⟩] }

theorem next_register (c : Correlation) (ty : FrameType) (what : UInt8) :
    c.next (.register ty what) =
      some (c.registered (c.pending.takeSeq c.seq).1 (c.pending.takeSeq c.seq).2 ty what) := rfl

theorem registered_inv {c : Correlation} (h : c.Inv) {new : UInt8} (hhello : new ≠ helloSeq)
    (counter : UInt8) (ty : FrameType) (what : UInt8) :
    (c.registered new counter ty what).Inv := by
  have hold : ∀ g frame, (g, frame) ∈ c.received → g < c.queryGen := by
    intro g frame hg
    obtain ⟨w, hw, rfl, -⟩ := h.matches_ g frame hg
    exact h.fresh w hw
  refine ⟨⟨h.once, fun g frame hg => ?_, h.not_hello⟩, fun seq e he => ?_, fun w hw => ?_,
    fun w hw => ?_, fun w hw w' hw' heq => ?_⟩
  · obtain ⟨w, hw, hmatch⟩ := h.matches_ g frame hg
    exact ⟨w, List.mem_append_left _ hw, hmatch⟩
  · by_cases hseq : seq = new
    · subst hseq
      have he' : (⟨c.queryGen, ty, what⟩ : PendingEntry) = e :=
        Option.some.inj ((Function.update_self seq _ c.pending).symm.trans he)
      subst he'
      exact ⟨List.mem_append_right _ (List.mem_singleton_self _),
        fun frame hg => absurd (hold _ frame hg) (lt_irrefl _)⟩
    · have he' : c.pending seq = some e := (Function.update_of_ne hseq _ _).symm.trans he
      obtain ⟨hw, hnone⟩ := h.entry seq e he'
      exact ⟨List.mem_append_left _ hw, hnone⟩
  · rcases List.mem_append.mp hw with hw | hw
    · exact h.seqs w hw
    · rw [List.mem_singleton.mp hw]
      exact hhello
  · rcases List.mem_append.mp hw with hw | hw
    · exact (h.fresh w hw).trans (Nat.lt_succ_self _)
    · rw [List.mem_singleton.mp hw]
      exact Nat.lt_succ_self _
  · rcases List.mem_append.mp hw with hw | hw <;> rcases List.mem_append.mp hw' with hw' | hw'
    · exact h.unique w hw w' hw' heq
    · rw [List.mem_singleton.mp hw'] at heq
      exact absurd heq (h.fresh w hw).ne
    · rw [List.mem_singleton.mp hw] at heq
      exact absurd heq.symm (h.fresh w' hw').ne
    · rw [List.mem_singleton.mp hw, List.mem_singleton.mp hw']

theorem cancel_kept {pending : Pending} {seq seq' : UInt8} {genId : Nat} {e : PendingEntry}
    (he : pending seq' = some e) (hg : e.genId ≠ genId) :
    pending.cancel seq genId seq' = some e := by
  unfold Pending.cancel
  split
  next hown =>
    have hne : seq' ≠ seq := by
      rintro rfl
      rw [he] at hown
      exact hg (by simpa using hown)
    exact (Function.update_of_ne hne _ _).trans he
  next => exact he

theorem cancel_le {pending : Pending} {seq seq' : UInt8} {genId : Nat} {e : PendingEntry}
    (he : pending.cancel seq genId seq' = some e) : pending seq' = some e := by
  unfold Pending.cancel at he
  split at he
  · by_cases hne : seq' = seq
    · subst hne
      rw [Function.update_self] at he
      cases he
    · rwa [Function.update_of_ne hne] at he
  · exact he

/-- A frame that is not a hello either finds its waiter or changes nothing. -/
theorem deliver_spec (pending : Pending) (frame : DecodedFrame) :
    pending.deliver frame.ty frame.seq frame.payload = (pending, none) ∨
      ∃ e, pending frame.seq = some e ∧ e.expectedTy = frame.ty ∧
        frame.payload.head? = some e.expectedWhat ∧
        pending.deliver frame.ty frame.seq frame.payload =
          (Function.update pending frame.seq none, some e.genId) := by
  unfold Pending.deliver
  cases he : pending frame.seq with
  | none => exact .inl rfl
  | some e =>
    dsimp only
    split
    next h => exact .inr ⟨e, rfl, h.1, h.2, rfl⟩
    next => exact .inl rfl

/-- Handing a payload to the waiter whose entry it matches. -/
theorem Inv.handOut {c : Correlation} (h : c.Inv) {frame : DecodedFrame} {e : PendingEntry}
    (he : c.pending frame.seq = some e) (hty : e.expectedTy = frame.ty)
    (hwhat : frame.payload.head? = some e.expectedWhat) :
    ({ c with
      pending := Function.update c.pending frame.seq none
      received := c.received ++ [(e.genId, frame)] } : Correlation).Inv := by
  obtain ⟨hw, hnone⟩ := h.entry frame.seq e he
  refine ⟨⟨?_, fun g f hg => ?_, fun g f hg => ?_⟩, fun seq e' he' => ?_, h.seqs, h.fresh,
    h.unique⟩
  · rw [List.map_append, List.nodup_append]
    refine ⟨h.once, List.nodup_singleton _, ?_⟩
    intro g hg g' hg'
    obtain rfl := List.mem_singleton.mp hg'
    obtain ⟨⟨g₀, f⟩, hf, rfl⟩ := List.mem_map.mp hg
    rintro rfl
    exact hnone f hf
  · rcases List.mem_append.mp hg with hg | hg
    · exact h.matches_ g f hg
    · cases List.mem_singleton.mp hg
      exact ⟨_, hw, rfl, rfl, hty.symm, hwhat⟩
  · rcases List.mem_append.mp hg with hg | hg
    · exact h.not_hello g f hg
    · cases List.mem_singleton.mp hg
      exact h.seqs _ hw
  · have hne : seq ≠ frame.seq := by
      rintro rfl
      dsimp only at he'
      rw [Function.update_self] at he'
      cases he'
    dsimp only at he'
    rw [Function.update_of_ne hne] at he'
    obtain ⟨hw', hnone'⟩ := h.entry seq e' he'
    refine ⟨hw', fun f hf => ?_⟩
    rcases List.mem_append.mp hf with hf | hf
    · exact hnone' f hf
    · have hg : e'.genId = e.genId := congrArg Prod.fst (List.mem_singleton.mp hf)
      exact hne (congrArg Waiter.seq (h.unique _ hw' _ hw hg))

theorem deliver_inv {c : Correlation} (h : c.Inv) (frame : DecodedFrame) :
    (c.deliver frame).Inv := by
  unfold deliver
  rcases deliver_spec c.pending frame with hd | ⟨e, he, hty, hwhat, hd⟩
  · rw [hd]
    exact h
  · rw [hd]
    exact h.handOut he hty hwhat

theorem routeFrame_inv {c : Correlation} (h : c.Inv) (frame : DecodedFrame) :
    (c.routeFrame frame).Inv := by
  unfold routeFrame
  split
  · split
    · exact h
    · exact deliver_inv h frame
  · exact deliver_inv h frame
  · exact h

theorem next_inv {c c' : Correlation} (h : c.Inv) {l : CorrelationLabel}
    (hn : c.next l = some c') : c'.Inv := by
  cases l with
  | register ty what =>
    obtain rfl := Option.some.inj ((next_register c ty what).symm.trans hn)
    exact registered_inv h (Pending.takeSeq_ne_hello _ _) _ ty what
  | cancel seq genId =>
    simp only [next] at hn
    split at hn
    · cases hn
      exact h.of_pending fun seq e he => cancel_le he
    · cases hn
  | frame frame =>
    cases hn
    exact routeFrame_inv h frame
  | otherFrames sent =>
    cases hn
    exact h.of_pending fun seq e he => he

/-- In every state of every run what was handed out is right, and a cancel takes away no
entry but its own waiter's. -/
theorem queries_never_misdeliver (seq : UInt8) (labels : List CorrelationLabel)
    (c : Correlation) (hr : Steps.run next (start seq) labels = some c) :
    c.Delivers ∧ ∀ seq genId c', c.next (.cancel seq genId) = some c' →
      ∀ seq' e, c.pending seq' = some e → e.genId ≠ genId → c'.pending seq' = some e := by
  have h : c.Inv := Steps.run_induction
    (fun _ _ _ hI (_ : True) hn => next_inv hI hn) (start_inv seq) (.of_forall (fun _ _ _ => trivial) _) hr
  refine ⟨h.toDelivers, fun seq genId c' hn seq' e he hg => ?_⟩
  simp only [next] at hn
  split at hn
  · cases hn
    exact cancel_kept he hg
  · cases hn

/-- Two queries on one `SEQ`: the first times out, its late reply reaches nobody and its late
cancel leaves the second alone. -/
def lateReply : List CorrelationLabel :=
  [.register .resp qCaps, .cancel 3 0, .otherFrames 255, .register .resp qStats,
    .frame ⟨.resp, 3, [qCaps, 1]⟩, .cancel 3 0, .frame ⟨.resp, 3, [qStats, 2]⟩]

theorem queries_never_misdeliver_late :
    ∃ c, Steps.run next (start 3) lateReply = some c ∧
      c.received = [(1, ⟨.resp, 3, [qStats, 2]⟩)] ∧ c.Delivers := by
  have hrun : (Steps.run next (start 3) lateReply).map (·.received) =
      some [(1, ⟨.resp, 3, [qStats, 2]⟩)] := by
    decide +kernel
  obtain ⟨c, hr, hreceived⟩ := Option.map_eq_some_iff.mp hrun
  exact ⟨c, hr, hreceived, (queries_never_misdeliver 3 lateReply c hr).1⟩

end Correlation

end Medius.Link
