import Medius.Lib.DropOldest
import Medius.Lib.Refine
import Medius.Link.Catch
import Medius.Types.Event

/-! Events handed to a subscription's queue, and what the queue drops. -/

namespace Medius.Link

open Protocol Medius.Types DropOldest

abbrev catchCapacity : Nat := 256

def decodeEvent (ty : FrameType) (payload : List UInt8) : Option CatchEvent :=
  match ty with
  | .motionEvent => (MotionEvent.fromPayload payload).map .motion
  | .usageEvent => (UsageSnapshot.fromPayload payload).map .usages
  | .trafficEvent => (TrafficEvent.fromPayload payload).map .traffic
  | _ => none

/-- Motion is wanted for any axis the report moved, by its sign; a snapshot by its class and
edge. -/
def wanted (sub : CatchSub) : CatchEvent → Bool
  | .motion m =>
    let filters := FilterSet.filters sub.filters
    if m.axes.isEmpty then filters.any fun f => f.matchesClassOnly .axis
    else m.axes.any fun a => filters.any fun f => f.matches_ .axis a.1.asU16 (.ofDelta a.2)
  | .usages u => (FilterSet.filters sub.filters).any fun f =>
      f.matchesClassOnly u.class_.toCatch && f.direction.admits u.direction
  | .traffic t => (FilterSet.filters sub.filters).any fun f => f.matches_ t.class_ t.id t.direction

namespace Deliver

/-- The reader's steps for one subscription, and the consumer's. -/
inductive Act
  | frame (ty : FrameType) (payload : List UInt8)
  | evict
  | resend
  | count
  | receive

def next (sub : CatchSub) (q : Queue CatchEvent) : Act → Option (Queue CatchEvent)
  | .frame ty payload =>
    if q.sender matches .ready then
      match decodeEvent ty payload with
      | some event => some (if wanted sub event then q.offer catchCapacity event else q)
      | none => some q
    else none
  | .evict => DropOldest.next catchCapacity q .evict
  | .resend => DropOldest.next catchCapacity q .resend
  | .count => DropOldest.next catchCapacity q .count
  | .receive => DropOldest.next catchCapacity q .receive

/-- The queue's own steps in one of these. -/
def queueSteps (sub : CatchSub) : Act → List (DropOldest.Act CatchEvent)
  | .frame ty payload => (((decodeEvent ty payload).filter (wanted sub)).map .offer).toList
  | .evict => [.evict]
  | .resend => [.resend]
  | .count => [.count]
  | .receive => [.receive]

/-- The queue is not empty when the reader comes to make room. -/
def Finds (q : Queue CatchEvent) : Act → Prop
  | .evict => q.items ≠ []
  | _ => True

instance (q : Queue CatchEvent) : (a : Act) → Decidable (Finds q a)
  | .evict => inferInstanceAs (Decidable (q.items ≠ []))
  | .frame _ _ | .resend | .count | .receive => .isTrue trivial

theorem next_queueSteps (sub : CatchSub) (q : Queue CatchEvent) (a : Act) (q' : Queue CatchEvent)
    (h : next sub q a = some q') :
    Steps.run (DropOldest.next catchCapacity) q (queueSteps sub a) = some q' := by
  cases a with
  | frame ty payload =>
    simp only [next] at h
    split at h
    next hs =>
      have hready : q.sender = .ready := by
        cases hs' : q.sender <;> simp [hs'] at hs ⊢
      cases hd : decodeEvent ty payload with
      | none => simpa [queueSteps, hd] using h
      | some event =>
        cases hw : wanted sub event with
        | true => simpa [queueSteps, hd, hw, DropOldest.next, hready, Option.filter_some] using h
        | false => simpa [queueSteps, hd, hw, Option.filter_some] using h
    · cases h
  | evict | resend | count | receive =>
    simp only [next] at h
    simp [queueSteps, h]

theorem finds_queueSteps (sub : CatchSub) (q : Queue CatchEvent) (a : Act) :
    Finds q a ↔ Steps.Guarded (DropOldest.next catchCapacity) DropOldest.Finds q
      (queueSteps sub a) := by
  cases a with
  | frame ty payload =>
    refine iff_of_true trivial (.of_forall (fun l hl s => ?_) q)
    obtain ⟨event, -, rfl⟩ := by simpa [queueSteps] using hl
    trivial
  | evict => exact ⟨fun h => ⟨h, fun _ _ => trivial⟩, fun h => h.1⟩
  | resend | count | receive => exact iff_of_true trivial ⟨trivial, fun _ _ => trivial⟩

/-- What is received and still queued is in the order of the wanted events; and once the reader
is done with an event, the counter is what is missing if and only if it found the queue filled
whenever it came to make room. -/
theorem dropped_exact_iff (sub : CatchSub) {ls : List Act} {q : Queue CatchEvent}
    (hr : Steps.run (next sub) {} ls = some q) :
    (q.received ++ q.items).Sublist q.offered ∧
      (q.sender = .ready → (q.dropped = q.missing ↔ Steps.Guarded (next sub) Finds {} ls)) := by
  have hrun := Steps.run_refine (next_queueSteps sub) hr
  refine ⟨received_sublist (by decide) hrun, fun hs => ?_⟩
  rw [dropped_iff (by decide) hrun hs]
  exact (Steps.guarded_refine (next_queueSteps sub) (fun s l _ _ => finds_queueSteps sub s l) hr).symm

/-- A stream of the x axis. -/
def axisX : CatchSub := ⟨0, collapse [.exact .axis 0]⟩

def motion : Act := .frame .motionEvent [0, 0, 0, 0, 0, 1, 0, 0, 0, 0, 0, 0, 0]

def fell : List Act := [List.replicate (catchCapacity + 1) motion, [.evict, .resend, .count]].flatten

/-- The consumer catches up before the reader makes room. -/
def caughtUp : List Act :=
  [List.replicate (catchCapacity + 1) motion, List.replicate catchCapacity .receive,
    [.evict, .resend, .count]].flatten

theorem fell_dropped : ∃ q, Steps.run (next axisX) {} fell = some q ∧
    (q.received ++ q.items).Sublist q.offered ∧ q.dropped = 1 ∧ q.dropped = q.missing := by
  have hrun : ((Steps.run (next axisX) {} fell).map fun q =>
      (decide (q.sender = .ready), q.dropped, decide (Steps.Guarded (next axisX) Finds {} fell))) =
        some (true, 1, true) := by decide +kernel
  obtain ⟨q, hr, he⟩ := Option.map_eq_some_iff.mp hrun
  simp only [Prod.mk.injEq, decide_eq_true_eq] at he
  obtain ⟨hs, hd, hg⟩ := he
  have h := dropped_exact_iff axisX hr
  exact ⟨q, hr, h.1, hd, (h.2 hs).mpr hg⟩

/-- One event is counted as dropped, and none is missing. -/
theorem caughtUp_dropped : ∃ q, Steps.run (next axisX) {} caughtUp = some q ∧
    q.sender = .ready ∧ q.dropped = 1 ∧ q.missing = 0 := by
  have hrun : ((Steps.run (next axisX) {} caughtUp).map fun q =>
      (decide (q.sender = .ready), q.dropped, q.missing)) = some (true, 1, 0) := by decide +kernel
  obtain ⟨q, hr, he⟩ := Option.map_eq_some_iff.mp hrun
  simp only [Prod.mk.injEq, decide_eq_true_eq] at he
  exact ⟨q, hr, he⟩

end Deliver

end Medius.Link
