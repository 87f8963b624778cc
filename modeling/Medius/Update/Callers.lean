import Medius.Device.Update
import Medius.Lib.Steps

/-! One staging run among other callers of the same link, and what a caller's step does with
replies.  Replies carry the number of replies that arrived before them, which no caller reads. -/

namespace Medius.Update

open Protocol Medius.Types Medius.Device

structure Reply where
  arrival : Nat
  bytes : List UInt8
  deriving DecidableEq

/-- The reply a caller has taken off the channel and not parked yet. -/
def inHand {ρ : Type} : Point ρ → Option ρ
  | .drainHold _ p | .park _ p => some p
  | _ => none

structure World where
  stage : Point Reply
  others : Nat → Point Reply
  link : Updates Reply
  arrivals : Nat
  /-- How many replies had arrived when this transfer's `BEGIN` was sent. -/
  begun : Option Nat
  /-- The replies this transfer took as acknowledgements of its chunks. -/
  acked : List Reply

/-- What the other callers do. -/
inductive Errand
  | abort (target : UpdateTarget)
  | activate
  deriving DecidableEq

def Errand.enter : Errand → Point Reply
  | .abort target => abortUpdate target
  | .activate => activateFirmware

inductive Label
  | stage (luck : Luck)
  | other (caller : Nat) (luck : Luck)
  | enter (caller : Nat) (errand : Errand)
  | arrive (bytes : List UInt8)
  deriving DecidableEq

namespace World

/-- The link with whatever replies earlier commands left on it. -/
def start (target : UpdateTarget) (image : List UInt8) (link : Updates Reply) (arrivals : Nat) :
    World where
  stage := stageFirmware target image
  others _ := .returned (.ok none)
  link := link
  arrivals := arrivals
  begun := none
  acked := []

section

variable (digest : List UInt8 → Vector UInt8 32)

def stageStep (w : World) (luck : Luck) : World :=
  let (stage, link, effect) := w.stage.step Reply.bytes digest luck w.link
  { w with
    stage := stage
    link := link
    begun := match w.stage with
      | .send (.begin_ ..) => if effect.sent.isSome then some w.arrivals else w.begun
      | _ => w.begun
    acked := match w.stage with
      | .take (.data _) | .receive (.data _) => w.acked ++ effect.took.toList
      | _ => w.acked }

def next (w : World) : Label → Option World
  | .stage luck => some (w.stageStep digest luck)
  | .other caller luck =>
    let (point, link, _) := (w.others caller).step Reply.bytes digest luck w.link
    some { w with others := Function.update w.others caller point, link := link }
  | .enter caller errand =>
    match w.others caller with
    | .returned _ => some { w with others := Function.update w.others caller errand.enter }
    | _ => none
  | .arrive bytes =>
    some { w with
      link := { w.link with rx := w.link.rx ++ [⟨w.arrivals, bytes⟩] }
      arrivals := w.arrivals + 1 }

end

/-- A reply to an earlier `DATA`: it had arrived by the time `BEGIN` was sent. -/
def Stale (w : World) (r : Reply) : Prop :=
  (replyFor otaOpData r.bytes).isSome ∧ ∃ b, w.begun = some b ∧ r.arrival < b

/-- Every acknowledgement taken arrived after this transfer's `BEGIN` was sent. -/
def Fresh (w : World) : Prop := ∀ r ∈ w.acked, ∃ b, w.begun = some b ∧ b ≤ r.arrival

/-- The purge after `READY` finds every stale reply parked: none is in another caller's hand
and none is still in the channel. -/
def PurgeInTime (w : World) : Label → Prop
  | .stage _ =>
    match w.stage with
    | .purgeData .. => ∀ r, w.Stale r → r ∉ w.link.rx ∧ ∀ i, inHand (w.others i) ≠ some r
    | _ => True
  | _ => True

end World

section Replies

variable {ρ : Type} {payload : ρ → List UInt8} {digest : List UInt8 → Vector UInt8 32}

/-- The replies a caller can lay hands on. -/
def Within (p : Point ρ) (u : Updates ρ) (r : ρ) : Prop :=
  r ∈ u.rx ∨ r ∈ u.held ∨ inHand p = some r

theorem head?_of_replyFor {op : UInt8} {p : List UInt8} (h : (replyFor op p).isSome) :
    p.head? = some op := by
  unfold replyFor at h
  split at h
  · split at h
    next heq => exact congrArg some heq
    next => cases h
  · cases h

theorem mem_holdUpdate {u : Updates ρ} {p r : ρ} (h : r ∈ (u.holdUpdate p).held) :
    r ∈ u.held ∨ r = p := by
  simp only [Updates.holdUpdate, List.mem_append, List.mem_singleton] at h
  rcases h with h | h
  · split at h
    · exact .inl (List.mem_of_mem_drop h)
    · exact .inl h
  · exact .inr h

theorem mem_of_takeHeld {u u' : Updates ρ} {op : UInt8} {p : ρ}
    (h : u.takeHeld payload op = some (p, u')) :
    p ∈ u.held ∧ u'.rx = u.rx ∧ ∀ r ∈ u'.held, r ∈ u.held := by
  obtain ⟨q, hq, hqu⟩ := Option.map_eq_some_iff.mp h
  cases hqu
  exact ⟨List.mem_of_find?_eq_some hq, rfl, fun r hr => List.mem_of_mem_eraseP hr⟩

theorem inHand_onReply (call : Call) (status : UpdateStatus) (arg : UInt32) :
    inHand (call.onReply (ρ := ρ) status arg).1 = none := by
  cases call <;> simp only [Call.onReply] <;> split <;> rfl

variable (payload) in
theorem finish_spec (call : Call) (p : ρ) (u : Updates ρ) :
    inHand (call.finish payload p u).1 = none ∧ (call.finish payload p u).2.1 = u ∧
      ∀ r, (call.finish payload p u).2.2.took = some r → r = p := by
  simp only [Call.finish]
  split
  · exact ⟨inHand_onReply .., rfl, fun r hr => (Option.some.inj hr).symm⟩
  · exact ⟨rfl, rfl, fun r hr => by cases hr⟩

/-- No step makes a reply: what a caller holds, parks or takes was there before. -/
structure Keeps (p : Point ρ) (u : Updates ρ) (next : Point ρ × Updates ρ × Effect ρ) : Prop where
  within : ∀ r, Within next.1 next.2.1 r → Within p u r
  took : ∀ r, next.2.2.took = some r → r ∈ u.rx ∨ r ∈ u.held

theorem Keeps.finish {call : Call} {q : ρ} {p : Point ρ} {u u' : Updates ρ}
    (hu : ∀ r, r ∈ u'.rx ∨ r ∈ u'.held → Within p u r) (hq : q ∈ u.rx ∨ q ∈ u.held) :
    Keeps p u (call.finish payload q u') := by
  obtain ⟨hhand, hlink, htook⟩ := finish_spec payload call q u'
  refine ⟨fun r hr => ?_, fun r hr => htook r hr ▸ hq⟩
  rw [Within, hhand, hlink] at hr
  exact hu r (by grind)

theorem Keeps.park {p next : Point ρ} {q : ρ} (hp : inHand p = some q) (hnext : inHand next = none)
    (u : Updates ρ) : Keeps p u (next, u.holdUpdate q, {}) := by
  refine ⟨fun r hr => ?_, by simp⟩
  rcases hr with hr | hr | hr
  · exact .inl hr
  · exact (mem_holdUpdate hr).elim (fun h => .inr (.inl h)) fun h => .inr (.inr (h ▸ hp))
  · rw [hnext] at hr
    cases hr

theorem Keeps.purge (p : Point ρ) {next : Point ρ} (hnext : inHand next = none) (u : Updates ρ)
    (op : UInt8) : Keeps p u (next, u.dropHeld payload op, {}) := by
  refine ⟨fun r hr => ?_, by simp⟩
  rcases hr with hr | hr | hr
  · exact .inl hr
  · exact .inr (.inl (List.mem_of_mem_filter hr))
  · rw [hnext] at hr
    cases hr

variable (payload digest) in
theorem step_keeps (p : Point ρ) (luck : Luck) (u : Updates ρ) :
    Keeps p u (p.step payload digest luck u) := by
  cases p with
  | drain call =>
    simp only [Point.step]
    split
    next => exact ⟨fun r hr => by simpa [Within, inHand] using hr, by simp⟩
    next q rx hrx =>
      split
      · exact ⟨fun r hr => by simp [Within, inHand, hrx] at hr ⊢; grind, by simp⟩
      · exact ⟨fun r hr => by simp [Within, inHand, hrx] at hr ⊢; grind, by simp⟩
  | drainHold call q => exact .park rfl rfl u
  | purge call => exact .purge _ rfl u call.op
  | send call =>
    cases luck <;> exact ⟨fun r hr => hr, by simp [Point.step]⟩
  | take call =>
    simp only [Point.step]
    split
    next q u' hu =>
      obtain ⟨hq, hrx, hheld⟩ := mem_of_takeHeld hu
      exact .finish (fun r hr => hr.imp (hrx ▸ ·) fun h => .inl (hheld r h)) (.inr hq)
    next =>
      split <;> exact ⟨fun r hr => hr, by simp⟩
  | receive call =>
    simp only [Point.step]
    split
    next => exact ⟨fun r hr => hr, by simp⟩
    next q rx hrx =>
      split
      · refine .finish (fun r hr => ?_) (.inl (hrx ▸ List.mem_cons_self))
        exact hr.imp (fun h => hrx ▸ List.mem_cons_of_mem _ h) .inl
      · exact ⟨fun r hr => by simp [Within, inHand, hrx] at hr ⊢; grind, by simp⟩
  | park call q => exact .park rfl rfl u
  | purgeData image target credit => exact .purge _ rfl u otaOpData
  | chunks plan =>
    simp only [Point.step]
    split
    · exact ⟨fun r hr => hr, by simp⟩
    · split
      · split <;> exact ⟨fun r hr => hr, by simp⟩
      · split <;> exact ⟨fun r hr => hr, by simp⟩
  | returned result => exact ⟨fun r hr => hr, by simp [Point.step]⟩

theorem replyFor_of_took {call : Call} {p : Point ρ} (hp : p = .take call ∨ p = .receive call)
    {luck : Luck} {u : Updates ρ} {r : ρ}
    (h : (p.step payload digest luck u).2.2.took = some r) :
    (replyFor call.op (payload r)).isSome := by
  have hfinish : ∀ {q : ρ} {u' : Updates ρ},
      (call.finish payload q u').2.2.took = some r → (replyFor call.op (payload r)).isSome := by
    intro q u' hq
    obtain rfl := (finish_spec _ call q u').2.2 r hq
    simp only [Call.finish] at hq
    split at hq
    next heq => exact heq ▸ rfl
    next => cases hq
  rcases hp with rfl | rfl <;> simp only [Point.step] at h
  · split at h
    · exact hfinish h
    · split at h <;> cases h
  · split at h
    · cases h
    · split at h
      · exact hfinish h
      · cases h

/-- How far the staging run is. -/
inductive Phase
  | asking | opened | streaming | after
  deriving DecidableEq

def phase : Point ρ → Phase
  | .drain (.begin_ ..) | .drainHold (.begin_ ..) _ | .purge (.begin_ ..) | .send (.begin_ ..) =>
    .asking
  | .take (.begin_ ..) | .receive (.begin_ ..) | .park (.begin_ ..) _ | .purgeData .. => .opened
  | .drain (.data _) | .drainHold (.data _) _ | .purge (.data _) | .send (.data _)
  | .take (.data _) | .receive (.data _) | .park (.data _) _ | .chunks _ => .streaming
  | _ => .after

/-- A run moves from one phase to the next only by sending `BEGIN` and by the purge. -/
inductive PhaseStep : Point ρ → Point ρ × Updates ρ × Effect ρ → Prop
  | stay {p next} (h : phase next.1 = phase p) : PhaseStep p next
  | leave {p next} (h : phase next.1 = .after) : PhaseStep p next
  | open_ {image target next} (h : phase next.1 = .opened) (sent : next.2.2.sent.isSome) :
    PhaseStep (.send (.begin_ image target)) next
  | stream {image target credit next} (h : phase next.1 = .streaming) :
    PhaseStep (.purgeData image target credit) next

theorem PhaseStep.spec {p : Point ρ} {next : Point ρ × Updates ρ × Effect ρ}
    (h : PhaseStep p next) :
    phase next.1 = phase p ∨ phase next.1 = .after ∨
      (phase next.1 = .opened ∧ next.2.2.sent.isSome ∧
        ∃ image target, p = .send (.begin_ image target)) ∨
      (phase next.1 = .streaming ∧ ∃ image target credit, p = .purgeData image target credit) := by
  cases h with
  | stay h => exact .inl h
  | leave h => exact .inr (.inl h)
  | open_ h sent => exact .inr (.inr (.inl ⟨h, sent, _, _, rfl⟩))
  | stream h => exact .inr (.inr (.inr ⟨h, _, _, _, rfl⟩))

theorem PhaseStep.finish {call : Call} {p : Point ρ} (hp : p = .take call ∨ p = .receive call)
    (q : ρ) (u : Updates ρ) : PhaseStep p (call.finish payload q u) := by
  simp only [Call.finish]
  cases replyFor call.op (payload q) with
  | none => exact .stay (by rcases hp with rfl | rfl <;> cases call <;> rfl)
  | some r =>
    cases call <;> simp only [Call.onReply] <;> split
    all_goals first
      | exact .leave rfl
      | exact .stay (by rcases hp with rfl | rfl <;> rfl)

variable (payload digest) in
theorem phase_step (p : Point ρ) (luck : Luck) (u : Updates ρ) :
    PhaseStep p (p.step payload digest luck u) := by
  cases p with
  | drain call =>
    simp only [Point.step]
    split
    · exact .stay (by cases call <;> rfl)
    · split <;> exact .stay (by cases call <;> rfl)
  | drainHold call q => exact .stay (by cases call <;> rfl)
  | purge call => exact .stay (by cases call <;> rfl)
  | send call =>
    cases luck with
    | sendFails => exact .leave rfl
    | fine | timeUp =>
      cases call with
      | begin_ => exact .open_ rfl rfl
      | _ => exact .stay rfl
  | take call =>
    simp only [Point.step]
    split
    · exact .finish (.inl rfl) _ _
    · split
      · exact .leave rfl
      · exact .stay (by cases call <;> rfl)
  | receive call =>
    simp only [Point.step]
    split
    · exact .stay (by cases call <;> rfl)
    · split
      · exact .finish (.inr rfl) _ _
      · exact .stay (by cases call <;> rfl)
  | park call q => exact .stay (by cases call <;> rfl)
  | purgeData => exact .stream rfl
  | chunks plan =>
    simp only [Point.step]
    split
    · exact .leave rfl
    · split
      · split
        · exact .leave rfl
        · exact .stay rfl
      · split <;> exact .stay rfl
  | returned => exact .stay rfl

end Replies

end Medius.Update
