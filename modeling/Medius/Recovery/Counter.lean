import Medius.Recovery.Credit

/-! Restarts counted against boots, over a line that keeps the order of its frames. -/

namespace Medius.Recovery.Counter

open Protocol Link Keepalive Thread Medius.Types View

/-- Nothing is owed while a recovery is pending. -/
def Adopted (v : View) : Prop := ∀ cause, v.pending = some cause → Running cause v

theorem kept_adopted : Kept Adopted := by
  intro v v' hc h hv cause hp
  exact kept_running cause v v' hc (h cause (hv.pending ▸ hp)) hv

theorem Adopted.head {v : View} (h : Adopted v) : Head v where
  recovering hp := by
    obtain ⟨cause, hp⟩ := Option.ne_none_iff_exists'.mp hp
    exact (h cause hp).recovering
  restart hp := ⟨(h _ hp).owed, (h _ hp).restart rfl⟩

theorem triple_setPending_restart :
    Triple Moves Inv (About Owing) (setPending .restart) fun _ => About Adopted :=
  triple_about kept_owing (fun _ => kept_adopted) (fun _ => rfl) (fun _ ht => ht)
    fun s _ hc h => ⟨hc.aside _ _ _, fun cause hp => by
      obtain rfl : Cause.restart = cause := Option.some.inj hp
      exact ⟨rfl, h.recovering, h.owed, fun _ => h.room⟩⟩

theorem triple_recover (cause : Cause) :
    Triple Moves Inv (About (Running cause)) (recover ask resend cause) fun _ => About Head := by
  refine Recovery.triple_recover (triple_step cause) ?_
    (triple_setPending_restart.weaken (fun _ _ h => h) fun _ _ _ h ht => (h ht).head)
    (fun s _ h ht => ?_) (stable_about (kept_running cause))
  · exact triple_about kept_any (fun _ => kept_head) (fun _ => rfl) (fun _ ht => ht)
      fun _ _ hc _ => ⟨hc.aside _ _ _,
        ⟨fun hp => absurd rfl hp, nofun⟩⟩
  · refine Adopted.head fun cause' hp => ?_
    obtain rfl : cause = cause' := Option.some.inj ((h ht).pending.symm.trans hp)
    exact h ht

theorem triple_adopt : Triple Moves Inv (About Head) adopt fun _ => About Adopted := by
  have htake : Triple Moves Inv (About Head) takeOwed fun owed =>
      About (if owed then Owing else Adopted) := by
    refine triple_about kept_head (fun owed => ?_) (fun _ => rfl) (fun _ ht => ht)
      fun s _ hc h => ?_
    · cases owed with
      | true => exact kept_owing
      | false => exact kept_adopted
    · cases ho : s.watch.owed with
      | true =>
        have hroom := hc.owed ho
        have he : s.watch.takeOwed = ({ s.watch with recovering := true, owed := false }, true) := by
          simp [Watch.takeOwed, ho]
        simp only [he]
        exact ⟨⟨hc.counted, nofun, hc.booted, fun _ => .inl hroom, fun _ => .inl rfl⟩,
          ⟨rfl, rfl, hroom⟩⟩
      | false =>
        have he : s.watch.takeOwed = (s.watch, false) := by
          simp only [Watch.takeOwed, ho, Bool.or_false]
          rw [← ho]
        simp only [he]
        refine ⟨hc, fun cause hp => ⟨hp, h.recovering (by rw [hp]; nofun), ho, ?_⟩⟩
        rintro rfl
        exact (h.restart hp).2
  refine htake.bind fun owed => ?_
  cases owed with
  | true => exact triple_setPending_restart
  | false => exact Triple.pure _ (stable_about kept_adopted) fun _ _ h => h

/-- No boot is half greeted without one to spare for it. -/
def Spare (v : View) : Prop := v.secondRead = false → v.restarts + 1 ≤ v.firstRead

theorem kept_spare : Kept Spare := by
  intro v v' hc h hv
  cases hv with
  | nothing => exact h
  | reply => exact h
  | first =>
    intro _
    obtain ⟨-, he⟩ | ⟨-, -, he⟩ | ⟨-, -, he⟩ := v.hello_cases <;>
      (rw [he]; exact Nat.succ_le_succ hc.counted)
  | second => exact nofun

/-- Nothing pending, and the counter has been read since. -/
structure Noticed (v : View) : Prop where
  pending : v.pending = none
  spare : Spare v

theorem kept_free : Kept fun v => v.pending = none := fun _ _ _ h hv => hv.pending.trans h

theorem kept_noticed : Kept Noticed := fun v v' hc h hv =>
  ⟨kept_free v v' hc h.pending hv, kept_spare v v' hc h.spare hv⟩

theorem kept_recovering : Kept fun v => v.watch.recovering = true := by
  intro v v' _ h hv
  cases hv with
  | nothing | reply => exact h
  | first | second =>
    rw [hello_recovering h]
    exact h

theorem head_of_free {v : View} (h : v.pending = none) : Head v :=
  ⟨fun hp => absurd h hp, fun hp => absurd (h.symm.trans hp) nofun⟩

theorem triple_sessionReleased :
    Triple Moves Inv (About fun v => v.pending = none) (sessionReleased ask) fun released =>
      if released then About Noticed else About Head := by
  have hread : Triple Moves Inv (About fun v => v.pending = none) (readStats ask) fun r =>
      r.elim (About fun v => v.pending = none) fun _ => About Noticed := by
    refine triple_readStats (fun r => ?_) ((triple_ask kept_free kept_noticed
      (fun v _ h hs => ?_) _).weaken (fun _ _ h => h) fun r s _ h => ?_)
    · cases r with
      | none => exact stable_about kept_free
      | some => exact stable_about kept_noticed
    · exact ⟨h, fun hread => absurd (hs.symm.trans hread) nofun⟩
    · cases r with
      | none => exact h
      | some reply =>
        have h : About Noticed s := h
        cases hsession : (some reply).bind Reply.session with
        | none => exact fun ht => (h ht).pending
        | some => exact h
  refine hread.bind fun r => ?_
  cases r with
  | none => exact Triple.pure _ (stable_about kept_free) fun _ _ h ht => head_of_free (h ht)
  | some session =>
    have hmoved : Triple Moves Inv (About Noticed) (sessionMoved session) fun _ => About Noticed :=
      triple_about kept_noticed (fun _ => kept_noticed) (fun _ => rfl) (fun _ ht => ht)
        fun _ _ hc h => ⟨hc.aside _ _ _,
          ⟨h.pending, h.spare⟩⟩
    refine hmoved.weaken (fun _ _ h => h) fun released s _ h => ?_
    cases released with
    | true => exact h
    | false => exact fun ht => head_of_free (h ht).pending

theorem triple_watchSession {otherwise : Program Line Unit}
    (hother : Triple Moves Inv (About Head) otherwise fun _ => About Head) :
    Triple Moves Inv (About fun v => v.pending = none) (watchSession ask otherwise) fun _ =>
      About Head := by
  refine Recovery.triple_watchSession triple_sessionReleased
    (T := About fun v => v.watch.recovering = true) ?_ ?_ hother
  · exact triple_about kept_noticed (fun _ => kept_recovering) (fun _ => rfl) (fun _ ht => ht)
      fun _ _ hc h => ⟨⟨hc.counted, hc.owed, hc.booted, fun hs => .inl (h.spare hs),
        fun _ => .inl rfl⟩, rfl⟩
  · exact triple_about kept_recovering (fun _ => kept_head) (fun _ => rfl) (fun _ ht => ht)
      fun _ _ hc h => ⟨hc.aside _ _ _,
        ⟨fun _ => h, nofun⟩⟩

theorem triple_loop : Triple Moves Inv (About Head) loop fun _ => About Head := by
  have hH := stable_about kept_head
  refine triple_turn (N := About fun v => v.pending = none) (M := fun c => About (Running c)) hH
    (stable_about kept_free) (fun _ _ h ht => head_of_free (h ht))
    (fun cause => stable_about (kept_running cause)) (fun cause s _ h ht => ?_) triple_adopt ?_
    triple_recover ?_ fun _ => triple_watchSession
  · refine Adopted.head fun cause' hp => ?_
    obtain rfl : cause = cause' := Option.some.inj ((h ht).pending.symm.trans hp)
    exact h ht
  · refine triple_access (stable_about kept_adopted) (fun p => ?_) fun s hI h => ⟨hI, ?_⟩
    · cases p with
      | none => exact stable_about kept_free
      | some cause => exact stable_about (kept_running cause)
    · cases hp : s.pending with
      | none => exact fun _ => hp
      | some cause => exact fun ht => h ht cause hp
  · refine triple_keepHeld hH (triple_readRing_keeps hH ?_ (triple_ask_keeps kept_head)
      fun _ _ => ?_) (Triple.pure _ hH fun _ _ h => h)
    · exact triple_keeps kept_head (fun _ => rfl) (fun _ ht => ht) fun _ => rfl
    · exact triple_keeps kept_head (fun _ => rfl) (fun _ ht => ht) fun _ => rfl

/-- At every moment of every run whose recoveries from a release take the boot flag in time, no
more restarts have been counted than boots whose first hello has been read. -/
theorem restarts_le_boots (greeted : Bool) {ls : List (Other ⊕ Input)} {s : State}
    {t : Program Line Unit} (hr : Steps.run next (start greeted, loop) ls = some (s, t))
    (ht : Timely s.log) : s.restarts ≤ s.env.firstRead := by
  refine ((loop_invariant triple_loop (fun _ l _ h => ⟨l, h⟩) ?_ ?_ hr).covered ht).counted
  · exact ⟨rfl, fun _ => ⟨Nat.le_refl _, nofun, nofun, fun _ => .inr ⟨rfl, rfl⟩, fun _ => .inr rfl⟩⟩
  · exact fun _ => ⟨fun hp => absurd rfl hp, nofun⟩

abbrev Run := List (Other ⊕ Input)

def readings (ls : List Other) : Run := ls.map .inl

def inputs (ls : List Input) : Run := ls.map .inr

def goes (n : Nat) : Run := List.replicate n (.inr .go)

/-- A query written, answered and read. -/
def exchange (reply : Reply) : Run :=
  [.inr (.choice true), .inl (.answer 0 reply), .inl .read, .inr .go]

/-- A tick that reads the session counter. -/
def tickReading (session : UInt16) : Run :=
  [goes 3, inputs [.choice false], exchange (.stats session), goes 1].flatten

/-- A step up to the boot flag, with the clone up and nothing released meanwhile; its ring query
is not written. -/
def stepUpTo (session : UInt16) : Run :=
  [exchange (.caps 1 5), goes 2, exchange (.stats session), inputs [.choice true],
    exchange (.caps 1 5), inputs [.go, .choice false], exchange (.stats session), goes 1].flatten

/-- The chip boots, and the restart is recovered from. -/
def countedOnce : Run :=
  [readings [.chatter (.stats 0), .read, .boot, .read], goes 3, inputs [.choice true],
    readings [.greet, .read], stepUpTo 0, goes 4].flatten

theorem countedOnce_le_boots : ∃ s t,
    Steps.run next (start true, loop) countedOnce = some (s, t) ∧ s.env.firstRead = 1 ∧
      s.restarts ≤ s.env.firstRead := by
  have hrun : ((Steps.run next (start true, loop) countedOnce).map fun c =>
      (c.1.env.firstRead, decide (Timely c.1.log))) = some (1, true) := by decide +kernel
  obtain ⟨⟨s, t⟩, hr, he⟩ := Option.map_eq_some_iff.mp hrun
  obtain ⟨hone, ht⟩ := Prod.mk.inj he
  exact ⟨s, t, hr, hone, restarts_le_boots true hr (of_decide_eq_true ht)⟩

/-- The box counts a release; its recovery has re-sent everything and has still to take the boot
flag when the chip boots and its first hello is read. -/
def countedTwice : Run :=
  [readings [.chatter (.stats 0), .read,
      .perform (.applyLock (lockClsAxis, 0, lockDirBoth) lockScaleBlock)],
    tickReading 5, goes 2, tickReading 6, goes 5, inputs [.choice true], stepUpTo 6,
    readings [.boot, .read], goes 7, inputs [.choice true], readings [.greet, .read], stepUpTo 0,
    goes 4].flatten

/-- One boot, two restarts: the flag counts it once and the recovery the same hello asks for counts
it again. -/
theorem countedTwice_exceeds_boots : ¬∀ (greeted : Bool) (ls : Run) (s : State)
    (t : Program Line Unit), Steps.run next (start greeted, loop) ls = some (s, t) →
      s.restarts ≤ s.env.firstRead := by
  intro hall
  have hrun : ((Steps.run next (start true, loop) countedTwice).map fun c =>
      (c.1.restarts, c.1.env.firstRead)) = some (2, 1) := by decide +kernel
  obtain ⟨⟨s, t⟩, hr, he⟩ := Option.map_eq_some_iff.mp hrun
  obtain ⟨htwo, hone⟩ := Prod.mk.inj he
  have hle := hall true countedTwice s t hr
  rw [htwo, hone] at hle
  exact absurd hle (by decide)

end Medius.Recovery.Counter
