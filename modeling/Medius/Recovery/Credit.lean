import Medius.Recovery.Line

/-! The boots a recovery answers for, from the sample it takes to the restarts it counts. -/

namespace Medius.Recovery.Counter

open Protocol Link Keepalive Thread Medius.Types View

namespace View

theorem Heard.pending {v v' : View} (h : Heard v v') : v'.pending = v.pending := by
  cases h <;> rfl

theorem hello_recovering {v : View} (h : v.watch.recovering = true) : v.hello = { v with
    watch := { v.watch with hellos := v.watch.hellos + 1, booted := true }, late := true } := by
  obtain ⟨-, he⟩ | ⟨hr, -⟩ | ⟨hr, -⟩ := v.hello_cases
  · exact he
  · exact absurd (h.symm.trans hr) nofun
  · exact absurd (h.symm.trans hr) nofun

/-- At the head of the loop.  A pending restart has its boot. -/
structure Head (v : View) : Prop where
  recovering : v.pending ≠ none → v.watch.recovering = true
  restart : v.pending = some .restart → v.watch.owed = false ∧ v.restarts + 1 ≤ v.firstRead

/-- A restart with a boot of its own, about to be pending. -/
structure Owing (v : View) : Prop where
  recovering : v.watch.recovering = true
  owed : v.watch.owed = false
  room : v.restarts + 1 ≤ v.firstRead

structure Running (cause : Cause) (v : View) : Prop where
  pending : v.pending = some cause
  recovering : v.watch.recovering = true
  owed : v.watch.owed = false
  restart : cause = .restart → v.restarts + 1 ≤ v.firstRead

/-- The clone has replied: a boot since is a further one. -/
structure Up (cause : Cause) (v : View) : Prop extends Running cause v where
  further : cause = .restart → v.secondRead = false → v.restarts + 2 ≤ v.firstRead

structure Sampled (cause : Cause) (seen : Nat) (v : View) : Prop extends Up cause v where
  seen_le : seen ≤ v.watch.hellos
  late_iff : v.late = false ↔ v.watch.hellos = seen
  late : cause = .restart → v.late = true → v.restarts + 2 ≤ v.firstRead

/-- The counter has been read since the sample: a second hello still to come is of a boot since
then. -/
structure Confirmed (cause : Cause) (seen : Nat) (v : View) : Prop extends
    Sampled cause seen v where
  greeted : v.secondRead = false → v.late = true

/-- The boot flag has been taken; `credit` is what is about to be counted. -/
structure Taken (cause : Cause) (seen credit : Nat) (v : View) : Prop where
  pending : v.pending = some cause
  recovering : v.watch.recovering = true
  owed : v.watch.owed = false
  seen_le : seen ≤ v.watch.hellos
  late_iff : v.late = false ↔ v.watch.hellos = seen
  room : v.restarts + credit ≤ v.firstRead
  late : v.late = true → v.restarts + credit + 1 ≤ v.firstRead
  booted : v.watch.booted = true → v.late = true
  greeted : v.secondRead = false → v.late = true

end View

theorem kept_any : Kept fun _ => True := fun _ _ _ _ _ => trivial

theorem kept_head : Kept Head := by
  intro v v' hc h hv
  have hidle : v.watch.recovering = false → v.pending ≠ some .restart := fun hr hp =>
    absurd (hr.symm.trans (h.recovering (by simp [hp]))) nofun
  cases hv with
  | nothing => exact h
  | reply => exact ⟨h.recovering, h.restart⟩
  | first =>
    obtain ⟨hr, he⟩ | ⟨-, -, he⟩ | ⟨hr, -, he⟩ := v.hello_cases
    · rw [he]
      exact ⟨h.recovering, fun hp => ⟨(h.restart hp).1, Nat.le_succ_of_le (h.restart hp).2⟩⟩
    · rw [he]
      exact ⟨h.recovering, fun hp => ⟨(h.restart hp).1, Nat.le_succ_of_le (h.restart hp).2⟩⟩
    · rw [he]
      exact ⟨fun _ => rfl, fun hp => absurd hp (hidle hr)⟩
  | second =>
    obtain ⟨hr, he⟩ | ⟨-, -, he⟩ | ⟨hr, -, he⟩ := v.hello_cases
    · rw [he]
      exact ⟨h.recovering, h.restart⟩
    · rw [he]
      exact ⟨h.recovering, h.restart⟩
    · rw [he]
      exact ⟨fun _ => rfl, fun hp => absurd hp (hidle hr)⟩

theorem kept_owing : Kept Owing := by
  intro v v' hc h hv
  cases hv with
  | nothing => exact h
  | reply => exact ⟨h.recovering, h.owed, h.room⟩
  | first =>
    rw [hello_recovering h.recovering]
    exact ⟨h.recovering, h.owed, Nat.le_succ_of_le h.room⟩
  | second =>
    rw [hello_recovering h.recovering]
    exact ⟨h.recovering, h.owed, h.room⟩

theorem kept_running (cause : Cause) : Kept (Running cause) := by
  intro v v' hc h hv
  cases hv with
  | nothing => exact h
  | reply => exact ⟨h.pending, h.recovering, h.owed, h.restart⟩
  | first =>
    rw [hello_recovering h.recovering]
    exact ⟨h.pending, h.recovering, h.owed, fun hcause => Nat.le_succ_of_le (h.restart hcause)⟩
  | second =>
    rw [hello_recovering h.recovering]
    exact ⟨h.pending, h.recovering, h.owed, h.restart⟩

theorem kept_up (cause : Cause) : Kept (Up cause) := by
  intro v v' hc h hv
  have hrun := kept_running cause v v' hc h.toRunning hv
  cases hv with
  | nothing => exact h
  | reply => exact ⟨hrun, h.further⟩
  | first =>
    refine ⟨hrun, fun hcause _ => ?_⟩
    rw [hello_recovering h.recovering]
    exact Nat.succ_le_succ (h.restart hcause)
  | second => exact ⟨hrun, nofun⟩

theorem kept_sampled (cause : Cause) (seen : Nat) : Kept (Sampled cause seen) := by
  intro v v' hc h hv
  have hup := kept_up cause v v' hc h.toUp hv
  cases hv with
  | nothing => exact h
  | reply => exact ⟨hup, h.seen_le, h.late_iff, h.late⟩
  | first =>
    rw [hello_recovering h.recovering] at hup ⊢
    refine ⟨hup, Nat.le_succ_of_le h.seen_le, ⟨nofun, fun hn => ?_⟩, fun hcause _ =>
      Nat.succ_le_succ (h.restart hcause)⟩
    exact absurd hn (Nat.ne_of_gt (Nat.lt_succ_of_le h.seen_le))
  | second hs =>
    rw [hello_recovering h.recovering] at hup ⊢
    refine ⟨hup, Nat.le_succ_of_le h.seen_le, ⟨nofun, fun hn => ?_⟩, fun hcause _ =>
      h.further hcause hs⟩
    exact absurd hn (Nat.ne_of_gt (Nat.lt_succ_of_le h.seen_le))

theorem kept_confirmed (cause : Cause) (seen : Nat) : Kept (Confirmed cause seen) := by
  intro v v' hc h hv
  have hsampled := kept_sampled cause seen v v' hc h.toSampled hv
  cases hv with
  | nothing => exact h
  | reply => exact ⟨hsampled, h.greeted⟩
  | first =>
    refine ⟨hsampled, fun _ => ?_⟩
    rw [hello_recovering h.recovering]
  | second => exact ⟨hsampled, nofun⟩

theorem kept_taken (cause : Cause) (seen credit : Nat) : Kept (Taken cause seen credit) := by
  intro v v' hc h hv
  have hmoved : ¬v.watch.hellos + 1 = seen := Nat.ne_of_gt (Nat.lt_succ_of_le h.seen_le)
  cases hv with
  | nothing => exact h
  | reply =>
    exact ⟨h.pending, h.recovering, h.owed, h.seen_le, h.late_iff, h.room, h.late, h.booted,
      h.greeted⟩
  | first =>
    rw [hello_recovering h.recovering]
    exact ⟨h.pending, h.recovering, h.owed, Nat.le_succ_of_le h.seen_le,
      ⟨nofun, fun hn => absurd hn hmoved⟩, Nat.le_succ_of_le h.room,
      fun _ => Nat.succ_le_succ h.room, fun _ => rfl, fun _ => rfl⟩
  | second hs =>
    rw [hello_recovering h.recovering]
    exact ⟨h.pending, h.recovering, h.owed, Nat.le_succ_of_le h.seen_le,
      ⟨nofun, fun hn => absurd hn hmoved⟩, h.room, fun _ => h.late (h.greeted hs), fun _ => rfl,
      nofun⟩

/-- A boot is counted by the flag or by the cause; after a release only the flag, which a timely
taking finds raised by no hello but those sampled. -/
theorem triple_takeBooted (cause : Cause) (seen : Nat) :
    Triple Moves Inv (About (Confirmed cause seen)) (takeBooted cause) fun booted =>
      About (Taken cause seen (if booted ∨ cause = .restart then 1 else 0)) := by
  refine triple_about (kept_confirmed cause seen) (fun _ => kept_taken cause seen _)
    (fun _ => rfl) (fun s ht => ?_) fun s ht hc h => ?_
  · cases cause with
    | restart => exact ht
    | released => exact ht.2
  · have hlate : cause = .released → (view s).late = false := by
      rintro rfl
      exact ht.1
    refine ⟨⟨hc.counted, hc.owed, nofun, hc.greeting, hc.unarmed⟩,
      ⟨h.pending, h.recovering, h.owed, h.seen_le, h.late_iff, ?_, ?_, nofun, h.greeted⟩⟩
    · split
      next hcount =>
        obtain hb | hr := hcount
        · exact hc.booted hb
        · exact h.restart hr
      next => exact hc.counted
    · intro hl
      cases hcause : cause with
      | restart =>
        rw [if_pos (.inr rfl)]
        exact h.late hcause hl
      | released => exact absurd (hl.symm.trans (hlate hcause)) nofun

theorem triple_incRestarts (cause : Cause) (seen : Nat) :
    Triple Moves Inv (About (Taken cause seen 1)) incRestarts fun _ =>
      About (Taken cause seen 0) := by
  refine triple_about (kept_taken cause seen 1) (fun _ => kept_taken cause seen 0)
    (fun _ => rfl) (fun _ ht => ht) fun s _ hc h => ?_
  refine ⟨⟨h.room, fun ho => ?_, fun hb => h.late (h.booted hb), fun hs =>
    .inl (h.late (h.greeted hs)), hc.unarmed⟩, ⟨h.pending, h.recovering, h.owed, h.seen_le,
      h.late_iff, h.room, h.late, h.booted, h.greeted⟩⟩
  exact absurd (h.owed.symm.trans ho) nofun

/-- How a step leaves things. -/
def Left (cause : Cause) : Outcome → View → Prop
  | .done => fun _ => True
  | .wait => Running cause
  | .again => Owing

theorem kept_left (cause : Cause) (outcome : Outcome) : Kept (Left cause outcome) := by
  cases outcome with
  | done => exact kept_any
  | wait => exact kept_running cause
  | again => exact kept_owing

theorem triple_finish (cause : Cause) (seen : Nat) :
    Triple Moves Inv (About (Taken cause seen 0)) (finish seen) fun ended =>
      About (Left cause (if ended then .done else .again)) := by
  refine triple_about (kept_taken cause seen 0) (fun _ => kept_left cause _) (fun _ => rfl)
    (fun _ ht => ht) fun s _ hc h => ?_
  by_cases hn : s.watch.hellos = seen
  · have hlate : (view s).late ≠ true := by simp [h.late_iff.mpr hn]
    have hended : s.watch.finish seen = ({ s.watch with recovering := false }, true) := by
      rw [Watch.finish, if_neg (not_not.mpr hn)]
    simp only [hended]
    exact ⟨⟨hc.counted, hc.owed, hc.booted, fun hs => absurd (h.greeted hs) hlate,
      fun hs => absurd (h.greeted hs) hlate⟩, trivial⟩
  · have hkept : s.watch.finish seen = (s.watch, false) := by rw [Watch.finish, if_pos hn]
    have hlate : (view s).late = true := by
      cases hl : (view s).late with
      | true => rfl
      | false => exact absurd (h.late_iff.mp hl) hn
    simp only [hkept]
    exact ⟨hc, h.recovering, h.owed, h.late hlate⟩

theorem triple_conclude (cause : Cause) (seen : Nat) (before : UInt16) (gen : Nat)
    (ring : Option ClipStatus) :
    Triple Moves Inv (About (Confirmed cause seen)) (conclude cause seen before gen ring)
      fun outcome => About (Left cause outcome) := by
  have hC := kept_confirmed cause seen
  refine Recovery.triple_conclude (fun outcome => stable_about (kept_left cause outcome))
    (K := About (Confirmed cause seen)) (M := About (Confirmed cause seen))
    (L := About (Taken cause seen 0)) ?_ ?_ ?_
    (triple_finish cause seen)
  · cases ring with
    | none => exact Triple.pure _ (stable_about hC) fun _ _ h => h
    | some status => exact triple_keeps hC (fun _ => rfl) (fun _ ht => ht) fun _ => rfl
  · exact triple_about hC (fun _ => hC) (fun _ => rfl) (fun _ ht => ht) fun s _ hc h =>
      ⟨hc.aside _ _ _,
        ⟨⟨⟨⟨h.pending, h.recovering, h.owed, h.restart⟩, h.further⟩, h.seen_le, h.late_iff, h.late⟩,
          h.greeted⟩⟩
  · refine (triple_takeBooted cause seen).bind fun booted => Triple.ite (fun hcount => ?_)
      fun hcount => ?_
    · rw [if_pos hcount]
      exact triple_incRestarts cause seen
    · rw [if_neg hcount]
      exact Triple.pure _ (stable_about (kept_taken cause seen 0)) fun _ _ h => h

theorem triple_ask_keeps {p : View → Prop} (hp : Kept p) (query : Query) :
    Triple Moves Inv (About p) (ask query) fun _ => About p :=
  (triple_ask hp hp (fun _ _ h _ => h) query).weaken (fun _ _ h => h) (by simp)

theorem triple_settle (cause : Cause) (seen : Nat) (before : UInt16) :
    Triple Moves Inv (About (Confirmed cause seen)) (settle ask cause seen before)
      fun outcome => About (Left cause outcome) := by
  have hC := kept_confirmed cause seen
  have hS := stable_about hC
  have hask := triple_ask_keeps hC
  have hup := triple_cloneUp_keeps hS (hask .caps) (hask .deviceInfo)
  refine Recovery.triple_settle (P := About (Running cause))
    (F := fun _ => About (Confirmed cause seen)) (G := fun _ _ => About (Confirmed cause seen))
    (H := fun _ _ => About (Confirmed cause seen)) (stable_about (kept_running cause))
    (fun _ _ => hS) (fun _ _ => hS) hup (triple_read hS)
    (fun _ => triple_readClip (fun _ => hS) (hask .clip))
    (fun _ _ _ _ h ht => (h ht).toRunning) (fun _ _ => ?_) (triple_conclude cause seen before)
    fun _ _ h => h
  refine triple_readStats (fun r => ?_) ((hask .stats).weaken (fun _ _ h => h) fun r s _ h => ?_)
  · split
    · exact hS
    · exact stable_about (kept_running cause)
  · split
    · exact h
    · exact fun ht => (h ht).toRunning

theorem triple_step (cause : Cause) :
    Triple Moves Inv (About (Running cause)) (step ask resend cause) fun outcome =>
      About (Left cause outcome) := by
  have hR := kept_running cause
  refine Recovery.triple_step (U := About (Up cause)) (A := fun seen => About (Sampled cause seen))
    (B := fun seen _ => About (Confirmed cause seen))
    (C := fun seen _ => About (Confirmed cause seen)) (stable_about hR)
    (fun seen => stable_about (kept_sampled cause seen)) ?_ ?_ (fun seen buttons => ?_)
    (fun seen => ?_) (fun seen before => ?_) (triple_settle cause) fun _ _ h => h
  · refine triple_cloneUp (stable_about hR) (stable_about (kept_up cause))
      (fun _ _ h ht => (h ht).toRunning) (triple_ask hR (kept_up cause) (fun v _ h hs => ?_) _)
      ((triple_ask_keeps (kept_up cause) _).weaken (fun _ _ h => h) (by simp))
    exact ⟨h, fun _ hread => absurd (hs.symm.trans hread) nofun⟩
  · exact triple_about (kept_up cause) (fun seen => kept_sampled cause seen) (fun _ => rfl)
      (fun _ ht => ht) fun s _ hc h => ⟨hc.aside _ _ _,
        ⟨⟨⟨h.pending, h.recovering, h.owed, h.restart⟩, h.further⟩, Nat.le_refl _,
          ⟨fun _ => rfl, fun _ => rfl⟩, fun _ => nofun⟩⟩
  · exact triple_keeps (kept_sampled cause seen) (fun _ => rfl) (fun _ ht => ht) fun _ => rfl
  · refine triple_readStats (fun r => ?_) ((triple_ask (kept_sampled cause seen)
      (kept_confirmed cause seen) (fun v _ h hs => ?_) _).weaken (fun _ _ h => h) fun r s _ h => ?_)
    · cases r with
      | none => exact stable_about hR
      | some => exact stable_about (kept_confirmed cause seen)
    · exact ⟨h, fun hread => absurd (hs.symm.trans hread) nofun⟩
    · cases r with
      | none => exact fun ht => (h ht).toRunning
      | some reply =>
        have h : About (Confirmed cause seen) s := h
        cases hsession : (some reply).bind Reply.session with
        | none => exact fun ht => (h ht).toRunning
        | some => exact h
  · refine (triple_clock (stable_about (kept_confirmed cause seen))).weaken (fun _ _ h => h)
      fun sent s _ h => ?_
    cases sent with
    | true => exact h
    | false => exact fun ht => (h ht).toRunning

end Medius.Recovery.Counter
