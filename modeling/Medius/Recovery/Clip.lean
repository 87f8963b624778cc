import Medius.Recovery.Moves

/-! Whether a clip the box lost is reported once the recovery is done. -/

namespace Medius.Recovery.Clip

open Link Keepalive Thread Medius.Types View

theorem clipNoteRing_clip (d : DesiredState) (seen : Nat) (status : ClipStatus)
    (released : Bool) :
    (d.clipNoteRing seen status released).clip.ring =
        (if seen = d.clip.ringGen then ringHolds status else d.clip.ring) ∧
      (d.clipNoteRing seen status released).clip.lost =
        (d.clip.lost || (seen = d.clip.ringGen && released && d.clip.ring &&
          !ringHolds status)) ∧
      (d.clipNoteRing seen status released).clip.ringGen = d.clip.ringGen := by
  unfold DesiredState.clipNoteRing
  by_cases hs : seen = d.clip.ringGen
  · rw [if_neg (not_not_intro hs), if_pos hs]
    cases released <;> cases d.clip.ring <;> cases ringHolds status <;> simp [hs]
  · rw [if_pos hs, if_neg hs]
    simp [hs]

namespace View

/-- An event that leaves the loss where it stands. -/
theorem Sound.advance {v : View} (h : v.Sound) {e : Event} (hp : v.phase.advance e = v.phase) :
    (v.advance e).Sound := by
  obtain ⟨he, hu, hn⟩ := h
  rw [← hp] at he hu hn
  exact ⟨he, fun hf => hu hf.2, fun hf => hn hf.2⟩

/-- A loss that is open stays open. -/
theorem Sound.advance_open {v : View} (h : v.Sound) {e : Event} (ho : v.phase.Open)
    (ho' : (v.phase.advance e).Open) : (v.advance e).Sound := by
  have hne : ∀ p : Phase, p.Open → p ≠ .loaded ∧ p ≠ .noted ∧ p ≠ .recovered := fun p => by
    cases p <;> decide
  refine ⟨fun _ => h.empty (hne _ ho).1, fun hf _ => h.unreported hf.2 ho, fun _ hn => ?_⟩
  exact absurd hn (not_or_intro (hne _ ho').2.1 (hne _ ho').2.2)

theorem Sound.began {v : View} (h : v.Sound) : (v.advance .began).Sound := by
  cases hv : v.phase with
  | emptied | read => exact h.advance_open (by rw [hv]; decide) (by rw [hv]; decide)
  | _ => exact h.advance (by rw [hv]; rfl)

theorem Sound.answered {v : View} (h : v.Sound) (status : ClipStatus) (recorded : Option UInt16) :
    (v.advance (.answered false (.clip status) recorded)).Sound := by
  cases hv : v.phase with
  | begun => exact h.advance_open (by rw [hv]; decide) (by rw [hv]; exact .inr (.inr rfl))
  | _ => exact h.advance (by rw [hv]; rfl)

/-- No recovery has had its CLIP query answered since its re-send began. -/
def Unread (v : View) : Prop := v.phase ≠ .read

/-- Held to the ring as last appended to or cleared, if a re-send began after the loss. -/
structure At (gen : Nat) (v : View) : Prop where
  unread : v.Unread
  current : v.phase = .begun → v.gen = gen

def Read (gen : Nat) (ring : Option ClipStatus) (v : View) : Prop :=
  v.phase = .read → v.gen = gen ∧ ∃ status, ring = some status ∧ ringHolds status = false

/-- The recovery that has read the ring has reported it. -/
def Told (v : View) : Prop := v.fair → v.phase = .read → v.lost = true

/-- What a recovery goes on to report once it has its reading: the boot flag taken, or done. -/
theorem Sound.told {v : View} (h : v.Sound) (ht : v.Told) {e : Event}
    (hread : v.phase = .read → v.phase.advance e = .noted ∨ v.phase.advance e = .recovered)
    (hbegun : v.phase = .begun → v.phase.advance e = .begun ∨ unread v.phase e = true)
    (hother : v.phase ≠ .read → v.phase ≠ .begun →
      v.phase.advance e = v.phase ∨ v.phase = .noted ∧ v.phase.advance e = .recovered) :
    (v.advance e).Sound := by
  have hclosed : v.phase ≠ .loaded → (v.phase.advance e = .noted ∨ v.phase.advance e = .recovered) →
      (v.fair → v.lost = true) → (v.advance e).Sound := fun hne hp hl => by
    refine ⟨fun _ => h.empty hne, fun hf ho => .inr (hl hf.2), fun hf _ => hl hf.2⟩
  by_cases hr : v.phase = .read
  · exact hclosed (by rw [hr]; decide) (hread hr) fun hf => ht hf hr
  by_cases hb : v.phase = .begun
  · obtain he | hu := hbegun hb
    · exact h.advance (he.trans hb.symm)
    · refine ⟨fun _ => h.empty (by rw [hb]; decide), fun hf => ?_, fun hf => ?_⟩
      · exact absurd (hf.1.2.symm.trans hu) nofun
      · exact absurd (hf.1.2.symm.trans hu) nofun
  obtain he | ⟨hn, he⟩ := hother hr hb
  · exact h.advance he
  · exact hclosed (by rw [hn]; decide) (.inr he) fun hf => h.reported hf (.inl hn)

theorem Sound.took {v : View} (h : v.Sound) (ht : v.Told) (cause : Cause) :
    (v.advance (.took cause)).Sound := by
  refine h.told ht (fun hp => ?_) (fun hp => ?_) fun hr _ => ?_
  · exact .inl (by rw [hp]; rfl)
  · exact .inl (by rw [hp]; rfl)
  · cases hv : v.phase with
    | read => exact absurd hv hr
    | _ => exact .inl rfl

theorem Sound.recovered {v : View} (h : v.Sound) (ht : v.Told) : (v.advance .recovered).Sound := by
  refine h.told ht (fun hp => ?_) (fun hp => ?_) fun hr hb => ?_
  · exact .inr (by rw [hp]; rfl)
  · exact .inr (by rw [hp]; rfl)
  · cases hv : v.phase with
    | read => exact absurd hv hr
    | begun => exact absurd hv hb
    | noted => exact .inr ⟨rfl, rfl⟩
    | _ => exact .inl rfl

def noted (v : View) (seen : Nat) (status : ClipStatus) (released : Bool) : View :=
  { v with
    ring := if seen = v.gen then ringHolds status else v.ring
    lost := v.lost || (seen = v.gen && released && v.ring && !ringHolds status) }

/-- A tick's note of an empty ring comes only while no loss is open. -/
theorem Sound.glanced {v : View} (h : v.Sound) (seen : Nat) {status : ClipStatus}
    (hempty : v.fair → v.phase.Open → ringHolds status = true) :
    (v.noted seen status false).Sound := by
  refine ⟨h.empty, fun hf ho => ?_, fun hf hn => ?_⟩
  · by_cases hg : seen = v.gen
    · exact .inl (by simp only [noted, if_pos hg, hempty hf ho])
    · simpa [noted, hg] using h.unreported hf ho
  · simp [noted, h.reported hf hn]

/-- A recovery's note reports the loss if it is of the emptied ring. -/
theorem Sound.concluded {v : View} (h : v.Sound) {seen : Nat} {status : ClipStatus}
    (hread : v.Read seen (some status)) :
    (v.noted seen status true).Sound ∧ (v.noted seen status true).Told := by
  have hlost : v.gen = seen → ringHolds status = false → v.ring = true ∨ v.lost = true →
      (v.noted seen status true).lost = true := fun hg hh hr => by
    obtain hr | hr := hr <;> simp [noted, hg, hh, hr]
  refine ⟨⟨h.empty, fun hf ho => ?_, fun hf hn => ?_⟩, fun hf hp => ?_⟩
  · have hu := h.unreported hf ho
    by_cases hg : seen = v.gen
    · cases hh : ringHolds status with
      | true => exact .inl (by simp [noted, hg, hh])
      | false => exact .inr (hlost hg.symm hh hu)
    · simpa [noted, hg] using hu
  · simp [noted, h.reported hf hn]
  · obtain ⟨hg, _, hs, hh⟩ := hread hp
    cases hs
    exact hlost hg hh (h.unreported hf (.inr (.inr hp)))

/-- Said of a tick's ring reading if no hello has come since `before` of them were read. -/
structure Since (before : Nat) (p : Glance → Option UInt16 → Prop) (v : View) : Prop where
  le : before ≤ v.hellos
  holds : v.hellos = before → p v.glance v.session

def Looking (before : Nat) : View → Prop := Since before fun g _ => g = .looking

def Seen (before : Nat) (status : ClipStatus) : View → Prop :=
  Since before fun g _ => ringHolds status = false → g = .empty

def Compared (before : Nat) (status : ClipStatus) (session : UInt16) : View → Prop :=
  Since before fun g recorded =>
    ringHolds status = false → recorded = some session → g = .passed

def Matched (status : ClipStatus) (session : UInt16) (v : View) : Prop :=
  ringHolds status = false → v.session = some session → v.glance = .passed

def Passed (status : ClipStatus) (v : View) : Prop :=
  ringHolds status = false → v.glance = .passed

end View

theorem kept_unread : Kept Unread := fun v v' _ hm h hp => by
  cases hm.ringed with
  | loaded hl => exact absurd (hl.symm.trans hp) (by decide)
  | emptied he => exact absurd (he.symm.trans hp) (by decide)
  | kept hk => exact h (hk.symm.trans hp)

theorem kept_at (gen : Nat) : Kept (At gen) := fun v v' hs hm h => by
  refine ⟨kept_unread v v' hs hm h.unread, fun hp => ?_⟩
  cases hm.ringed with
  | loaded hl => exact absurd (hl.symm.trans hp) (by decide)
  | emptied he => exact absurd (he.symm.trans hp) (by decide)
  | kept hk _ _ _ hg => exact hg.trans (h.current (hk.symm.trans hp))

theorem kept_read (gen : Nat) (ring : Option ClipStatus) : Kept (Read gen ring) :=
  fun v v' _ hm h hp => by
    cases hm.ringed with
    | loaded hl => exact absurd (hl.symm.trans hp) (by decide)
    | emptied he => exact absurd (he.symm.trans hp) (by decide)
    | kept hk _ _ _ hg =>
      obtain ⟨hgen, hring⟩ := h (hk.symm.trans hp)
      exact ⟨hg.trans hgen, hring⟩

theorem kept_told : Kept Told := fun v v' _ hm h hf hp => by
  cases hm.ringed with
  | loaded hl => exact absurd (hl.symm.trans hp) (by decide)
  | emptied he => exact absurd (he.symm.trans hp) (by decide)
  | kept hk _ _ hl _ => exact hl.trans (h (hm.beside.fair hf) (hk.symm.trans hp))

theorem kept_since (before : Nat) (p : Glance → Option UInt16 → Prop) : Kept (Since before p) :=
  fun v v' _ hm h => by
    refine ⟨h.le.trans hm.beside.hellos, fun he => ?_⟩
    have heq : v.hellos = before := Nat.le_antisymm (hm.beside.hellos.trans he.le) h.le
    rw [hm.beside.glance (he.trans heq.symm), hm.beside.session]
    exact h.holds heq

theorem kept_matched (status : ClipStatus) (session : UInt16) : Kept (Matched status session) :=
  fun _ _ _ hm h hempty hs => hm.beside.passed (h hempty (hm.beside.session.symm.trans hs))

theorem kept_passed (status : ClipStatus) : Kept (Passed status) :=
  fun _ _ _ hm h hempty => hm.beside.passed (h hempty)

theorem view_clipNoteRing (s : State) (seen : Nat) (status : ClipStatus) (released : Bool) :
    view { s with desired := s.desired.clipNoteRing seen status released } =
      (view s).noted seen status released := by
  obtain ⟨hr, hl, hg⟩ := clipNoteRing_clip s.desired seen status released
  simp only [view, View.noted, hr, hl, hg]
  rfl

theorem triple_lookHellos : Triple Moves Inv Any lookHellos fun before => About (Looking before) := by
  refine triple_about kept_any (fun before => kept_since before _) fun s hI _ => ?_
  have hphase : (phase s.log).advance .looked = phase s.log := by cases phase s.log <;> rfl
  have hglance : (Clip.glance s.log).advance .looked = .looking := by
    cases Clip.glance s.log <;> rfl
  exact ⟨hI.advance (e := .looked) hphase, Nat.le_refl _, fun _ => hglance⟩

theorem advance_answered_tick (p : Phase) (reply : Reply) (recorded : Option UInt16) :
    p.advance (.answered true reply recorded) = p := by
  cases p <;> rfl

theorem triple_glanceClip (before : Nat) : Triple Moves Inv (About (Looking before))
    (readClip (ask true)) fun r => r.elim Any fun status => About (Seen before status) := by
  have hB : ∀ r : Option ClipStatus, Kept (r.elim (fun _ => True) fun status => Seen before status) :=
    fun r => by
      cases r with
      | none => exact kept_any
      | some status => exact kept_since before _
  refine (Recovery.triple_readClip (A := fun r => About (r.elim (fun _ => True) fun status =>
    Seen before status)) (fun r => stable_about (hB r)) ?_).weaken (fun _ _ h => h)
      fun r _ _ h => by cases r <;> exact h
  refine triple_ask (kept_since before _) (fun r => hB _) (fun _ _ => trivial) fun s hI h => ?_
  refine ⟨hI.advance (advance_answered_tick _ _ _), h.le, fun he hempty => ?_⟩
  change (Clip.glance s.log).advance (.answered true (.clip s.env.session.held) _) = .empty
  rw [show Clip.glance s.log = .looking from h.holds he]
  exact if_neg (Bool.eq_false_iff.mp hempty)

theorem triple_glanceStats (before : Nat) (status : ClipStatus) :
    Triple Moves Inv (About (Seen before status)) (readStats (ask true)) fun r =>
      r.elim Any fun session => About (Compared before status session) := by
  have hC : ∀ r : Option UInt16, Kept (r.elim (fun _ => True) fun session =>
      Compared before status session) := fun r => by
    cases r with
    | none => exact kept_any
    | some session => exact kept_since before _
  refine (Recovery.triple_readStats (A := fun r => About (r.elim (fun _ => True) fun session =>
    Compared before status session)) (fun r => stable_about (hC r)) ?_).weaken (fun _ _ h => h)
      fun r _ _ h => by cases r <;> exact h
  refine triple_ask (kept_since before _) (fun r => hC _) (fun _ _ => trivial) fun s hI h => ?_
  refine ⟨hI.advance (advance_answered_tick _ _ _), h.le, fun he hempty hs => ?_⟩
  change (Clip.glance s.log).advance
    (.answered true (.stats s.env.session.counter) s.watch.session) = .passed
  rw [show Clip.glance s.log = .empty from h.holds he hempty]
  exact if_pos hs

theorem triple_glance : Triple Moves Inv Any (readRing (ask true)) fun _ => Any := by
  refine triple_readRing stable_any stable_any triple_lookHellos triple_glanceClip
    triple_glanceStats (D := fun status session => About (Matched status session))
    (F := fun status => About (Passed status)) (fun before status session => ?_)
    (fun status session => ?_) fun seen status => ?_
  · refine triple_about (q := fun now v => if now ≠ before then True else Matched status session v)
      (kept_since before _) (fun now => ?_) (fun s hI h => ⟨hI, ?_⟩) |>.weaken (fun _ _ h => h)
        fun now s _ h => ?_
    · by_cases hn : now ≠ before
      · simp only [if_pos hn]
        exact kept_any
      · simp only [if_neg hn]
        exact kept_matched status session
    · split
      · trivial
      next hn => exact h.holds (not_not.mp hn)
    · split at h
      next hn =>
        rw [if_pos hn]
        trivial
      next hn =>
        rw [if_neg hn]
        exact h
  · refine triple_about (q := fun same v => if same then Passed status v else True)
      (kept_matched status session) (fun same => ?_) (fun s hI h => ⟨hI, ?_⟩) |>.weaken
        (fun _ _ h => h) fun same s _ h => by cases same <;> exact h
    · cases same with
      | true => exact kept_passed status
      | false => exact kept_any
    · cases hs : s.watch.sessionIs session with
      | true => exact fun hempty => h hempty (of_decide_eq_true hs)
      | false => trivial
  · refine triple_about (kept_passed status) (fun _ => kept_any) fun s hI h => ⟨?_, trivial⟩
    rw [Inv, view_clipNoteRing]
    refine hI.glanced seen fun hf ho => ?_
    by_contra hempty
    exact spared_of_fair hf ⟨h (Bool.eq_false_iff.mpr hempty), ho⟩

theorem triple_noteRelease (gen : Nat) (ring : Option ClipStatus) :
    Triple Moves Inv (About (Read gen ring)) (noteRelease gen ring) fun _ => About Told := by
  cases ring with
  | none =>
    refine Triple.pure _ (stable_about (kept_read gen none)) fun _ _ h _ hp => ?_
    obtain ⟨-, _, hs, -⟩ := h hp
    cases hs
  | some status =>
    refine triple_about (kept_read gen (some status)) (fun _ => kept_told) fun s hI h => ?_
    rw [Inv, view_clipNoteRing]
    exact hI.concluded h

theorem triple_beginResend :
    Triple Moves Inv Any beginResend fun _ => About Unread := by
  refine triple_about kept_any (fun _ => kept_unread) fun s hI _ => ⟨hI.began, ?_⟩
  change (phase s.log).advance .began ≠ .read
  cases phase s.log <;> decide

theorem triple_resend : Triple Moves Inv Any resend fun _ => About Unread := by
  have hU := stable_about kept_unread
  refine triple_beginResend.bind fun _ =>
    Triple.atomic hU (fun _ => hU) fun s i s' sent hI hP hf => ?_
  cases i with
  | choice b =>
    cases b with
    | true =>
      cases hf
      change (view { markDirty s with log := .resent :: (markDirty s).log }).Sound ∧
        Unread (view { markDirty s with log := .resent :: (markDirty s).log })
      rw [view_aside aside_resent]
      exact ⟨hI, hP⟩
    | false =>
      cases hf
      exact ⟨hI, hP⟩
  | _ => cases hf

theorem triple_keep : Triple Moves Inv Any keep fun _ => Any := by
  refine Triple.atomic stable_any (fun _ => stable_any) fun s i s' sent hI _ hf => ⟨?_, trivial⟩
  have hover : (phase s.log).advance .glanced = phase s.log := by cases phase s.log <;> rfl
  cases i with
  | choice b => cases b <;> cases hf <;> exact hI.advance hover
  | _ => cases hf

theorem triple_cloneUp {p : View → Prop} (hp : Kept p) :
    Triple Moves Inv (About p) (cloneUp (ask false)) fun _ => About p :=
  triple_cloneUp_keeps (stable_about hp) (triple_ask_aside (by decide) hp)
    (triple_ask_aside (by decide) hp)

theorem triple_readStats {p : View → Prop} (hp : Kept p) :
    Triple Moves Inv (About p) (readStats (ask false)) fun _ => About p :=
  Recovery.triple_readStats (fun _ => stable_about hp) (triple_ask_aside (by decide) hp)

theorem triple_readClip (gen : Nat) :
    Triple Moves Inv (About (At gen)) (readClip (ask false)) fun ring => About (Read gen ring) := by
  refine Recovery.triple_readClip (fun ring => stable_about (kept_read gen ring)) ?_
  refine triple_ask (r := fun r => Read gen (r.bind Reply.ring)) (kept_at gen)
    (fun r => kept_read gen _) (fun v h hp => absurd hp h.unread) fun s hI h => ?_
  refine ⟨hI.answered s.env.session.held s.watch.session, fun hp => ?_⟩
  -- only the answer itself can have brought the phase here
  have hbegun : phase s.log = .begun := by
    have hp' : (phase s.log).advance (.answered false (.clip s.env.session.held) s.watch.session) =
        .read := hp
    have hunread : phase s.log ≠ .read := h.unread
    cases hv : phase s.log <;> simp_all [Phase.advance]
  exact ⟨h.current hbegun, _, rfl, hI.empty fun hl => absurd (hl.symm.trans hbegun) (by decide)⟩

theorem triple_conclude (cause : Cause) (seen : Nat) (before : UInt16) (gen : Nat)
    (ring : Option ClipStatus) :
    Triple Moves Inv (About (Read gen ring)) (conclude cause seen before gen ring) fun outcome =>
      if outcome = .done then About Told else Any := by
  refine Recovery.triple_conclude (fun outcome => ?_) (triple_noteRelease gen ring)
    (triple_about kept_told (fun _ => kept_told) fun _ hI h => ⟨⟨hI.1, hI.2, hI.3⟩, h⟩)
    (L := About Told) ?_ ?_
  · split
    · exact stable_about kept_told
    · exact stable_any
  · have htake : Triple Moves Inv (About Told) (takeBooted cause) fun _ => About Told := by
      refine triple_about kept_told (fun _ => kept_told) fun s hI h => ⟨hI.took h cause, ?_⟩
      intro _ hp
      have hp' : (phase s.log).advance (.took cause) = .read := hp
      cases hv : phase s.log <;> simp_all [Phase.advance]
    refine htake.bind fun _ => Triple.ite (fun _ => ?_) fun _ => ?_
    · exact triple_keeps kept_told fun _ => rfl
    · exact Triple.pure _ (stable_about kept_told) fun _ _ h => h
  · refine (triple_keeps kept_told fun s => ?_).weaken (fun _ _ h => h) fun ended s _ h => ?_
    · simp only [view, Watch.finish]
      split <;> rfl
    · cases ended with
      | true => exact h
      | false => trivial

theorem triple_settle (cause : Cause) (seen : Nat) (before : UInt16) :
    Triple Moves Inv (About Unread) (settle (ask false) cause seen before) fun outcome =>
      if outcome = .done then About Told else Any := by
  refine Recovery.triple_settle (P := Any) (F := fun gen => About (At gen))
    (G := fun gen ring => About (Read gen ring)) (H := fun gen ring => About (Read gen ring))
    stable_any (fun gen ring => stable_about (kept_read gen ring))
    (fun gen ring => stable_about (kept_read gen ring)) (triple_cloneUp kept_unread) ?_
    triple_readClip (fun _ _ _ _ _ => trivial) (fun gen ring => ?_)
    (triple_conclude cause seen before) fun _ _ _ => trivial
  · exact triple_about kept_unread kept_at fun s hI h => ⟨hI, h, fun _ => rfl⟩
  · refine (triple_readStats (kept_read gen ring)).weaken (fun _ _ h => h) fun r s _ h => ?_
    split
    · exact h
    · trivial

theorem triple_step (cause : Cause) :
    Triple Moves Inv Any (step (ask false) resend cause) fun outcome =>
      if outcome = .done then About Told else Any := by
  refine Recovery.triple_step (A := fun _ => Any) (B := fun _ _ => Any)
    (C := fun _ _ => About Unread)
    stable_any (fun _ => stable_any) ((triple_cloneUp kept_any).weaken (fun _ _ h => h) (by simp))
    (triple_aside aside_sampled kept_any)
    (fun _ _ => triple_keeps kept_any fun _ => rfl) (fun _ => ?_) (fun _ _ => ?_)
    (triple_settle cause) fun _ _ _ => trivial
  · exact (triple_readStats kept_any).weaken (fun _ _ h => h) fun r _ _ h => by
      cases r <;> exact h
  · exact triple_resend.weaken (fun _ _ h => h) fun sent _ _ h => by
      cases sent with
      | true => exact h
      | false => trivial

theorem triple_setPending (cause : Cause) : Triple Moves Inv Any (setPending cause) fun _ => Any :=
  triple_keeps kept_any fun _ => rfl

theorem triple_loop : Triple Moves Inv Any loop fun _ => Any := by
  have hstop : Triple Moves Inv Any (pure () : Program Box Unit) fun _ => Any :=
    Triple.pure _ stable_any fun _ _ h => h
  refine Recovery.triple_turn (A := Any) (N := Any) (M := fun _ => Any) stable_any stable_any
    (fun _ _ h => h) (fun _ => stable_any) (fun _ _ _ h => h) ?_ ?_ (fun cause => ?_) ?_
    fun otherwise hother => ?_
  · have htake : Triple Moves Inv Any takeOwed fun _ => Any := triple_keeps kept_any fun _ => rfl
    exact htake.bind fun owed => Triple.ite (fun _ => triple_setPending _) fun _ => hstop
  · exact (triple_read stable_any).weaken (fun _ _ h => h) fun p _ _ h => by cases p <;> exact h
  · refine triple_recover (triple_step cause) ?_ (triple_setPending _) (fun _ _ h => h) stable_any
    exact triple_about kept_told (fun _ => kept_any) fun _ hI h => ⟨hI.recovered h, trivial⟩
  · exact triple_keepHeld stable_any triple_glance triple_keep
  · refine triple_watchSession (S := Any) (T := Any) ?_ (triple_keeps kept_any fun _ => rfl)
      (triple_setPending _) hother
    refine (triple_readStats kept_any).bind fun r => ?_
    cases r with
    | none => exact Triple.pure _ stable_any fun _ _ h => h
    | some session =>
      have hmoved : Triple Moves Inv Any (sessionMoved session) fun _ => Any :=
        triple_about kept_any (fun _ => kept_any) fun _ hI _ => ⟨⟨hI.1, hI.2, hI.3⟩, trivial⟩
      exact hmoved.weaken (fun _ _ h => h) fun b _ _ h => by cases b <;> exact h

/-- In a run that spares the flag, a recovery done after a re-send begun after the box emptied a
ring the host knew of has reported the clip lost, until something is loaded. -/
theorem lost_reported (box : Box) {ls : List (Other ⊕ Input)} {s : State} {t : Program Box Unit}
    (hr : Steps.run next (start box, loop) ls = some (s, t)) (hfair : Fair s.log)
    (hphase : phase s.log = .recovered) : s.desired.clip.lost = true := by
  have hsound : Inv s := by
    refine loop_invariant triple_loop (fun _ l _ h => ⟨l, h⟩) ?_ trivial hr
    exact .of_loaded rfl
  exact hsound.reported hfair (.inr hphase)

abbrev Run := List (Other ⊕ Input)

def device : Box :=
  { session := { held := .default }, nHid := 1, nButtons := 5, vid := 0x046D, pid := 0xC077 }

/-- A clip is appended, and a tick reads the counter and the ring. -/
def appended : Run :=
  [[.inl (.append 3), .inl (.perform (.clipLoaded true))],
    [.go, .go, .go, .choice false, .go, .go, .go, .go, .go, .go, .go, .go, .go, .go,
      .choice false].map .inr].flatten

/-- The device detaches for longer than its grace; a tick sees the counter moved, and the recovery
finds no clone. -/
def detached : Run :=
  [[.inl (.box (.detach false)), .inl (.box (.graceOver false))],
    [.go, .go, .go, .go, .choice false, .go, .go, .go, .go,
      .go, .go, .go, .choice true, .go, .go].map .inr].flatten

/-- A tick while the recovery waits reads the empty ring at the counter just recorded. -/
def ticked : Run :=
  [.go, .go, .go, .choice false, .go, .choice false, .go, .go, .go, .go, .go, .go, .go, .go,
    .choice false].map .inr

/-- The device attaches and the recovery is done. -/
def attached : Run :=
  [[.inl (.box .attach)],
    [.go, .go, .go, .choice true, .go, .go, .go, .go, .go, .choice true, .go, .go, .go, .go,
      .go, .go, .go, .go, .go].map .inr].flatten

def waitedUnticked : Run := [appended, detached, attached].flatten

def waitedTicked : Run := [appended, detached, ticked, attached].flatten

theorem waitedUnticked_reported : ∃ s t,
    Steps.run next (start device, loop) waitedUnticked = some (s, t) ∧
      s.watch.session = some 1 ∧ s.desired.clip.lost = true := by
  have hrun : ((Steps.run next (start device, loop) waitedUnticked).map fun c =>
      (c.1.watch.session, decide (Fair c.1.log), phase c.1.log)) =
        some (some 1, true, .recovered) := by decide +kernel
  obtain ⟨⟨s, t⟩, hr, he⟩ := Option.map_eq_some_iff.mp hrun
  simp only [Prod.mk.injEq, decide_eq_true_eq] at he
  exact ⟨s, t, hr, he.1, lost_reported device hr he.2.1 he.2.2⟩

/-- The tick takes the emptied ring for one that had drained, so nothing is lost when the recovery
reads it. -/
theorem waitedTicked_unreported : ∃ s t,
    Steps.run next (start device, loop) waitedTicked = some (s, t) ∧
      phase s.log = .recovered ∧ s.desired.clip.lost = false := by
  have hrun : ((Steps.run next (start device, loop) waitedTicked).map fun c =>
      (phase c.1.log, c.1.desired.clip.lost)) = some (.recovered, false) := by decide +kernel
  obtain ⟨⟨s, t⟩, hr, he⟩ := Option.map_eq_some_iff.mp hrun
  simp only [Prod.mk.injEq] at he
  exact ⟨s, t, hr, he.1, he.2⟩

end Medius.Recovery.Clip
