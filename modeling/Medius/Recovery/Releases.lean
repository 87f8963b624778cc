import Medius.Lib.Debt
import Medius.Link.Operation
import Medius.Recovery.Rules

/-! No counted release is missed, as far as the counter can tell releases apart. -/

namespace Medius.Recovery.Releases

open Link Keepalive Thread Medius.Types

def kind : Event → Option Debt.Kind
  | .released => some .request
  | .began => some .begins
  | .resent => some .completes
  | _ => none

/-- The box's counter stood at `base` and has counted `count` releases since; `lastRead` of them
before it was last read by a recovery or to see whether it moved. -/
structure Box where
  base : UInt16
  count : Nat := 0
  lastRead : Nat := 0

abbrev State := Shared Box

def Box.at (b : Box) (n : Nat) : UInt16 := b.base + UInt16.ofNat n

/-- A query may go unanswered; the counter's reply is what it stands at. -/
def ask : Query → Program Box (Option Reply)
  | .stats => .atomic fun s i =>
    match i with
    | .go => some ({ s with
        deciding := s.pending.isNone
        env := { s.env with lastRead := s.env.count } }, some (.stats (s.env.at s.env.count)))
    | .reply none => some (s, none)
    | _ => none
  | _ => .atomic fun s i =>
    match i with
    | .reply r => some (s, r)
    | _ => none

/-- A tick's reading is compared with what is recorded, and recorded nowhere. -/
def glance : Query → Program Box (Option Reply)
  | .stats => .atomic fun s i =>
    match i with
    | .go => some (s, some (.stats (s.env.at s.env.count)))
    | .reply none => some (s, none)
    | _ => none
  | _ => .atomic fun s i =>
    match i with
    | .reply r => some (s, r)
    | _ => none

def beginResend : Program Box Unit := access fun s => ({ s with log := .began :: s.log }, ())

def endResend : Program Box Bool := .atomic fun s i =>
  match i with
  | .choice true => some ({ s with log := .resent :: s.log }, true)
  | .choice false => some (s, false)
  | _ => none

def resend : Program Box Bool := do
  beginResend
  endResend

def keep : Program Box Unit := return ()

def loop : Program Box Unit := turn ask glance resend keep

inductive Other
  | release
  | noteReply
  | perform (op : DesiredOp)

/-- Fewer than 65536 releases are counted between two readings. -/
def others (s : State) : Other → Option State
  | .release =>
    if s.env.count + 1 < s.env.lastRead + 65536 then
      some { s with
        log := if s.watch.session.isSome then .released :: s.log else s.log
        env := { s.env with count := s.env.count + 1 } }
    else none
  | .noteReply => some s.noteReply
  | .perform op => some { s with desired := s.desired.perform op }

def Moves (s s' : State) : Prop := ∃ l, others s l = some s'

def next := Thread.next others fun _ => some loop

/-- The counter's first reading has been recorded, or there has been none. -/
def start (base : UInt16) (recorded : Bool) : State where
  watch := { session := if recorded then some base else none }
  env := { base }

structure View where
  session : Option UInt16
  pending : Option Cause
  deciding : Bool
  box : Box
  debt : Debt.State

def view (s : State) : View :=
  ⟨s.watch.session, s.pending, s.deciding, s.env, Debt.state kind s.log⟩

namespace View

def released (v : View) : View :=
  { v with
    box := { v.box with count := v.box.count + 1 }
    debt := if v.session.isSome then v.debt.advance (some .request) else v.debt }

/-- Every release up to the last reading has been answered, unless there has been one since. -/
def Answered (v : View) : Prop := v.box.count = v.box.lastRead → v.debt.waiting = false

def ReadAs (v : View) (session : UInt16) : Prop := session = v.box.at v.box.lastRead

/-- At the head of the loop. -/
def Head (v : View) : Prop := v.deciding = false

structure Free (v : View) : Prop where
  pending : v.pending = none
  head : v.Head

def Pending (v : View) : Prop := v.pending ≠ none ∧ v.Head

structure Sound (v : View) : Prop where
  lastRead_le : v.box.lastRead ≤ v.box.count
  sparse : v.box.count < v.box.lastRead + 65536
  unrecorded : v.session = none → v.debt.waiting = false
  rest : v.pending = none → v.deciding = false → ∀ session, v.session = some session →
    v.ReadAs session ∧ v.Answered

theorem Sound.released {v : View} (h : v.Sound)
    (hs : v.box.count + 1 < v.box.lastRead + 65536) : v.released.Sound where
  lastRead_le := Nat.le_succ_of_le h.lastRead_le
  sparse := hs
  unrecorded hn := by
    have hn : v.session = none := hn
    simp only [View.released, hn]
    exact h.unrecorded hn
  rest hp hd session hsession :=
    ⟨(h.rest hp hd session hsession).1, fun hc =>
      absurd hc (Nat.ne_of_gt (Nat.lt_succ_of_le h.lastRead_le))⟩

/-- The counter shows the last reading only if nothing has been released since. -/
theorem Sound.count_eq {v : View} (h : v.Sound) (hs : v.ReadAs (v.box.at v.box.count)) :
    v.box.count = v.box.lastRead := by
  have hle := h.lastRead_le
  have hlt := h.sparse
  have hmod : UInt16.ofNat v.box.count = UInt16.ofNat v.box.lastRead := by
    have h := congrArg (· - v.box.base) (show v.box.at v.box.count = v.box.at v.box.lastRead from hs)
    simpa [Box.at] using h
  have hnat := congrArg UInt16.toNat hmod
  simp only [UInt16.toNat_ofNat'] at hnat
  omega

end View

open View

abbrev Inv (s : State) : Prop := (view s).Sound

abbrev About (p : View → Prop) (s : State) : Prop := p (view s)

/-- Kept by a release. -/
abbrev Kept (p : View → Prop) : Prop := ∀ v, v.Sound → p v → p v.released

theorem moves_cases {s s' : State} (h : Moves s s') :
    view s' = view s ∨
      view s' = (view s).released ∧ s.env.count + 1 < s.env.lastRead + 65536 := by
  obtain ⟨l, hl⟩ := h
  cases l with
  | release =>
    simp only [others] at hl
    split at hl
    next hsparse =>
      cases hl
      refine .inr ⟨?_, hsparse⟩
      have hdebt := apply_ite (Debt.state kind) (s.watch.session.isSome = true)
        (.released :: s.log) s.log
      simp only [view, released, hdebt]
      rfl
    · cases hl
  | noteReply | perform =>
    cases hl
    exact .inl rfl

theorem stable_about {p : View → Prop} (hp : Kept p) : Stable Moves Inv (About p) := by
  intro s s' hI hP hm
  obtain he | ⟨he, hsparse⟩ := moves_cases hm
  · exact ⟨by rw [Inv, he]; exact hI, by rw [About, he]; exact hP⟩
  · exact ⟨by rw [Inv, he]; exact hI.released hsparse, by rw [About, he]; exact hp _ hI hP⟩

theorem triple_about {β : Type} {f : State → State × β} {p : View → Prop} {q : β → View → Prop}
    (hp : Kept p) (hq : ∀ b, Kept (q b))
    (h : ∀ s, (view s).Sound → p (view s) →
      (view (f s).1).Sound ∧ q (f s).2 (view (f s).1)) :
    Triple Moves Inv (About p) (access f) fun b => About (q b) :=
  triple_access (stable_about hp) (fun b => stable_about (hq b)) h

/-- An access of nothing the counting is about. -/
theorem triple_keeps {β : Type} {f : State → State × β} {p : View → Prop} (hp : Kept p)
    (hview : ∀ s, view (f s).1 = view s) :
    Triple Moves Inv (About p) (access f) fun _ => About p :=
  triple_about hp (fun _ => hp) fun s hs h => by
    rw [hview]
    exact ⟨hs, h⟩

theorem triple_ask {p : View → Prop} (hp : Kept p) {q : Query} (hq : q ≠ .stats) :
    Triple Moves Inv (About p) (ask q) fun _ => About p := by
  cases q with
  | stats => exact absurd rfl hq
  | caps | deviceInfo | clip =>
    refine Triple.answer (stable_about hp) fun s i s' r hf => ?_
    cases i with
    | reply r =>
      cases hf
      rfl
    | _ => cases hf

theorem triple_glance {p : View → Prop} (hp : Kept p) (q : Query) :
    Triple Moves Inv (About p) (glance q) fun _ => About p := by
  cases q with
  | stats =>
    refine Triple.answer (stable_about hp) fun s i s' r hf => ?_
    cases i with
    | go =>
      cases hf
      rfl
    | reply r =>
      cases r with
      | none =>
        cases hf
        rfl
      | some => cases hf
    | choice => cases hf
  | caps => exact triple_ask hp (q := .caps) (by decide)
  | deviceInfo => exact triple_ask hp (q := .deviceInfo) (by decide)
  | clip => exact triple_ask hp (q := .clip) (by decide)

namespace View

/-- The counter read just now: where it stands, unless something has been released since. -/
def readNow (v : View) : View :=
  { v with deciding := v.pending.isNone, box := { v.box with lastRead := v.box.count } }

theorem Pending.readNow {v : View} (h : v.Pending) : v.readNow.Pending := by
  refine ⟨h.1, ?_⟩
  obtain ⟨cause, hp⟩ := Option.ne_none_iff_exists'.mp h.1
  simp [Head, View.readNow, hp]

theorem Sound.readNow {v : View} (h : v.Sound) : v.readNow.Sound where
  lastRead_le := Nat.le_refl _
  sparse := Nat.lt_add_of_pos_right (by decide)
  unrecorded := h.unrecorded
  rest hp hd := by
    have hp : v.pending = none := hp
    have hd : v.pending.isNone = false := hd
    rw [hp] at hd
    cases hd

end View

/-- What follows a reading of the counter: `q`, of what it shows, where it comes back. -/
theorem triple_readStats {p : View → Prop} {q : UInt16 → View → Prop} (hp : Kept p)
    (hq : ∀ session, Kept (q session))
    (h : ∀ v, v.Sound → p v → q (v.box.at v.box.count) v.readNow) :
    Triple Moves Inv (About p) (readStats ask) fun r => r.elim (About p) fun session =>
      About (q session) := by
  have hA : ∀ r : Option UInt16, Stable Moves Inv (r.elim (About p) fun session =>
      About (q session)) := fun r => by
    cases r with
    | none => exact stable_about hp
    | some session => exact stable_about (hq session)
  refine Recovery.triple_readStats hA ?_
  refine Triple.atomic (stable_about hp) (fun r => hA _) fun s i s' r hI hP hf => ?_
  cases i with
  | go =>
    cases hf
    exact ⟨hI.readNow, h _ hI hP⟩
  | reply r =>
    cases r with
    | none =>
      cases hf
      exact ⟨hI, hP⟩
    | some => cases hf
  | choice => cases hf

namespace View

structure Before (before : UInt16) (v : View) : Prop where
  pending : v.Pending
  read : v.ReadAs before

/-- No release since the re-send began, unless there has been one since the reading. -/
structure Begun (before : UInt16) (v : View) : Prop extends Before before v where
  begun : v.box.count = v.box.lastRead → v.debt.since = false

structure Sent (before : UInt16) (v : View) : Prop extends Before before v where
  answered : v.Answered

/-- The recovery may end. -/
structure Recorded (v : View) : Prop where
  pending : v.Pending
  rest : ∀ session, v.session = some session → v.ReadAs session ∧ v.Answered

/-- The counter has been read with nothing pending. -/
structure Deciding (session : UInt16) (v : View) : Prop where
  pending : v.pending = none
  read : v.ReadAs session
  answered : v.session = some session → v.Answered

theorem Answered.released {v : View} (h : v.Sound) : v.released.Answered := fun hc =>
  absurd hc (Nat.ne_of_gt (Nat.lt_succ_of_le h.lastRead_le))

end View

theorem kept_head : Kept Head := fun _ _ h => h

theorem kept_free : Kept Free := fun _ _ h => ⟨h.pending, h.head⟩

theorem kept_noticed : Kept fun v => v.pending = none := fun _ _ h => h

theorem kept_pending : Kept Pending := fun _ _ h => h

theorem kept_before (before : UInt16) : Kept (Before before) := fun _ _ h => ⟨h.pending, h.read⟩

theorem kept_begun (before : UInt16) : Kept (Begun before) := fun v hs h =>
  ⟨kept_before before v hs h.toBefore, fun hc =>
    absurd hc (Nat.ne_of_gt (Nat.lt_succ_of_le hs.lastRead_le))⟩

theorem kept_sent (before : UInt16) : Kept (Sent before) := fun v hs h =>
  ⟨kept_before before v hs h.toBefore, .released hs⟩

theorem kept_recorded : Kept Recorded := fun _ hs h =>
  ⟨h.pending, fun session hsession => ⟨(h.rest session hsession).1, .released hs⟩⟩

theorem kept_deciding (session : UInt16) : Kept (Deciding session) := fun _ hs h =>
  ⟨h.pending, h.read, fun _ => .released hs⟩

theorem triple_resend (before : UInt16) :
    Triple Moves Inv (About (Before before)) resend fun sent =>
      if sent then About (Sent before) else About Pending := by
  have hbegin : Triple Moves Inv (About (Before before)) beginResend fun _ =>
      About (Begun before) :=
    triple_about (kept_before before) (fun _ => kept_begun before) fun s hs h =>
      ⟨⟨hs.lastRead_le, hs.sparse, hs.unrecorded, hs.rest⟩, ⟨h.pending, h.read⟩, fun _ => rfl⟩
  refine hbegin.bind fun _ => Triple.atomic (stable_about (kept_begun before)) (fun sent => ?_) ?_
  · cases sent with
    | true => exact stable_about (kept_sent before)
    | false => exact stable_about kept_pending
  · intro s i s' sent hI hs hf
    cases i with
    | choice b =>
      cases b with
      | true =>
        cases hf
        exact ⟨⟨hI.lastRead_le, hI.sparse, fun hn => Debt.since_of_not_waiting (hI.unrecorded hn),
          fun hp => absurd hp hs.pending.1⟩, ⟨hs.pending, hs.read⟩, hs.begun⟩
      | false =>
        cases hf
        exact ⟨hI, hs.pending⟩
    | _ => cases hf

theorem triple_cloneUp {p : View → Prop} (hp : Kept p) :
    Triple Moves Inv (About p) (cloneUp ask) fun _ => About p :=
  triple_cloneUp_keeps (stable_about hp) (triple_ask hp (by decide)) (triple_ask hp (by decide))

theorem triple_conclude (cause : Cause) (seen : Nat) (before : UInt16) (gen : Nat)
    (ring : Option ClipStatus) :
    Triple Moves Inv (About (Sent before)) (conclude cause seen before gen ring) fun outcome =>
      if outcome = .done then About Recorded else About Pending := by
  have hR := kept_recorded
  have hstop : Triple Moves Inv (About Recorded) (pure () : Program Box Unit) fun _ =>
      About Recorded := Triple.pure _ (stable_about hR) fun _ _ h => h
  refine Recovery.triple_conclude (fun outcome => ?_) (K := About (Sent before))
    (M := About Recorded) (L := About Recorded) ?_ ?_ ?_ ?_
  · split
    · exact stable_about hR
    · exact stable_about kept_pending
  · cases ring with
    | none => exact Triple.pure _ (stable_about (kept_sent before)) fun _ _ h => h
    | some status => exact triple_keeps (kept_sent before) fun _ => rfl
  · refine triple_about (kept_sent before) (fun _ => hR) fun s hs h => ?_
    refine ⟨⟨hs.lastRead_le, hs.sparse, nofun, fun hp => absurd hp h.pending.1⟩, h.pending,
      fun session hsession => ?_⟩
    obtain rfl : before = session := Option.some.inj hsession
    exact ⟨h.read, h.answered⟩
  · refine (triple_keeps hR fun _ => rfl).bind fun booted => Triple.ite (fun _ => ?_) fun _ => hstop
    exact triple_keeps hR fun _ => rfl
  · refine (triple_keeps hR fun s => ?_).weaken (fun _ _ h => h) fun ended s _ h => ?_
    · simp only [view, Watch.finish]
      split <;> rfl
    · split
      · exact h
      · exact h.pending

theorem triple_settle (cause : Cause) (seen : Nat) (before : UInt16) :
    Triple Moves Inv (About (Sent before)) (settle ask cause seen before) fun outcome =>
      if outcome = .done then About Recorded else About Pending := by
  have hS := stable_about (kept_sent before)
  refine Recovery.triple_settle (P := About Pending) (F := fun _ => About (Sent before))
    (G := fun _ _ => About (Sent before)) (H := fun _ _ => About (Sent before))
    (stable_about kept_pending) (fun _ _ => hS) (fun _ _ => hS) (triple_cloneUp (kept_sent before))
    (triple_read hS)
    (fun _ => triple_readClip (fun _ => hS) (triple_ask (kept_sent before) (by decide)))
    (fun _ _ _ _ h => h.pending) (fun _ _ => ?_) (triple_conclude cause seen before)
    fun _ _ h => h
  -- a reading that shows `before` again is of the same moment
  let q (session : UInt16) (v : View) : Prop :=
    v.Pending ∧ (session = before → Sent before v)
  have hq : ∀ session, Kept (q session) := fun session v hs h =>
    ⟨h.1, fun he => kept_sent before v hs (h.2 he)⟩
  refine (triple_readStats (kept_sent before) hq fun v hs h =>
    ⟨h.pending.readNow, fun he => ?_⟩).weaken
    (fun _ _ h => h) fun r s _ h => ?_
  · have hcount := hs.count_eq (he.trans h.read)
    refine ⟨⟨h.pending.readNow, ?_⟩, fun _ => h.answered hcount⟩
    rw [ReadAs, h.read]
    simp only [View.readNow, hcount, Box.at]
  · cases r with
    | none => exact h.pending
    | some session =>
      by_cases he : session = before
      · rw [if_pos (congrArg some he)]
        exact h.2 he
      · rw [if_neg fun hs => he (Option.some.inj hs)]
        exact h.1

theorem triple_step (cause : Cause) :
    Triple Moves Inv (About Pending) (step ask resend cause) fun outcome =>
      if outcome = .done then About Recorded else About Pending := by
  have hP := stable_about kept_pending
  refine Recovery.triple_step (A := fun _ => About Pending) (B := fun _ before =>
    About (Before before)) (C := fun _ before => About (Sent before)) hP (fun _ => hP)
    ((triple_cloneUp kept_pending).weaken (fun _ _ h => h) (by simp))
    (triple_keeps kept_pending fun _ => rfl) (fun _ _ => triple_keeps kept_pending fun _ => rfl)
    (fun _ => triple_readStats kept_pending kept_before fun v _ h => ⟨h.readNow, rfl⟩)
    (fun _ before => triple_resend before) (triple_settle cause) fun _ _ h => h

theorem triple_setPending {p : View → Prop} (hp : Kept p) (cause : Cause) :
    Triple Moves Inv (About p) (setPending cause) fun _ => About Head :=
  triple_about hp (fun _ => kept_head) fun _ hs _ =>
    ⟨⟨hs.lastRead_le, hs.sparse, hs.unrecorded, nofun⟩, rfl⟩

theorem triple_recover (cause : Cause) :
    Triple Moves Inv (About Pending) (recover ask resend cause) fun _ => About Head := by
  refine Recovery.triple_recover (triple_step cause) ?_ (triple_setPending kept_pending _)
    (fun _ _ h => h.2) (stable_about kept_pending)
  exact triple_about kept_recorded (fun _ => kept_head) fun _ hs h =>
    ⟨⟨hs.lastRead_le, hs.sparse, hs.unrecorded, fun _ _ => h.rest⟩, h.pending.2⟩

theorem triple_sessionReleased :
    Triple Moves Inv (About Free) (sessionReleased ask) fun released =>
      if released then About fun v => v.pending = none else About Head := by
  have hread : Triple Moves Inv (About Free) (readStats ask) fun r =>
      r.elim (About Free) fun session => About (Deciding session) := by
    refine triple_readStats kept_free kept_deciding fun v hs h =>
      ⟨h.pending, rfl, fun hsession => ?_⟩
    obtain ⟨hread, hanswered⟩ := hs.rest h.pending h.head _ hsession
    exact fun _ => hanswered (hs.count_eq hread)
  refine hread.bind fun r => ?_
  cases r with
  | none => exact Triple.pure _ (stable_about kept_free) fun _ _ h => h.head
  | some session =>
    let q (released : Bool) (v : View) : Prop := v.pending = none ∧ v.deciding = released
    have hq : ∀ released, Kept (q released) := fun _ _ _ h => h
    refine (triple_about (kept_deciding session) hq fun s hs h =>
      ⟨?_, h.pending, rfl⟩).weaken (fun _ _ h => h) fun released s _ h => ?_
    · refine ⟨hs.lastRead_le, hs.sparse, nofun, fun _ hd session' hsession => ?_⟩
      obtain rfl : session = session' := Option.some.inj hsession
      refine ⟨h.read, ?_⟩
      cases hw : s.watch.session with
      | none => exact fun _ => hs.unrecorded hw
      | some recorded =>
        refine h.answered (hw.trans (congrArg some ?_))
        simpa [view, Watch.sessionMoved, hw] using hd
    · cases released with
      | true => exact h.1
      | false => exact h.2

theorem triple_loop : Triple Moves Inv (About Head) loop fun _ => About Head := by
  have hH := stable_about kept_head
  have hstop : Triple Moves Inv (About Head) (pure () : Program Box Unit) fun _ => About Head :=
    Triple.pure _ hH fun _ _ h => h
  refine triple_turn (A := About Head) (N := About Free) (M := fun _ => About Pending) hH
    (stable_about kept_free) (fun _ _ h => h.head) (fun _ => stable_about kept_pending)
    (fun _ _ _ h => h.2) ?_ ?_ triple_recover ?_ fun otherwise hother => ?_
  · exact (triple_keeps kept_head fun _ => rfl).bind fun owed =>
      Triple.ite (fun _ => triple_setPending kept_head _) fun _ => hstop
  · refine triple_access hH (fun p => ?_) fun s hI h => ⟨hI, ?_⟩
    · cases p with
      | none => exact stable_about kept_free
      | some => exact stable_about kept_pending
    · cases hp : s.pending with
      | none => exact ⟨hp, h⟩
      | some cause => exact ⟨fun hn => absurd (hp.symm.trans hn) nofun, h⟩
  · refine triple_keepHeld hH (triple_readRing_keeps hH ?_ (triple_glance kept_head)
      fun _ _ => ?_) hstop
    · exact triple_keeps kept_head fun _ => rfl
    · exact triple_keeps kept_head fun _ => rfl
  · exact Recovery.triple_watchSession triple_sessionReleased
      (triple_keeps kept_noticed fun _ => rfl) (triple_setPending kept_noticed _) hother

/-- With no recovery pending and the recorded session equal to the box's counter, a complete
re-send has followed every release counted since the first recording. -/
theorem no_release_missed (base : UInt16) (recorded : Bool) {ls : List (Other ⊕ Input)} {s : State}
    {t : Program Box Unit} (hr : Steps.run next (start base recorded, loop) ls = some (s, t))
    (hpending : s.pending = none) (hdeciding : s.deciding = false)
    (hsession : s.watch.session = some (s.env.at s.env.count)) : Debt.Answered kind s.log := by
  have hsound : Inv s := by
    refine loop_invariant triple_loop (fun _ l _ h => ⟨l, h⟩) ?_
      (show About Head (start base recorded) from rfl) hr
    refine ⟨Nat.le_refl _, Nat.zero_lt_succ _, fun _ => rfl, fun _ _ session hsession => ?_⟩
    refine ⟨?_, fun _ => rfl⟩
    cases recorded with
    | true =>
      obtain rfl : base = session := Option.some.inj hsession
      simp [ReadAs, Box.at, view, start]
    | false => cases hsession
  obtain ⟨hread, hanswered⟩ := hsound.rest hpending hdeciding _ hsession
  exact Debt.answered_of_waiting (hanswered (hsound.count_eq hread))

abbrev Run := List (Other ⊕ Input)

/-- A lock is held, the box counts a release, a tick sees it and the recovery re-sends. -/
def releaseRecovered : Run :=
  [[.inl (.perform (.applyLock (Protocol.lockClsAxis, 0, Protocol.lockDirBoth)
      Protocol.lockScaleBlock)), .inl .release],
    [.go, .go, .go, .choice false, .go, .go, .go, .go, .go, .go, .go, .choice true,
      .reply (some (.caps 1 5)), .go, .go, .go, .go, .choice true, .reply (some (.caps 1 5)), .go,
      .reply none, .go, .go, .go, .go, .go].map .inr].flatten

theorem releaseRecovered_answered : ∃ s t,
    Steps.run next (start 65535 true, loop) releaseRecovered = some (s, t) ∧ s.env.count = 1 ∧
      Debt.Answered kind s.log := by
  have hrun : ((Steps.run next (start 65535 true, loop) releaseRecovered).map fun c =>
      (c.1.env.count, c.1.pending, c.1.deciding, c.1.watch.session,
        c.1.env.at c.1.env.count)) = some (1, none, false, some 0, 0) := by decide +kernel
  obtain ⟨⟨s, t⟩, hr, he⟩ := Option.map_eq_some_iff.mp hrun
  simp only [Prod.mk.injEq] at he
  obtain ⟨hone, hpending, hdeciding, hsession, hat⟩ := he
  exact ⟨s, t, hr, hone, no_release_missed 65535 true hr hpending hdeciding (by rw [hsession, hat])⟩

/-- The counter is recorded before the release is acted on: nothing is pending yet, and nothing has
been sent again. -/
theorem releaseRecorded_unanswered : ∃ s t,
    Steps.run next (start 65535 true, loop) (releaseRecovered.take 8) = some (s, t) ∧
      s.pending = none ∧ s.watch.session = some (s.env.at s.env.count) ∧
      ¬Debt.Answered kind s.log := by
  have hrun : ((Steps.run next (start 65535 true, loop) (releaseRecovered.take 8)).map fun c =>
      (c.1.pending, c.1.watch.session, c.1.env.at c.1.env.count, c.1.log.map kind)) =
        some (none, some 0, 0, [some .request]) := by decide +kernel
  obtain ⟨⟨s, t⟩, hr, he⟩ := Option.map_eq_some_iff.mp hrun
  simp only [Prod.mk.injEq] at he
  obtain ⟨hpending, hsession, hat, hlog⟩ := he
  refine ⟨s, t, hr, hpending, by rw [hsession, hat], ?_⟩
  obtain ⟨e, hs, hkind⟩ := List.map_eq_singleton_iff.mp hlog
  intro hanswered
  obtain ⟨c, y, b, x, a, hpost, -⟩ := hanswered [] e [] hs hkind
  exact absurd hpost.symm (by simp)

end Medius.Recovery.Releases
