import Medius.Mock.Session
import Medius.Recovery.Rules
import Medius.Replay.Landed

/-! Whether a recovery that is done has left at the box what the host held. -/

namespace Medius.Recovery.Taken

open Protocol Link Keepalive Thread Device Replay Medius.Types

/-- `sent` is what the host held when the last re-send began and `strayed` that a frame of it did not
land; `counted` the releases counted since the counter was last read; `read` and `moved` what the
tables and that count were at the reading. -/
structure Box where
  session : Mock.Session Tables
  caps : Mock.Caps
  nHid : UInt8
  vid : UInt16
  pid : UInt16
  sent : DesiredState := .default
  strayed : Bool := false
  counted : Nat := 0
  read : Tables := .empty
  moved : Nat := 0

namespace Box

/-- With no clone the identity and every field read zero.  What the box says of its clip is left
open. -/
def reply (b : Box) : Query → Option Reply
  | .caps => if b.session.cloneUp then some (.caps b.nHid b.caps.nButtons) else some (.caps 0 0)
  | .deviceInfo =>
    if b.session.cloneUp then some (.deviceInfo b.vid b.pid) else some (.deviceInfo 0 0)
  | .stats => some (.stats b.session.counter)
  | .clip => none

def asked (b : Box) (q : Query) : Box :=
  if q = .stats then { b with read := b.session.held, moved := b.counted, counted := 0 } else b

def receive (b : Box) (f : FrameType × List UInt8) : Box :=
  { b with
    session := { b.session.markDirty with held := b.session.held.apply b.caps b.session.cloneUp f }
    strayed := b.strayed || !decide (Lands b.session.cloneUp b.session.held f) }

def advance (b : Box) (e : Mock.SessionEvent) : Box :=
  let session := b.session.advance (fun _ => Tables.empty) e
  { b with
    session
    counted := if session.counter = b.session.counter then b.counted else b.counted + 1 }

end Box

abbrev State := Shared Box

/-- A reply may be lost, and one about the clip say anything. -/
def ask (q : Query) : Program Box (Option Reply) := .atomic fun s i =>
  match i with
  | .go => (s.env.reply q).map fun r => ({ s with env := s.env.asked q }, some r)
  | .reply none => some (s, none)
  | .reply (some r) => if q = .clip then some (s, some r) else none
  | _ => none

def beginResend : Program Box (List (FrameType × List UInt8)) :=
  access fun s => ({ s with env := { s.env with sent := s.desired, strayed := false } },
    reapplyFrames s.desired true)

/-- A write that fails ends the re-send, and a payload too long for a frame is never written. -/
def sendFrame (f : FrameType × List UInt8) : Program Box Bool := .atomic fun s i =>
  match i with
  | .choice true =>
    if f.2.length ≤ maxPayload then some ({ s with env := s.env.receive f }, true) else none
  | .choice false => some (s, false)
  | _ => none

def sendAll : List (FrameType × List UInt8) → Program Box Bool
  | [] => return true
  | f :: fs => do if ← sendFrame f then sendAll fs else return false

def resend : Program Box Bool := do sendAll (← beginResend)

/-- What goes on meanwhile: the box's own events, and what the reader notes. -/
inductive Other
  | box (e : Mock.SessionEvent)
  | noteReply
  | noteHello (proto : Option UInt8) (wasRefused : Bool)

def others (s : State) : Other → Option State
  | .box e => some { s with env := s.env.advance e }
  | .noteReply => some s.noteReply
  | .noteHello proto wasRefused => some (s.noteHello proto wasRefused)

def Moves (s s' : State) : Prop := ∃ l, others s l = some s'

/-- One run of `step`. -/
def next :
    State × Program Box Outcome → Other ⊕ Link.Input → Option (State × Program Box Outcome) :=
  Thread.next others fun _ => none

/-! ## What the two readings bracket -/

/-- Nothing held is missing from the tables read last. -/
def Took (b : Box) : Prop :=
  Locks.HoldsLocks b.sent b.read.locks ∧ HoldsTransforms b.sent b.read.transforms

/-- The counter moves with the releases counted. -/
def Counts (before : UInt16) (b : Box) : Prop :=
  b.session.counter = before + UInt16.ofNat b.counted

/-- Part of a re-send is sent.  Unless a release has been counted since the reading, or a frame did
not land, the box is dirty from the first frame on and holds what the frames said. -/
structure Going (before : UInt16) (done rest : List (FrameType × List UInt8)) (b : Box) :
    Prop where
  counts : Counts before b
  reachable : Reachable b.sent
  frames : done ++ rest = reapplyFrames b.sent true
  dirty : b.counted = 0 → done ≠ [] → b.session.dirty = true
  landed : Declared b.caps b.sent → b.counted = 0 → b.strayed = false →
    Landed b.caps done b.session.held

theorem succ_ofNat (c : UInt16) (n : Nat) :
    c + UInt16.ofNat n + 1 = c + UInt16.ofNat (n + 1) := by
  rw [UInt16.add_assoc, UInt16.ofNat_add]
  rfl

theorem Counts.advance {before : UInt16} {b : Box} (h : Counts before b) (e : Mock.SessionEvent) :
    Counts before (b.advance e) := by
  unfold Counts Box.advance at *
  dsimp only
  cases b.session.advanced (fun _ => Tables.empty) e with
  | kept _ hcounter => rw [hcounter, if_pos rfl, h]
  | released _ hcounter =>
    rw [hcounter]
    by_cases hdirty : b.session.dirty = true
    · rw [if_pos hdirty, if_neg (by simp), h, succ_ofNat]
    · rw [if_neg hdirty, if_pos rfl, h]

/-- What an event leaves of a session no release of which is counted. -/
theorem advance_uncounted (b : Box) (e : Mock.SessionEvent) (h : (b.advance e).counted = 0) :
    b.counted = 0 ∧
      ((b.advance e).session.held = b.session.held ∧
          (b.advance e).session.dirty = b.session.dirty ∨
        (b.advance e).session.held = .empty ∧ b.session.dirty = false) := by
  unfold Box.advance at *
  dsimp only at *
  cases b.session.advanced (fun _ => Tables.empty) e with
  | kept hheld hcounter hdirty =>
    rw [if_pos hcounter] at h
    exact ⟨h, .inl ⟨hheld, hdirty⟩⟩
  | released hheld hcounter =>
    by_cases hdirty : b.session.dirty = true
    · rw [if_pos hdirty] at hcounter
      rw [if_neg (by rw [hcounter]; simp)] at h
      exact absurd h (Nat.succ_ne_zero _)
    · rw [if_neg hdirty] at hcounter
      rw [if_pos hcounter] at h
      exact ⟨h, .inr ⟨hheld, Bool.eq_false_iff.mpr hdirty⟩⟩

variable {before : UInt16} {done rest : List (FrameType × List UInt8)} {b : Box}

theorem Going.advance (h : Going before done rest b) (e : Mock.SessionEvent) :
    Going before done rest (b.advance e) := by
  refine ⟨h.counts.advance e, h.reachable, h.frames, fun hcounted hne => ?_,
    fun hdecl hcounted hstrayed => ?_⟩
  · obtain ⟨hb, ⟨-, hdirty⟩ | ⟨-, hclean⟩⟩ := advance_uncounted b e hcounted
    · exact hdirty.trans (h.dirty hb hne)
    · exact absurd (h.dirty hb hne) (by rw [hclean]; exact Bool.false_ne_true)
  · obtain ⟨hb, ⟨hheld, -⟩ | ⟨-, hclean⟩⟩ := advance_uncounted b e hcounted
    · rw [hheld]
      exact h.landed hdecl hb hstrayed
    · obtain rfl : done = [] := by
        by_contra hne
        exact absurd (h.dirty hb hne) (by rw [hclean]; exact Bool.false_ne_true)
      exact Landed.nil _

theorem Going.receive {f : FrameType × List UInt8} (h : Going before done (f :: rest) b) :
    Going before (done ++ [f]) rest (b.receive f) := by
  refine ⟨h.counts, h.reachable, ?_, fun _ _ => rfl, fun hdecl hcounted hstrayed => ?_⟩
  · rw [List.append_assoc]
    exact h.frames
  · simp only [Box.receive, Bool.or_eq_false_iff, Bool.not_eq_false', decide_eq_true_eq] at hstrayed
    exact (h.landed hdecl hcounted hstrayed.1).next h.reachable h.frames hdecl hstrayed.2

/-- Read again at the same counter, with the whole re-send landed. -/
theorem Going.took (h : Going before done [] b) (hcounter : b.session.counter = before)
    (hlocks : Locks.DeclaredLocks (min b.caps.nButtons maxButtons).toNat b.sent)
    (hdecl : Declared b.caps b.sent) (hstrayed : b.strayed = false) (hmoved : b.counted < 65536) :
    Took (b.asked .stats) := by
  have hcounted : b.counted = 0 := by
    have hcounts : before + UInt16.ofNat b.counted = before + 0 := by
      rw [UInt16.add_zero]
      exact h.counts.symm.trans hcounter
    have hzero := congrArg UInt16.toNat ((UInt16.add_right_inj _).mp hcounts)
    rw [UInt16.toNat_ofNat', Nat.mod_eq_of_lt hmoved] at hzero
    exact hzero
  have hall : done = reapplyFrames b.sent true := by simpa using h.frames
  have hlanded := h.landed hdecl hcounted hstrayed
  rw [hall] at hlanded
  exact hlanded.holds h.reachable hlocks

/-! ## One run of `step` -/

abbrev Inv (s : State) : Prop := Reachable s.desired

/-- A statement about the box that its own events keep. -/
def Kept (p : Box → Prop) : Prop := ∀ b e, p b → p (b.advance e)

abbrev About (p : Box → Prop) (s : State) : Prop := p s.env

theorem stable_about {p : Box → Prop} (hp : Kept p) : Stable Moves Inv (About p) := by
  rintro s s' hI hP ⟨l, hl⟩
  cases l with
  | box e =>
    cases hl
    exact ⟨hI, hp s.env e hP⟩
  | noteReply =>
    cases hl
    exact ⟨hI, hP⟩
  | noteHello proto wasRefused =>
    cases hl
    exact ⟨hI, hP⟩

theorem kept_any : Kept fun _ => True := fun _ _ _ => trivial

abbrev Any : State → Prop := About fun _ => True

theorem stable_any : Stable Moves Inv Any := stable_about kept_any

theorem kept_counts (before : UInt16) : Kept (Counts before) := fun _ e h => h.advance e

theorem kept_going (before : UInt16) (done rest : List (FrameType × List UInt8)) :
    Kept (Going before done rest) := fun _ e h => h.advance e

/-- The whole re-send is sent. -/
def Sent (before : UInt16) (b : Box) : Prop := ∃ done, Going before done [] b

theorem kept_sent (before : UInt16) : Kept (Sent before) := fun _ e ⟨fs, h⟩ => ⟨fs, h.advance e⟩

/-- With every field held declared and every frame landed, and the counter not gone all the way
round, nothing held is missing. -/
def Settled (b : Box) : Prop :=
  Locks.DeclaredLocks (min b.caps.nButtons maxButtons).toNat b.sent → Declared b.caps b.sent →
    b.strayed = false → b.moved < 65536 → Took b

theorem kept_settled : Kept Settled := fun _ _ h => h

section

variable {p : Box → Prop}

theorem triple_keeps {β : Type} {f : State → State × β} (hp : Kept p)
    (henv : ∀ s, (f s).1.env = s.env) (hdesired : ∀ s, Inv s → Inv (f s).1) :
    Triple Moves Inv (About p) (access f) fun _ => About p := by
  refine triple_access (stable_about hp) (fun _ => stable_about hp) fun s hI h => ?_
  rw [About, henv]
  exact ⟨hdesired s hI, h⟩

theorem triple_ask (hp : Kept p) {q : Query} (hq : q ≠ .stats) :
    Triple Moves Inv (About p) (ask q) fun _ => About p := by
  have hS := stable_about hp
  refine Triple.atomic hS (fun _ => hS) fun s i s' r hI hP hf => ?_
  cases i with
  | go =>
    obtain ⟨reply, -, heq⟩ := Option.map_eq_some_iff.mp hf
    cases heq
    refine ⟨hI, ?_⟩
    rw [About, Box.asked, if_neg hq]
    exact hP
  | reply r =>
    cases r with
    | none =>
      cases hf
      exact ⟨hI, hP⟩
    | some r =>
      simp only at hf
      split at hf
      · cases hf
        exact ⟨hI, hP⟩
      · cases hf
  | choice => cases hf

theorem triple_cloneUp (hp : Kept p) :
    Triple Moves Inv (About p) (cloneUp ask) fun _ => About p :=
  triple_cloneUp_keeps (stable_about hp) (triple_ask hp (by decide)) (triple_ask hp (by decide))

/-- What a reading of the counter leaves, whether it is answered or not. -/
theorem triple_readStats {A : Option UInt16 → Box → Prop} (hp : Kept p) (hA : ∀ r, Kept (A r))
    (hnone : ∀ b, p b → A none b)
    (hsome : ∀ b, p b → A (some b.session.counter) (b.asked .stats)) :
    Triple Moves Inv (About p) (readStats ask) fun r => About (A r) := by
  refine Recovery.triple_readStats (fun r => stable_about (hA r)) ?_
  refine Triple.atomic (stable_about hp) (fun r => stable_about (hA _)) fun s i s' r hI hP hf => ?_
  cases i with
  | go =>
    cases hf
    exact ⟨hI, hsome s.env hP⟩
  | reply r =>
    cases r with
    | none =>
      cases hf
      exact ⟨hI, hnone s.env hP⟩
    | some => cases hf
  | choice => cases hf

end

theorem triple_sendFrame (before : UInt16) (done : List (FrameType × List UInt8))
    (f : FrameType × List UInt8) (rest : List (FrameType × List UInt8)) :
    Triple Moves Inv (About (Going before done (f :: rest))) (sendFrame f) fun sent =>
      About fun b => if sent then Going before (done ++ [f]) rest b else True := by
  refine Triple.atomic (stable_about (kept_going _ _ _)) (fun sent => ?_) fun s i s' sent hI h hf => ?_
  · cases sent with
    | true => exact stable_about (kept_going _ _ _)
    | false => exact stable_any
  · cases i with
    | choice sent =>
      cases sent with
      | true =>
        simp only at hf
        split at hf
        · cases hf
          exact ⟨hI, h.receive⟩
        · cases hf
      | false =>
        cases hf
        exact ⟨hI, trivial⟩
    | _ => cases hf

theorem triple_sendAll (before : UInt16) (done rest : List (FrameType × List UInt8)) :
    Triple Moves Inv (About (Going before done rest)) (sendAll rest) fun sent =>
      About fun b => if sent then Sent before b else True := by
  induction rest generalizing done with
  | nil => exact Triple.pure _ (stable_about (kept_going _ _ _)) fun _ _ h => ⟨done, h⟩
  | cons f rest ih =>
    refine (triple_sendFrame before done f rest).bind fun sent => ?_
    cases sent with
    | true => exact ih (done ++ [f])
    | false => exact Triple.pure _ stable_any fun _ _ _ => trivial

theorem triple_resend (before : UInt16) :
    Triple Moves Inv (About (Counts before)) resend fun sent =>
      About fun b => if sent then Sent before b else True := by
  have hbegin : Triple Moves Inv (About (Counts before)) beginResend fun frames =>
      About (Going before [] frames) := by
    refine triple_access (stable_about (kept_counts before))
      (fun frames => stable_about (kept_going before [] frames)) fun s hI h => ⟨hI, ?_⟩
    exact ⟨h, hI, rfl, fun _ hne => absurd rfl hne, fun _ _ _ => Landed.nil _⟩
  exact hbegin.bind fun frames => triple_sendAll before [] frames

theorem triple_noteRelease (gen : Nat) (ring : Option ClipStatus) :
    Triple Moves Inv (About Settled) (noteRelease gen ring) fun _ => About Settled := by
  cases ring with
  | none => exact Triple.pure _ (stable_about kept_settled) fun _ _ h => h
  | some status =>
    refine triple_keeps kept_settled (fun _ => rfl) fun s hI => ?_
    exact .call (fun _ _ => .ok ()) (.noteRing gen status true) hI

theorem triple_conclude (cause : Cause) (seen : Nat) (before : UInt16) (gen : Nat)
    (ring : Option ClipStatus) :
    Triple Moves Inv (About Settled) (conclude cause seen before gen ring) fun _ =>
      About Settled := by
  have hkeep : ∀ {β : Type} (f : State → State × β), (∀ s, (f s).1.env = s.env) →
      (∀ s, (f s).1.desired = s.desired) →
        Triple Moves Inv (About Settled) (access f) fun _ => About Settled :=
    fun f henv hdesired => triple_keeps kept_settled henv fun s hI => by
      rw [Inv, hdesired]
      exact hI
  refine Recovery.triple_conclude (M := About Settled) (L := About Settled)
    (fun _ => stable_about kept_settled) (triple_noteRelease gen ring)
    (hkeep _ (fun _ => rfl) fun _ => rfl) ?_ (hkeep _ (fun _ => rfl) fun _ => rfl)
  have htake : Triple Moves Inv (About Settled) (takeBooted cause) fun _ => About Settled :=
    hkeep _ (fun _ => rfl) fun _ => rfl
  refine htake.bind fun _ => Triple.ite (fun _ => ?_) fun _ => ?_
  · exact hkeep _ (fun _ => rfl) fun _ => rfl
  · exact Triple.pure _ (stable_about kept_settled) fun _ _ h => h

theorem triple_settle (cause : Cause) (seen : Nat) (before : UInt16) :
    Triple Moves Inv (About (Sent before)) (settle ask cause seen before) fun outcome =>
      About fun b => if outcome = .wait then True else Settled b := by
  have hC := stable_about (kept_sent before)
  refine Recovery.triple_settle (F := fun _ => About (Sent before))
    (G := fun _ _ => About (Sent before)) (H := fun _ _ => About Settled) stable_any
    (fun _ _ => hC) (fun _ _ => stable_about kept_settled) (triple_cloneUp (kept_sent before))
    (triple_read hC) (fun _ => ?_) (fun _ _ _ _ _ => trivial) (fun _ _ => ?_) (fun gen ring => ?_)
    fun _ _ _ => trivial
  · exact Recovery.triple_readClip (fun _ => hC) (triple_ask (kept_sent before) (by decide))
  · refine (triple_readStats (A := fun r b => if r = some before then Settled b else True)
      (kept_sent before) (fun r => ?_) (fun b _ => ?_) fun b h => ?_).weaken (fun _ _ h => h)
      fun r s _ h => ?_
    · split
      · exact kept_settled
      · exact kept_any
    · rw [if_neg nofun]
      trivial
    · split
      next hr =>
        obtain ⟨fs, h⟩ := h
        exact fun hlocks hdecl hstrayed hmoved =>
          h.took (Option.some.inj hr) hlocks hdecl hstrayed hmoved
      next => trivial
    · have h : if r = some before then Settled s.env else True := h
      by_cases hr : r = some before
      · rw [if_pos hr] at h ⊢
        exact h
      · rw [if_neg hr]
        trivial
  · refine (triple_conclude cause seen before gen ring).weaken (fun _ _ h => h) fun outcome s _ h => ?_
    cases outcome <;> first | exact h | trivial

theorem triple_step (cause : Cause) :
    Triple Moves Inv Any (step ask resend cause) fun outcome =>
      About fun b => if outcome = .wait then True else Settled b := by
  refine Recovery.triple_step (U := Any) (A := fun _ => Any)
    (B := fun _ before => About (Counts before)) (C := fun _ before => About (Sent before))
    stable_any (fun _ => stable_any) ((triple_cloneUp kept_any).weaken (fun _ _ h => h) (by simp))
    ?_ (fun _ buttons => ?_) (fun _ => ?_) (fun _ before => ?_) (triple_settle cause)
    fun _ _ _ => trivial
  · exact triple_keeps kept_any (fun _ => rfl) fun _ hI => hI
  · refine triple_keeps kept_any (fun _ => rfl) fun s hI => ?_
    exact .call (fun _ _ => .ok ()) (.caps buttons) hI
  · refine (triple_readStats (A := fun r b => r.elim True fun before => Counts before b) kept_any
      (fun r => ?_) (fun _ _ => trivial) fun b _ => ?_).weaken (fun _ _ h => h) fun r _ _ h => ?_
    · cases r with
      | none => exact kept_any
      | some before => exact kept_counts before
    · exact (UInt16.add_zero _).symm
    · cases r <;> exact h
  · exact (triple_resend before).weaken (fun _ _ h => h) fun sent _ _ h => by
      cases sent <;> exact h

/-- A recovery that is done has taken: with every field held declared, every `LOCK` and `TRANSFORM`
of its re-send landed and fewer than 65536 releases counted between its two readings, the tables as
last read hold everything the host held when the re-send began. -/
theorem done_took (cause : Cause) {s₀ s : State} (hstart : Reachable s₀.desired)
    {ls : List (Other ⊕ Link.Input)}
    (hr : Steps.run next (s₀, step ask resend cause) ls = some (s, .done .done))
    (hlocks : Locks.DeclaredLocks (min s.env.caps.nButtons maxButtons).toNat s.env.sent)
    (hdecl : Declared s.env.caps s.env.sent) (hstrayed : s.env.strayed = false)
    (hmoved : s.env.moved < 65536) :
    Locks.HoldsLocks s.env.sent s.env.read.locks ∧
      HoldsTransforms s.env.sent s.env.read.transforms := by
  have hsafe : Safe Moves Inv (fun outcome : Outcome => About fun b =>
      if outcome = .wait then True else Settled b) (.done .done) s :=
    run_safe nofun (fun _ l _ h => ⟨l, h⟩) (triple_step cause s₀ hstart trivial) hr
  obtain ⟨-, hsettled⟩ := hsafe s .refl
  exact hsettled hlocks hdecl hstrayed hmoved

/-- An axis scaled to half. -/
def held : DesiredState :=
  ((DesiredState.default.noteDeclaredButtons 5).applyLock (lockClsAxis, 0, lockDirBoth) 50).1

def mouse : Mock.Caps where
  hasX := true
  hasY := true
  hasWheel := true
  pan := false
  nButtons := 5
  nKeys := 0
  hasConsumer := false

/-- The host holds the lock, and the box has it. -/
def start : State where
  desired := held
  env :=
    { session :=
        { held := Tables.empty.apply mouse true (.lock, lockPayload lockClsAxis 0 lockDirBoth 50)
          dirty := true }
      caps := mouse
      nHid := 1
      vid := 0x046D
      pid := 0xC077 }

theorem reachable_held : Reachable held :=
  .call (fun _ _ => .ok ()) (.scale (.target (.axis .x)) .both 50)
    (.call (fun _ _ => .ok ()) (.caps 5) .default)

theorem declared_held : Locks.DeclaredLocks 5 held := by
  have hn : (5 : UInt8) ≤ maxButtons := by decide
  have hwf : Locks.HostWf 5 held :=
    (Locks.HostWf.default 5 hn).applyLock (by decide) (.axis 0 .both 50)
  exact hwf.declaredLocks (by decide)

abbrev Run := List (Other ⊕ Link.Input)

def steps (n : Nat) : Run := List.replicate n (.inr .go)

/-- The link drops before a recovery that is left alone. -/
def dropped : Run :=
  [[.inl (.box .linkLost)], steps 5, [.inr (.choice true)], steps 2, [.inr (.reply none)],
    steps 4].flatten

/-- The device detaches, its grace ends before the one frame of the re-send, and it is back after
it: the teardown counts nothing. -/
def swept : Run :=
  [[.inl (.box (.detach false))], steps 5,
    [.inl (.box (.graceOver false)), .inr (.choice true), .inl (.box .attach)], steps 2,
    [.inr (.reply none)], steps 4].flatten

theorem dropped_took : ∃ s, Steps.run next (start, step ask resend .released) dropped =
      some (s, .done .done) ∧ s.env.strayed = false ∧
    Locks.HoldsLocks s.env.sent s.env.read.locks ∧
      HoldsTransforms s.env.sent s.env.read.transforms := by
  obtain ⟨s, hrun, hcaps, hsent, hstrayed, hmoved⟩ : ∃ s,
      Steps.run next (start, step ask resend .released) dropped = some (s, .done .done) ∧
        s.env.caps = mouse ∧ s.env.sent = held ∧ s.env.strayed = false ∧ s.env.moved = 0 :=
    ⟨_, rfl, rfl, rfl, by decide +kernel, rfl⟩
  refine ⟨s, hrun, hstrayed, done_took .released reachable_held hrun ?_ ?_ hstrayed ?_⟩
  · rw [hcaps, hsent]
    exact declared_held
  · rw [hcaps, hsent]
    exact fun _ hx => absurd hx List.not_mem_nil
  · rw [hmoved]
    decide

/-- Done, with the lock gone. -/
theorem swept_untaken : ∃ s, Steps.run next (start, step ask resend .released) swept =
      some (s, .done .done) ∧
    Reachable start.desired ∧
    Locks.DeclaredLocks (min s.env.caps.nButtons maxButtons).toNat s.env.sent ∧
    Declared s.env.caps s.env.sent ∧ s.env.moved = 0 ∧
    ¬Locks.HoldsLocks s.env.sent s.env.read.locks := by
  obtain ⟨s, hrun, hcaps, hsent, hmoved, hread⟩ : ∃ s,
      Steps.run next (start, step ask resend .released) swept = some (s, .done .done) ∧
        s.env.caps = mouse ∧ s.env.sent = held ∧ s.env.moved = 0 ∧
          s.env.read.locks = .default :=
    ⟨_, rfl, rfl, rfl, rfl, rfl⟩
  refine ⟨s, hrun, reachable_held, ?_, ?_, hmoved, fun h => ?_⟩
  · rw [hcaps, hsent]
    exact declared_held
  · rw [hcaps, hsent]
    exact fun _ hx => absurd hx List.not_mem_nil
  · rw [hsent, hread] at h
    have hrow : Locks.hostRows held (Locks.Field.axis 0).address 0 = 50 := by decide +kernel
    have hheld := h (.axis 0) 0 (by rw [hrow]; decide)
    rw [hrow] at hheld
    exact absurd hheld (by decide)

end Medius.Recovery.Taken
