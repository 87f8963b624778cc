import Medius.Lib.Debt
import Medius.Link.Operation
import Medius.Recovery.Rules

/-! No boot is lost: a hello is answered by a re-send before the watch comes to rest. -/

namespace Medius.Recovery.Boots

open Link Keepalive Thread Medius.Types

def kind : Event → Option Debt.Kind
  | .hello => some .request
  | .began => some .begins
  | .resent => some .completes
  | _ => none

/-- A query comes back with anything, or with nothing. -/
def ask (_ : Query) : Program Unit (Option Reply) := .atomic fun s i =>
  match i with
  | .reply r => some (s, r)
  | _ => none

def beginResend : Program Unit Unit := access fun s => ({ s with log := .began :: s.log }, ())

/-- The writes go through, or one of them fails. -/
def endResend : Program Unit Bool := .atomic fun s i =>
  match i with
  | .choice true => some ({ s with log := .resent :: s.log }, true)
  | .choice false => some (s, false)
  | _ => none

def resend : Program Unit Bool := do
  beginResend
  endResend

def keep : Program Unit Unit := return ()

def loop : Program Unit Unit := turn ask ask resend keep

/-- What the reader, a reconnect and the caller's threads do meanwhile. -/
inductive Other
  | noteReply
  | noteHello (proto : Option UInt8) (wasRefused : Bool)
  | begin
  | perform (op : DesiredOp)

def others (s : Shared Unit) : Other → Option (Shared Unit)
  | .noteReply => some s.noteReply
  | .noteHello proto wasRefused => some (s.noteHello proto wasRefused)
  | .begin => some s.begin
  | .perform op => some { s with desired := s.desired.perform op }

def Moves (s s' : Shared Unit) : Prop := ∃ l, others s l = some s'

def next := Thread.next others fun _ => some loop

def debt (s : Shared Unit) : Debt.State := Debt.state kind s.log

/-- While no recovery runs, no hello waits for its answer. -/
def Rested (s : Shared Unit) : Prop := s.watch.recovering = false → (debt s).waiting = false

/-- What another thread does, as far as the watch and the history go: nothing, or a hello. -/
theorem moves_cases {s s' : Shared Unit} (h : Moves s s') :
    (s'.watch.recovering = s.watch.recovering ∧ s'.watch.hellos = s.watch.hellos ∧
        s'.log = s.log) ∨
      (s'.watch.recovering = true ∧ s'.watch.hellos = s.watch.hellos + 1 ∧
        s'.log = .hello :: s.log) := by
  obtain ⟨l, hl⟩ := h
  cases l with
  | noteReply | perform =>
    cases hl
    exact .inl ⟨rfl, rfl, rfl⟩
  | begin =>
    cases hl
    exact .inr ⟨rfl, rfl, rfl⟩
  | noteHello proto wasRefused =>
    cases hl
    simp only [Shared.noteHello, Watch.noteHello]
    split
    · simp
    · split
      next hr => exact .inr ⟨hr, rfl, by simp⟩
      · split
        · exact .inl ⟨rfl, rfl, by simp⟩
        · exact .inr ⟨rfl, rfl, by simp⟩

/-- A statement about the hellos and the history that a further hello keeps. -/
abbrev About (p : Nat → Debt.State → Prop) (s : Shared Unit) : Prop := p s.watch.hellos (debt s)

theorem stable_about {p : Nat → Debt.State → Prop}
    (hp : ∀ n d, p n d → p (n + 1) (d.advance (some .request))) :
    Stable Moves Rested (About p) := by
  intro s s' hI hP hm
  obtain ⟨hrec, hn, hlog⟩ | ⟨hrec, hn, hlog⟩ := moves_cases hm
  · have hd : debt s' = debt s := by rw [debt, debt, hlog]
    refine ⟨fun hr => ?_, ?_⟩
    · rw [hd]
      exact hI (hrec ▸ hr)
    · rw [About, hn, hd]
      exact hP
  · have hd : debt s' = (debt s).advance (some .request) := by rw [debt, debt, hlog]; rfl
    refine ⟨fun hr => ?_, ?_⟩
    · rw [hrec] at hr
      cases hr
    · rw [About, hn, hd]
      exact hp _ _ hP

theorem triple_keeps {β : Type} {f : Shared Unit → Shared Unit × β} {p : Nat → Debt.State → Prop}
    (hP : Stable Moves Rested (About p))
    (hrec : ∀ s, (f s).1.watch.recovering = false → s.watch.recovering = false)
    (hn : ∀ s, (f s).1.watch.hellos = s.watch.hellos) (hd : ∀ s, debt (f s).1 = debt s) :
    Triple Moves Rested (About p) (access f) fun _ => About p := by
  refine triple_access hP (fun _ => hP) fun s hI hPs => ⟨fun hr => ?_, ?_⟩
  · rw [hd]
    exact hI (hrec s hr)
  · rw [About, hn, hd]
    exact hPs

theorem triple_ask {p : Nat → Debt.State → Prop} (hP : Stable Moves Rested (About p)) (q : Query) :
    Triple Moves Rested (About p) (ask q) fun _ => About p := by
  refine Triple.answer hP fun s i s' r hf => ?_
  cases i with
  | reply r =>
    cases hf
    rfl
  | _ => cases hf

abbrev Any : Shared Unit → Prop := About fun _ _ => True

abbrev Sampled (seen : Nat) : Shared Unit → Prop := About fun n _ => seen ≤ n

/-- No hello has come since the re-send began, unless the sample shows it. -/
abbrev Begun (seen : Nat) : Shared Unit → Prop :=
  About fun n d => seen ≤ n ∧ (n = seen → d.since = false)

/-- The re-send answered every hello, unless the sample shows one it missed. -/
abbrev Sent (seen : Nat) : Shared Unit → Prop :=
  About fun n d => seen ≤ n ∧ (n = seen → d.waiting = false)

theorem stable_any : Stable Moves Rested (Any) :=
  stable_about fun _ _ _ => trivial

theorem stable_sampled (seen : Nat) : Stable Moves Rested (Sampled seen) :=
  stable_about fun _ _ h => Nat.le_succ_of_le h

theorem stable_begun (seen : Nat) :
    Stable Moves Rested (Begun seen) :=
  stable_about fun _ _ h => ⟨Nat.le_succ_of_le h.1, fun hn => by omega⟩

theorem stable_resent (seen : Nat) :
    Stable Moves Rested (Sent seen) :=
  stable_about fun _ _ h => ⟨Nat.le_succ_of_le h.1, fun hn => by omega⟩

theorem triple_resend (seen : Nat) :
    Triple Moves Rested (Sampled seen) resend fun sent =>
      if sent then Sent seen
      else Any := by
  have hbegin : Triple Moves Rested (Sampled seen) beginResend fun _ =>
      Begun seen :=
    triple_access (stable_sampled seen) (fun _ => stable_begun seen) fun s hI hs =>
      ⟨fun hr => hI hr, hs, fun _ => rfl⟩
  refine hbegin.bind fun _ => Triple.atomic (stable_begun seen) (fun sent => ?_) ?_
  · cases sent with
    | true => exact stable_resent seen
    | false => exact stable_any
  · intro s i s' sent hI hs hf
    cases i with
    | choice b =>
      cases b with
      | true =>
        cases hf
        exact ⟨fun hr => Debt.since_of_not_waiting (hI hr), hs⟩
      | false =>
        cases hf
        exact ⟨hI, trivial⟩
    | _ => cases hf

theorem triple_sample :
    Triple Moves Rested (Any) sampleHellos fun seen =>
      Sampled seen :=
  triple_access stable_any stable_sampled fun _ hI _ => ⟨fun hr => hI hr, Nat.le_refl _⟩

theorem triple_finish (seen : Nat) :
    Triple Moves Rested (Sent seen)
      (finish seen) fun _ => Any := by
  refine triple_access (stable_resent seen) (fun _ => stable_any) fun s hI hs => ⟨?_, trivial⟩
  by_cases hn : s.watch.hellos = seen
  · exact fun _ => hs.2 hn
  · intro hr
    have hkept : (s.watch.finish seen).1 = s.watch := by rw [Watch.finish, if_pos hn]
    exact hI (hkept ▸ hr)

theorem triple_conclude (cause : Cause) (seen : Nat) (before : UInt16) (gen : Nat)
    (ring : Option ClipStatus) :
    Triple Moves Rested (Sent seen)
      (conclude cause seen before gen ring) fun _ => Any := by
  have hS := stable_resent seen
  have hstop : Triple Moves Rested
      (Sent seen) (pure () : Program Unit Unit)
      fun _ => Sent seen :=
    Triple.pure _ hS fun _ _ h => h
  refine Recovery.triple_conclude (fun _ => stable_any) (K := Sent seen)
    (M := Sent seen) ?_ ?_ ?_ (triple_finish seen)
  · cases ring with
    | none => exact hstop
    | some status => exact triple_keeps hS (fun _ h => h) (fun _ => rfl) fun _ => rfl
  · exact triple_keeps hS (fun _ h => h) (fun _ => rfl) fun _ => rfl
  · have htake : Triple Moves Rested
        (Sent seen) (takeBooted cause) fun _ =>
        Sent seen :=
      triple_keeps hS (fun _ h => h) (fun _ => rfl) fun _ => rfl
    refine htake.bind fun booted => Triple.ite (fun _ => ?_) fun _ => hstop
    exact triple_keeps hS (fun _ h => h) (fun _ => rfl) fun _ => rfl

theorem triple_cloneUp {p : Nat → Debt.State → Prop} (hP : Stable Moves Rested (About p)) :
    Triple Moves Rested (About p) (cloneUp ask) fun _ => About p :=
  triple_cloneUp_keeps hP (triple_ask hP .caps) (triple_ask hP .deviceInfo)

theorem triple_settle (cause : Cause) (seen : Nat) (before : UInt16) :
    Triple Moves Rested (Sent seen) (settle ask cause seen before) fun _ => Any := by
  have hS := stable_resent seen
  refine Recovery.triple_settle (F := fun _ => Sent seen) (G := fun _ _ => Sent seen)
    (H := fun _ _ => Sent seen) stable_any (fun _ _ => hS) (fun _ _ => hS) (triple_cloneUp hS)
    (triple_read hS) (fun _ => triple_readClip (fun _ => hS) (triple_ask hS _))
    (fun _ _ _ _ _ => trivial) (fun _ _ => ?_) (triple_conclude cause seen before)
    fun _ _ _ => trivial
  refine triple_readStats (fun r => ?_) ((triple_ask hS _).weaken (fun _ _ h => h) fun r s _ h => ?_)
  · split
    · exact hS
    · exact stable_any
  · split
    · exact h
    · trivial

theorem triple_step (cause : Cause) :
    Triple Moves Rested Any (step ask resend cause) fun _ => Any := by
  refine Recovery.triple_step stable_any stable_sampled
    ((triple_cloneUp stable_any).weaken (fun _ _ h => h) (by simp)) triple_sample
    (fun seen buttons => ?_) (fun seen => ?_) (B := fun seen _ => Sampled seen)
    (C := fun seen _ => Sent seen) (fun seen _ => triple_resend seen) (triple_settle cause)
    fun _ _ _ => trivial
  · exact triple_keeps (stable_sampled seen) (fun _ h => h) (fun _ => rfl) fun _ => rfl
  · refine triple_readStats (fun r => ?_)
      ((triple_ask (stable_sampled seen) _).weaken (fun _ _ h => h) fun r s _ h => ?_)
    · cases r with
      | none => exact stable_any
      | some => exact stable_sampled seen
    · cases r.bind Reply.session with
      | none => trivial
      | some => exact h

theorem triple_loop : Triple Moves Rested Any loop fun _ => Any := by
  have hkeeps : ∀ {β : Type} {f : Shared Unit → Shared Unit × β},
      (∀ s, (f s).1.watch.recovering = false → s.watch.recovering = false) →
      (∀ s, (f s).1.watch.hellos = s.watch.hellos) → (∀ s, debt (f s).1 = debt s) →
      Triple Moves Rested Any (access f) fun _ => Any := triple_keeps stable_any
  have hstop : Triple Moves Rested Any (pure () : Program Unit Unit) fun _ => Any :=
    Triple.pure _ stable_any fun _ _ h => h
  have hpend : ∀ cause, Triple Moves Rested Any (setPending cause) fun _ => Any := fun cause =>
    hkeeps (fun _ h => h) (fun _ => rfl) fun _ => rfl
  refine Recovery.triple_turn (A := Any) (N := Any) (M := fun _ => Any) stable_any stable_any
    (fun _ _ h => h) (fun _ => stable_any) (fun _ _ _ h => h) ?_ ?_ (fun cause => ?_) ?_
    fun otherwise hother => ?_
  · have htake : Triple Moves Rested Any takeOwed fun _ => Any :=
      hkeeps (fun s h => (Bool.or_eq_false_iff.mp h).1) (fun _ => rfl) fun _ => rfl
    exact htake.bind fun owed => Triple.ite (fun _ => hpend _) fun _ => hstop
  · exact (triple_read stable_any).weaken (fun _ _ h => h) fun p _ _ h => by cases p <;> exact h
  · exact triple_recover (triple_step cause)
      (hkeeps (fun _ h => h) (fun _ => rfl) fun _ => rfl) (hpend _) (fun _ _ h => h) stable_any
  · refine triple_keepHeld stable_any (triple_readRing_keeps stable_any ?_ (triple_ask stable_any)
      fun _ _ => ?_) hstop
    · exact hkeeps (fun _ h => h) (fun _ => rfl) fun _ => rfl
    · exact hkeeps (fun _ h => h) (fun _ => rfl) fun _ => rfl
  · refine triple_watchSession (S := Any) (T := Any) ?_ ?_ (hpend _) hother
    · refine (triple_readStats (fun _ => stable_any) (triple_ask stable_any _)).bind fun r => ?_
      cases r with
      | none => exact Triple.pure _ stable_any fun _ _ h => h
      | some session =>
        exact (hkeeps (fun _ h => h) (fun _ => rfl) fun _ => rfl).weaken (fun _ _ h => h)
          fun b _ _ h => by cases b <;> exact h
    · exact hkeeps (fun _ h => absurd h nofun) (fun _ => rfl) fun _ => rfl

/-- Before the watch comes to rest with nothing owed and nothing pending, a complete re-send has
followed every hello it counted. -/
theorem no_boot_lost {ls : List (Other ⊕ Input)} {s : Shared Unit} {t : Program Unit Unit}
    (hr : Steps.run next ({ env := () }, loop) ls = some (s, t))
    (hrec : s.watch.recovering = false) (_ : s.watch.owed = false) (_ : s.pending = none) :
    Debt.Answered kind s.log :=
  Debt.answered_of_waiting
    (loop_invariant triple_loop (fun _ l _ h => ⟨l, h⟩) (fun _ => rfl) trivial hr hrec)

/-- The chip boots and the recovery re-sends everything once the clone is up. -/
def bootRecovered : List (Other ⊕ Input) :=
  [[.inl .noteReply, .inl (.noteHello (some Protocol.protoVer) false)],
    [.go, .go, .go, .choice true, .reply (some (.caps 1 5)), .go, .go,
      .reply (some (.stats 0)), .go, .choice true, .reply (some (.caps 1 5)), .go, .reply none,
      .reply (some (.stats 0)), .go, .go, .go, .go, .go].map .inr].flatten

theorem bootRecovered_answered : ∃ s t,
    Steps.run next ({ env := () }, loop) bootRecovered = some (s, t) ∧ s.watch.hellos = 1 ∧
      s.pending = none ∧ Debt.Answered kind s.log :=
  ⟨_, _, rfl, rfl, rfl, no_boot_lost (s := _) (t := _) (show Steps.run next _ bootRecovered = _ from rfl) rfl rfl rfl⟩

end Medius.Recovery.Boots
