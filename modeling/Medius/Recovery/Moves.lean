import Medius.Recovery.Ring
import Medius.Recovery.Rules

/-! A clip's loss as the keepalive comes to know of it, and what the other threads change of that. -/

namespace Medius.Recovery.Clip

open Link Keepalive Thread Medius.Types

theorem spared_of_fair {log : List Event} (h : Fair log) :
    ¬(glance log = .passed ∧ (phase log).Open) := by
  cases log with
  | nil => exact fun hn => nomatch hn.1
  | cons e log => exact h.1.1

structure View where
  holds : Bool
  ring : Bool
  lost : Bool
  gen : Nat
  session : Option UInt16
  hellos : Nat
  phase : Phase
  glance : Glance
  fair : Prop

def view (s : State) : View where
  holds := ringHolds s.env.session.held
  ring := s.desired.clip.ring
  lost := s.desired.clip.lost
  gen := s.desired.clip.ringGen
  session := s.watch.session
  hellos := s.watch.hellos
  phase := Clip.phase s.log
  glance := Clip.glance s.log
  fair := Fair s.log

namespace View

def advance (v : View) (e : Event) : View :=
  { v with
    phase := v.phase.advance e
    glance := v.glance.advance e
    fair := Spared v.phase v.glance e ∧ v.fair }

/-- What the others leave of a tick's ring reading: its place, unless a hello has come since, and
the pass of one that has read the counter. -/
structure Beside (v v' : View) : Prop where
  session : v'.session = v.session
  hellos : v.hellos ≤ v'.hellos
  glance : v'.hellos = v.hellos → v'.glance = v.glance
  passed : v.glance = .passed → v'.glance = .passed
  fair : v'.fair → v.fair

/-- What the others do to the ring: something is loaded, a ring the host knew of is emptied, or the
ring empties unseen at most. -/
inductive Ringed (v v' : View) : Prop
  | loaded : v'.phase = .loaded → Ringed v v'
  | emptied : v'.phase = .emptied → v'.holds = false → v.ring = true → v'.ring = v.ring →
      Ringed v v'
  | kept : v'.phase = v.phase → (v.holds = false → v'.holds = false) → v'.ring = v.ring →
      v'.lost = v.lost → v'.gen = v.gen → Ringed v v'

structure Moved (v v' : View) : Prop where
  beside : Beside v v'
  ringed : Ringed v v'

/-- The host still takes an emptied ring for one that holds the clip until the loss is reported. -/
structure Sound (v : View) : Prop where
  empty : v.phase ≠ .loaded → v.holds = false
  unreported : v.fair → v.phase.Open → v.ring = true ∨ v.lost = true
  reported : v.fair → v.phase = .noted ∨ v.phase = .recovered → v.lost = true

theorem Sound.of_loaded {v : View} (hp : v.phase = .loaded) : v.Sound := by
  refine ⟨fun hn => absurd hp hn, fun _ ho => ?_, fun _ hn => ?_⟩
  · rw [hp] at ho
    exact absurd ho (by decide)
  · rw [hp] at hn
    exact absurd hn (by decide)

theorem Sound.moved {v v' : View} (h : v.Sound) (hm : Moved v v') : v'.Sound := by
  cases hm.ringed with
  | loaded hp => exact .of_loaded hp
  | emptied hp hh hr hr' =>
    refine ⟨fun _ => hh, fun _ _ => .inl (hr'.trans hr), fun _ hn => ?_⟩
    rw [hp] at hn
    exact absurd hn (by decide)
  | kept hp hh hr hl hg =>
    obtain ⟨he, hu, hn⟩ := h
    rw [← hp] at he hu hn
    rw [← hr, ← hl] at hu
    rw [← hl] at hn
    exact ⟨fun h => hh (he h), fun hf => hu (hm.beside.fair hf),
      fun hf => hn (hm.beside.fair hf)⟩

theorem Beside.of_eq {v v' : View} (hs : v'.session = v.session) (hh : v'.hellos = v.hellos)
    (hg : v'.glance = v.glance) (hf : v'.fair → v.fair) : Beside v v' :=
  ⟨hs, hh.ge, fun _ => hg, fun hp => hg.trans hp, hf⟩

/-- An event that is no step of a tick's ring reading. -/
theorem Beside.advance (v : View) {e : Event} (hg : v.glance.advance e = v.glance) :
    Beside v (v.advance e) := .of_eq rfl rfl hg fun h => h.2

end View

open View

abbrev Inv (s : State) : Prop := (view s).Sound

theorem glance_loaded (g : Glance) : g.advance .loaded = g := by cases g <;> rfl

theorem glance_emptied (g : Glance) : g.advance .emptied = g := by cases g <;> rfl

theorem perform_clip {d : DesiredState} {op : DesiredOp} (hn : notesRing op = false)
    (hr : reloads op = false) :
    (d.perform op).clip.ring = d.clip.ring ∧ (d.perform op).clip.lost = d.clip.lost ∧
      (d.perform op).clip.ringGen = d.clip.ringGen := by
  cases op with
  | clipLoaded | clear | clipAdopt => cases hr
  | clipNoteRing => cases hn
  | _ => simp [DesiredState.perform, DesiredState.restoreLock, DesiredState.noteDeclaredButtons,
      DesiredState.clearRewrites, DesiredState.clearTransforms, DesiredState.setCatch,
      DesiredState.clipSetting, DesiredState.clipBind, DesiredState.clipUnbind,
      DesiredState.clipPacketBind, DesiredState.clipPacketUnbind,
      DesiredState.clipPacketDropConsuming, DesiredState.clipTriggersClear]

theorem moved_moveSession {s : State} {session : Mock.Session ClipStatus} (counted : Bool)
    (h : session.held = s.env.session.held ∨ session.held = .default) :
    Moved (view s) (view (moveSession s session counted)) := by
  have hh : ringHolds s.env.session.held = false → ringHolds session.held = false := fun he => by
    obtain hh | hh := h
    · rw [hh, he]
    · rw [hh]
      rfl
  unfold moveSession
  dsimp only
  split
  next he =>
    simp only [Bool.and_eq_true, Bool.not_eq_true'] at he
    exact ⟨.of_eq rfl rfl (glance_emptied _) fun h => h.2, .emptied rfl he.1.1.2 he.1.2 rfl⟩
  next => exact ⟨.of_eq rfl rfl rfl id, .kept rfl hh rfl rfl rfl⟩

theorem moved_loadRing (s : State) (held : ClipStatus) :
    Moved (view s) (view (loadRing s held)) :=
  ⟨.of_eq rfl rfl (glance_loaded _) fun h => h.2, .loaded rfl⟩

/-- An event that has to do with neither a loss nor a ring reading. -/
def Aside (e : Event) : Prop :=
  ∀ (p : Phase) (g : Glance), p.advance e = p ∧ g.advance e = g ∧ unread p e = false

theorem aside_sampled : Aside .sampled := fun p g => by cases p <;> cases g <;> exact ⟨rfl, rfl, rfl⟩

theorem aside_resent : Aside .resent := fun p g => by cases p <;> cases g <;> exact ⟨rfl, rfl, rfl⟩

theorem aside_answered {reply : Reply} (h : reply.ring = none) (recorded : Option UInt16) :
    Aside (.answered false reply recorded) := fun p g => by
  cases reply with
  | clip status => cases h
  | _ => cases p <;> cases g <;> exact ⟨rfl, rfl, rfl⟩

theorem view_aside {e : Event} (h : Aside e) (s : State) :
    view { s with log := e :: s.log } = view s := by
  obtain ⟨hp, hg, hu⟩ := h (phase s.log) (glance s.log)
  have hf : Fair (e :: s.log) = Fair s.log := by
    refine propext ⟨fun h => h.2, fun h => ⟨⟨?_, hu⟩, h⟩⟩
    rw [hp, hg]
    exact spared_of_fair h
  simp only [view, hf]
  congr 1

theorem moved_eq {v v' : View} (h : v' = v) : Moved v v' := by
  rw [h]
  exact ⟨.of_eq rfl rfl rfl id, .kept rfl id rfl rfl rfl⟩

/-- A hello that counts puts an end to a reading that has not read the counter. -/
theorem moved_hello {s : State} {watch : Watch} (hs : watch.session = s.watch.session)
    (hh : s.watch.hellos < watch.hellos) :
    Moved (view s) (view { s with watch, log := .hello :: s.log }) := by
  refine ⟨⟨hs, hh.le, fun he => absurd he hh.ne', fun hp => ?_, fun h => h.2⟩, .kept ?_ id rfl rfl rfl⟩
  · change (glance s.log).advance .hello = .passed
    rw [show glance s.log = .passed from hp]
    rfl
  · change (phase s.log).advance .hello = phase s.log
    cases phase s.log <;> rfl

theorem noteHello_hellos (w : Watch) (proto : Option UInt8) (wasRefused : Bool) :
    (w.noteHello proto wasRefused).session = w.session ∧
      ((w.noteHello proto wasRefused).hellos = w.hellos ∨
        w.hellos < (w.noteHello proto wasRefused).hellos) := by
  unfold Watch.noteHello
  dsimp only
  split_ifs <;> simp

theorem moved_of_moves {s s' : State} (h : Moves s s') : Moved (view s) (view s') := by
  obtain ⟨l, hl⟩ := h
  cases l with
  | box e =>
    cases hl
    refine moved_moveSession _ ?_
    cases s.env.session.advanced release e with
    | kept h => exact .inl h
    | released h => exact .inr h
  | restart =>
    cases hl
    exact moved_moveSession true (.inr rfl)
  | greet =>
    simp only [others] at hl
    split at hl
    · cases hl
    · cases hl
      exact moved_eq rfl
  | noteHello wasRefused =>
    simp only [others] at hl
    split at hl
    · cases hl
    · cases hl
      obtain ⟨hs, he | he⟩ := noteHello_hellos s.watch (some Protocol.protoVer) wasRefused
      · refine moved_eq ?_
        simp only [Shared.noteHello, view, hs, he]
        rfl
      · simp only [Shared.noteHello, if_neg (Nat.ne_of_gt he)]
        exact moved_hello (s := s) hs he
  | noteReply =>
    cases hl
    exact moved_eq rfl
  | begin =>
    cases hl
    exact moved_hello (s := s) rfl (Nat.lt_succ_self _)
  | append | clearRing =>
    cases hl
    exact moved_loadRing s _
  | reset | command =>
    cases hl
    exact moved_eq rfl
  | play status =>
    simp only [others] at hl
    split at hl
    next hh =>
      cases hl
      exact ⟨.of_eq rfl rfl rfl id,
        .kept rfl (fun h => absurd (hh.symm.trans h) nofun) rfl rfl rfl⟩
    · cases hl
  | perform op =>
    simp only [others] at hl
    split at hl
    · cases hl
    next hn =>
      obtain rfl := Option.some.inj hl
      cases hr : reloads op with
      | true => exact ⟨.of_eq rfl rfl (glance_loaded _) fun h => h.2, .loaded rfl⟩
      | false =>
        obtain ⟨hring, hlost, hgen⟩ := perform_clip (d := s.desired) (Bool.eq_false_iff.mpr hn) hr
        exact ⟨.of_eq rfl rfl rfl id, .kept rfl id hring hlost hgen⟩

/-- A statement that whatever the others do keeps. -/
def Kept (p : View → Prop) : Prop := ∀ v v', v.Sound → Moved v v' → p v → p v'

abbrev About (p : View → Prop) (s : State) : Prop := p (view s)

theorem stable_about {p : View → Prop} (hp : Kept p) : Stable Moves Inv (About p) :=
  fun _ _ hI hP hm => ⟨hI.moved (moved_of_moves hm), hp _ _ hI (moved_of_moves hm) hP⟩

theorem triple_about {β : Type} {f : State → State × β} {p : View → Prop} {q : β → View → Prop}
    (hp : Kept p) (hq : ∀ b, Kept (q b))
    (h : ∀ s, Inv s → p (view s) → Inv (f s).1 ∧ q (f s).2 (view (f s).1)) :
    Triple Moves Inv (About p) (access f) fun b => About (q b) :=
  triple_access (stable_about hp) (fun b => stable_about (hq b)) h

theorem kept_any : Kept fun _ => True := fun _ _ _ _ _ => trivial

abbrev Any : State → Prop := About fun _ => True

theorem stable_any : Stable Moves Inv Any := stable_about kept_any

theorem triple_keeps {β : Type} {f : State → State × β} {p : View → Prop} (hp : Kept p)
    (hf : ∀ s, view (f s).1 = view s) :
    Triple Moves Inv (About p) (access f) fun _ => About p := by
  refine triple_about hp (fun _ => hp) fun s hI h => ?_
  rw [Inv, hf]
  exact ⟨hI, h⟩

theorem triple_aside {β : Type} {e : Event} {f : State → β} {p : View → Prop} (h : Aside e)
    (hp : Kept p) :
    Triple Moves Inv (About p) (access fun s => ({ s with log := e :: s.log }, f s)) fun _ =>
      About p :=
  triple_keeps hp (view_aside h)

/-- A query, told apart by whether it was answered. -/
theorem triple_ask {p : View → Prop} {r : Option Reply → View → Prop} {tick : Bool} {q : Query}
    (hp : Kept p) (hr : ∀ reply, Kept (r reply)) (hnone : ∀ v, p v → r none v)
    (h : ∀ s, Inv s → p (view s) →
      let v := (view s).advance (.answered tick (s.env.reply q) s.watch.session)
      v.Sound ∧ r (some (s.env.reply q)) v) :
    Triple Moves Inv (About p) (ask tick q) fun reply => About (r reply) := by
  refine Triple.atomic (stable_about hp) (fun reply => stable_about (hr reply))
    fun s i s' reply hI hP hf => ?_
  cases i with
  | go =>
    cases hf
    exact h s hI hP
  | reply reply =>
    cases reply with
    | none =>
      cases hf
      exact ⟨hI, hnone _ hP⟩
    | some => cases hf
  | choice => cases hf

/-- A recovery's queries of the clone and of the counter. -/
theorem triple_ask_aside {p : View → Prop} {q : Query} (hq : q ≠ .clip) (hp : Kept p) :
    Triple Moves Inv (About p) (ask false q) fun _ => About p := by
  refine triple_ask (r := fun _ => p) hp (fun _ => hp) (fun _ h => h) fun s hI h => ?_
  have hring : (s.env.reply q).ring = none := by
    cases q with
    | clip => exact absurd rfl hq
    | caps | deviceInfo =>
      simp only [Box.reply]
      split <;> rfl
    | stats => rfl
  have hview := view_aside (aside_answered hring s.watch.session) s
  change (view { s with log := _ :: s.log }).Sound ∧ p (view { s with log := _ :: s.log })
  rw [hview]
  exact ⟨hI, h⟩

end Medius.Recovery.Clip
