import Medius.Machine.Queries
import Medius.Mock.Session

/-! The whole box as a session: what it does unprompted are the session's own events, so that no
release of what the host set passes without the counter showing it. -/

namespace Medius.Machine

open Protocol Mock Medius.Types

/-- What the host's commands put into the box for as long as a session lasts. -/
structure Held where
  locks : LockTable
  rules : List MockRewrite
  transforms : TransformTable
  triggers : List MockPacketTrigger

def Held.empty : Held := ⟨.default, [], .default, []⟩

def held (b : Box) : Held :=
  ⟨b.table, b.rewrites.rewrites, b.transforms, b.packetTriggers.map bare⟩

abbrev releases (_ : Held) : Held := .empty

def session (b : Box) : Session Held where
  held := held b
  counter := b.stats.session
  dirty := b.sessionDirty
  cloneUp := b.cloneUp
  cloneDue := b.cloneUpAt.isSome
  grace := b.graceUntil.isSome
  deviceBack := b.deviceBack
  representHeld := b.representHeld
  representDue := b.representAt.isSome

/-- One session comes from another by events alone. -/
abbrev Passes : Session Held → Session Held → Prop :=
  Relation.ReflTransGen fun s s' => ∃ e, s' = s.advance releases e

section Events

variable (b : Box) (now : Nat)

/-- Whether the clone would be presented with other patches than it was. -/
def changed : Bool := b.patchesToServe ≠ b.patchPresented

theorem session_countRelease : session b.countRelease = (session b).countRelease := by
  unfold Box.countRelease Session.countRelease
  change _ = { session b with
    counter := if b.sessionDirty then b.stats.session + 1 else b.stats.session, dirty := false }
  cases b.sessionDirty <;> rfl

theorem session_release :
    session b.countRelease.releaseSession = (session b).countRelease.releaseSession releases :=
  congrArg (Session.releaseSession releases) (session_countRelease b)

theorem session_tearDown : session b.tearDown = (session b).tearDown releases :=
  congrArg (fun s : Session Held => { s with cloneUp := false }) (session_release b)

theorem session_presentPatches :
    session b.presentPatches = (session b).presentPatches releases (changed b) := by
  unfold Box.presentPatches Session.presentPatches
  change _ = if b.graceUntil.isSome then _ else _
  split
  · rfl
  · by_cases h : b.patchesToServe ≠ b.patchPresented
    · rw [if_pos h, changed, decide_eq_true h, if_pos rfl]
      exact session_release { b with patchPresented := b.patchesToServe, patchRefused := false }
    · rw [if_neg h, changed, decide_eq_false h]
      rfl

theorem passes_cloneDue : Passes (session b) (session (cloneDue now b)) := by
  unfold cloneDue
  split
  next hdue =>
    refine .single ⟨.cloneReady, ?_⟩
    have hsome : (session b).cloneDue := by
      change b.cloneUpAt.isSome
      cases hat : b.cloneUpAt with
      | none =>
        rw [hat] at hdue
        cases hdue
      | some at_ => rfl
    rw [Session.advance, if_pos hsome]
    rfl
  next => exact .refl

theorem session_graceDue (hdue : b.graceUntil.any (· ≤ now)) :
    ∃ c, session (graceDue now b) = (session b).advance releases (.graceOver c) := by
  have hsome : (session b).grace := by
    change b.graceUntil.isSome
    cases hat : b.graceUntil with
    | none =>
      rw [hat] at hdue
      cases hdue
    | some at_ => rfl
  have hover : ∀ c, (session b).advance releases (.graceOver c) =
      if b.deviceBack then
        (session { b with graceUntil := none, representHeld := false }).presentPatches releases
          (c && b.representHeld)
      else (session { b with graceUntil := none, representHeld := false }).tearDown releases :=
    fun c => by
      rw [Session.advance, if_pos hsome]
      rfl
  refine ⟨changed { b with graceUntil := none, representHeld := false }, ?_⟩
  rw [hover]
  unfold graceDue
  dsimp only
  rw [if_pos hdue]
  cases b.deviceBack with
  | false => exact session_tearDown _
  | true =>
    rw [if_pos rfl, if_pos rfl]
    cases hheld : b.representHeld with
    | false => rw [Bool.and_false]; rfl
    | true => rw [if_pos rfl, session_presentPatches, Bool.and_true]

theorem passes_graceDue : Passes (session b) (session (graceDue now b)) := by
  by_cases hdue : b.graceUntil.any (· ≤ now)
  · obtain ⟨c, hc⟩ := session_graceDue b now hdue
    exact .single ⟨.graceOver c, hc⟩
  · rw [graceDue, if_neg hdue]

theorem passes_representDue : Passes (session b) (session (representDue now b)) := by
  unfold representDue
  split
  next hdue =>
    refine .single ⟨.representDue (changed b), ?_⟩
    have hsome : (session b).representDue := by
      change b.representAt.isSome
      cases hat : b.representAt with
      | none =>
        rw [hat] at hdue
        cases hdue
      | some at_ => rfl
    rw [Session.advance, if_pos hsome, session_presentPatches]
    rfl
  next => exact .refl

/-- What is due by a time is a few of the session's events. -/
theorem passes_advance : Passes (session b) (session (b.advance now)) := by
  rw [advance_eq]
  exact ((passes_cloneDue b now).trans (passes_graceDue _ now)).trans (passes_representDue _ now)

theorem passes_linkLost : Passes (session b) (session (b.linkLost now)) :=
  (passes_advance b now).tail ⟨.linkLost, session_release _⟩

theorem passes_detach (back : Bool) : Passes (session b) (session (b.detach now back)) := by
  refine (passes_advance b now).tail ⟨.detach back, ?_⟩
  cases back with
  | true => exact session_release _
  | false =>
    exact congrArg (fun s : Session Held => { s with grace := true, deviceBack := false })
      (session_release (b.advance now))

theorem passes_attach : Passes (session b) (session (b.attach now)) := by
  refine (passes_advance b now).tail ⟨.attach, ?_⟩
  unfold Box.attach
  dsimp only [Session.advance]
  change _ = if (b.advance now).graceUntil.isSome then _ else
    if (b.advance now).cloneUp then _ else _
  split
  · rfl
  · split <;> rfl

theorem session_clipPacket (class_ : TrafficClass) (id : UInt16) (direction : Direction)
    (head : List UInt8) : session (b.clipPacket class_ id direction head).1 = session b := by
  unfold Box.clipPacket
  split
  · rfl
  · have hbare := serve_bare b.packetTriggers ⟨class_.asU8, id, direction.asU8, head⟩
    exact congrArg (fun rows => { session b with held := { held b with triggers := rows } }) hbare

end Events

section Advanced

variable {s s' s'' : Session Held}

/-- A second release finds nothing to count. -/
theorem advanced_trans (h : Session.Advanced releases s s')
    (h' : Session.Advanced releases s' s'') :
    Session.Advanced releases s s'' := by
  cases h with
  | kept hheld hcounter hdirty hup =>
    cases h' with
    | kept hheld' hcounter' hdirty' hup' =>
      exact .kept (hheld'.trans hheld) (hcounter'.trans hcounter) (hdirty'.trans hdirty)
        fun h => hup' (hup h)
    | released hheld' hcounter' hdirty' =>
      rw [hcounter, hdirty] at hcounter'
      exact .released hheld' hcounter' hdirty'
  | released hheld hcounter hdirty =>
    cases h' with
    | kept hheld' hcounter' hdirty' =>
      exact .released (hheld'.trans hheld) (hcounter'.trans hcounter) (hdirty'.trans hdirty)
    | released hheld' hcounter' hdirty' =>
      rw [hdirty] at hcounter'
      exact .released hheld' (hcounter'.trans hcounter) hdirty'

theorem advanced_of_passes (h : Passes s s') : Session.Advanced releases s s' := by
  induction h with
  | refl => exact .kept rfl rfl rfl id
  | tail _ hstep ih =>
    obtain ⟨e, rfl⟩ := hstep
    exact advanced_trans ih (Session.advanced releases _ e)

end Advanced

/-- With no command since the last release there is nothing to release. -/
def Clean (s : Session Held) : Prop := s.dirty = false → s.held = .empty

theorem Clean.advanced {s s' : Session Held} (h : Clean s) (hadv : Session.Advanced releases s s') :
    Clean s' := by
  intro hdirty'
  cases hadv with
  | kept hheld _ hdirty => exact hheld.trans (h (hdirty.symm.trans hdirty'))
  | released hheld => exact hheld

section Frames

variable (digest : List UInt8 → Vector UInt8 32) {b : Box}

/-- A frame that boots the chip leaves nothing held. -/
theorem booted_applyFrame (now : Nat) (ty : FrameType) (p : List UInt8) (hseen : b.pcSeen = true) :
    (b.applyFrame now ty p).pcSeen = true ∨ held (b.applyFrame now ty p) = .empty := by
  by_cases hreboot : ty = .rebootDl
  · subst hreboot
    change (b.applyRebootDlFrame now p).pcSeen = true ∨ held (b.applyRebootDlFrame now p) = .empty
    obtain hbox | hbox := applyRebootDlFrame_cases b now p
    · exact .inl (hbox.symm ▸ hseen)
    · exact .inr (hbox.symm ▸ rfl)
  by_cases hreset : ty = .reset
  · subst hreset
    change (b.applyResetFrame now p).pcSeen = true ∨ held (b.applyResetFrame now p) = .empty
    unfold Box.applyResetFrame
    split
    · exact .inl hseen
    · dsimp only
      split <;> exact .inr rfl
  refine .inl ?_
  by_cases hoption : ty = .option
  · subst hoption
    change (b.applyOptionFrame now p).pcSeen = true
    obtain ⟨allow, hopt⟩ | ⟨_, _, _, _, _, _, _, _, _, hopt⟩ := applyOptionFrame_cases b now p
    · rw [hopt, Box.applyImperfect]
      cases allow with
      | true =>
        dsimp only
        split <;> exact hseen
      | false =>
        dsimp only
        split <;> exact hseen
    · rw [hopt]
      exact hseen
  · have hbeside := beside_applyFrame b now hoption hreset hreboot p
    exact (eq_of_beside Box.pcSeen (fun _ => rfl) hbeside).trans hseen

/-- A reset is no command: it does not mark the box, and leaves nothing to mark. -/
theorem clean_applyResetFrame (h : Clean (session b)) (now : Nat) (p : List UInt8) :
    Clean (session (b.applyResetFrame now p)) := by
  unfold Box.applyResetFrame
  split
  · exact h
  · dsimp only
    split <;> exact fun _ => rfl

theorem session_reply (b : Box) (f : DecodedFrame) :
    session (b.reply digest f).1 = session b ∧ (b.reply digest f).1.pcSeen = b.pcSeen := by
  obtain ⟨_, _, _, _, heq⟩ := replied_reply digest b f
  rw [heq]
  exact ⟨rfl, rfl⟩

theorem passes_arrived (b : Box) (now : Nat) : Passes (session b) (session (arrived b now)) :=
  passes_advance { b with pcSeen := true } now

theorem pcSeen_arrived (b : Box) (now : Nat) : (arrived b now).pcSeen = true :=
  eq_of_beside (b := { b with pcSeen := true }) Box.pcSeen (fun _ => rfl) (beside_arrived b now)

theorem session_onFrame_query (b : Box) (now : Nat) (seq : UInt8) (p : List UInt8) :
    session (b.onFrame digest now ⟨.query, seq, p⟩).1 = session (arrived b now) := by
  rw [onFrame_query]
  exact (session_reply digest _ _).1

theorem clean_marked {c : Bool} (hc : c = true) (h : b.pcSeen = true ∨ held b = .empty) :
    Clean (session { (if c ∧ b.pcSeen then { b with sessionDirty := true } else b) with
      unsolicited := [] }) := by
  subst hc
  split
  next => exact fun hdirty => Bool.noConfusion hdirty
  next hunseen => exact fun _ => h.resolve_left fun hseen => hunseen ⟨rfl, hseen⟩

/-- Whatever a command did, the box is marked; one that booted it left nothing. -/
theorem clean_onFrame (h : Clean (session b)) (now : Nat) (f : DecodedFrame) :
    Clean (session (b.onFrame digest now f).1) := by
  obtain ⟨ty, seq, p⟩ := f
  have harrived : Clean (session (arrived b now)) :=
    h.advanced (advanced_of_passes (passes_arrived b now))
  by_cases hquery : ty = .query
  · subst hquery
    rw [session_onFrame_query digest]
    exact harrived
  by_cases hreset : ty = .reset
  · subst hreset
    change Clean (session (((arrived b now).applyResetFrame now p).reply digest ⟨.reset, seq, p⟩).1)
    rw [(session_reply digest _ _).1]
    exact clean_applyResetFrame harrived now p
  · have hcommand : decide (ty ≠ .query ∧ ty ≠ .reset) = true := decide_eq_true ⟨hquery, hreset⟩
    have hran : ∀ b' : Box, b'.pcSeen = true →
        ((b'.applyFrame now ty p).reply digest ⟨ty, seq, p⟩).1.pcSeen = true ∨
          held ((b'.applyFrame now ty p).reply digest ⟨ty, seq, p⟩).1 = .empty := by
      intro b' hseen'
      obtain ⟨hsession, hseen⟩ :=
        session_reply digest (b'.applyFrame now ty p) ⟨ty, seq, p⟩
      rw [hseen]
      exact (booted_applyFrame now ty p hseen').imp_right (congrArg Session.held hsession).trans
    refine clean_marked hcommand (hran _ ?_)
    split
    · exact pcSeen_arrived b now
    · exact pcSeen_arrived b now

theorem clean_scriptImperfect (h : Clean (session b)) (i : ImperfectStatus) :
    Clean (session (b.scriptImperfect i)) := by
  intro hdirty
  have hempty : held b = .empty := h hdirty
  have htriggers : b.packetTriggers = [] := List.map_eq_nil_iff.1 (congrArg Held.triggers hempty)
  change held (b.scriptImperfect i) = .empty
  unfold Box.scriptImperfect
  rw [htriggers, PacketTriggers.dropConsuming, List.filter_nil, ite_self]
  rw [held, htriggers] at hempty
  exact hempty

end Frames

section Runs

variable (digest : List UInt8 → Vector UInt8 32)

/-- Triggers come from the host, none from a test. -/
def Hosted (e : Box.Event) : Prop := ∀ settings, e ≠ .script (.clipSettings settings)

theorem clean_of_reachable {t : Nat} {b : Box} (h : Box.Reachable digest Hosted t b) :
    Clean (session b) := by
  induction h with
  | default => exact fun _ => rfl
  | @step t now b e he hb hle ih =>
    cases e with
    | frame f => exact clean_onFrame digest ih now f
    | restart => exact fun _ => rfl
    | linkLost => exact ih.advanced (advanced_of_passes (passes_linkLost b now))
    | detach back => exact ih.advanced (advanced_of_passes (passes_detach b now back))
    | attach => exact ih.advanced (advanced_of_passes (passes_attach b now))
    | packet class_ id direction head =>
      change Clean (session (b.clipPacket class_ id direction head).1)
      rw [session_clipPacket]
      exact ih
    | script s =>
      cases s with
      | clipSettings settings => exact absurd rfl (he settings)
      | imperfect i => exact clean_scriptImperfect ih i
      | _ => exact ih

/-- What happens to a box while its host only asks, boots included where `boots` says so. -/
inductive Unprompted (boots : Prop) : Box.Event → Prop
  | query (seq : UInt8) (p : List UInt8) : Unprompted boots (.frame ⟨.query, seq, p⟩)
  | linkLost : Unprompted boots .linkLost
  | detach (back : Bool) : Unprompted boots (.detach back)
  | attach : Unprompted boots .attach
  | packet (class_ : TrafficClass) (id : UInt16) (direction : Direction) (head : List UInt8) :
      Unprompted boots (.packet class_ id direction head)
  | restart : boots → Unprompted boots .restart

/-- One box comes from another unprompted, at whatever times. -/
abbrev Drifts (boots : Prop) : Box → Box → Prop :=
  Relation.ReflTransGen fun b b' => ∃ e now, Unprompted boots e ∧ b' = (b.step digest now e).1

/-- Either the session's own events, or a boot since. -/
inductive Drifted (boots : Prop) (s s' : Session Held) : Prop
  | advanced : Session.Advanced releases s s' → Drifted boots s s'
  | booted : boots → s'.held = .empty → s'.counter = 0 → s'.dirty = false → Drifted boots s s'

theorem Drifted.trans_advanced {boots : Prop} {s s' s'' : Session Held}
    (h : Drifted boots s s') (h' : Session.Advanced releases s' s'') : Drifted boots s s'' := by
  cases h with
  | advanced h => exact .advanced (advanced_trans h h')
  | booted hboots hheld hcounter hdirty =>
    cases h' with
    | kept hheld' hcounter' hdirty' =>
      exact .booted hboots (hheld'.trans hheld) (hcounter'.trans hcounter) (hdirty'.trans hdirty)
    | released hheld' hcounter' hdirty' =>
      rw [hdirty] at hcounter'
      exact .booted hboots hheld' (hcounter'.trans hcounter) hdirty'

theorem drifted_of_drifts {boots : Prop} {b b' : Box} (h : Drifts digest boots b b') :
    Drifted boots (session b) (session b') := by
  induction h with
  | refl => exact .advanced (.kept rfl rfl rfl id)
  | @tail c c' _ hstep ih =>
    obtain ⟨e, now, he, rfl⟩ := hstep
    cases he with
    | query seq p =>
      change Drifted boots (session b) (session (c.onFrame digest now ⟨.query, seq, p⟩).1)
      rw [session_onFrame_query digest]
      exact ih.trans_advanced (advanced_of_passes (passes_arrived c now))
    | linkLost => exact ih.trans_advanced (advanced_of_passes (passes_linkLost c now))
    | detach back => exact ih.trans_advanced (advanced_of_passes (passes_detach c now back))
    | attach => exact ih.trans_advanced (advanced_of_passes (passes_attach c now))
    | packet class_ id direction head =>
      change Drifted boots (session b) (session (c.clipPacket class_ id direction head).1)
      rw [session_clipPacket]
      exact ih
    | restart hboots => exact .booted hboots rfl rfl rfl

/-- A host that reads the counter it read before has everything it set still in place; where the
counter moved the box holds nothing.  Only a boot under a counter still at zero does not show. -/
theorem release_is_seen {t : Nat} {b b' : Box} (hb : Box.Reachable digest Hosted t b)
    (hdrift : Drifts digest (b.stats.session ≠ 0) b b') :
    (b'.stats.session = b.stats.session → held b' = held b) ∧
      (b'.stats.session ≠ b.stats.session → held b' = .empty ∧
        (b'.stats.session = b.stats.session + 1 ∨ b'.stats.session = 0)) := by
  have hclean := clean_of_reachable digest hb
  cases drifted_of_drifts digest hdrift with
  | booted hboots hheld hcounter =>
    refine ⟨fun heq => absurd (heq.symm.trans hcounter) hboots, fun _ => ⟨hheld, .inr hcounter⟩⟩
  | advanced hadv =>
    cases hadv with
    | kept hheld hcounter => exact ⟨fun _ => hheld, fun hne => absurd hcounter hne⟩
    | released hheld hcounter =>
      change b'.stats.session = if b.sessionDirty then b.stats.session + 1 else b.stats.session
        at hcounter
      change held b' = .empty at hheld
      cases hdirty : b.sessionDirty with
      | false =>
        rw [hdirty] at hcounter
        exact ⟨fun _ => hheld.trans (hclean hdirty).symm, fun hne => absurd hcounter hne⟩
      | true =>
        rw [hdirty, if_pos rfl] at hcounter
        refine ⟨fun heq => ?_, fun _ => ⟨hheld, .inl hcounter⟩⟩
        rw [heq] at hcounter
        grind

theorem release_is_seen_detached :
    let b := furnished
    let b' := (b.step (fun _ => Vector.replicate 32 0) 2 (.detach true)).1
    (b.rewrites.rewrites.length = 2 ∧ (b.table.offered false).length = 2 ∧
      b.packetTriggers.length = 1 ∧ b'.stats.session = b.stats.session + 1) ∧
    (b'.stats.session = b.stats.session → held b' = held b) ∧
      (b'.stats.session ≠ b.stats.session → held b' = .empty ∧
        (b'.stats.session = b.stats.session + 1 ∨ b'.stats.session = 0)) :=
  ⟨by decide +kernel, release_is_seen _ (reachable_furnished fun _ => nofun)
    (.single ⟨.detach true, 2, .detach true, rfl⟩)⟩

end Runs

end Medius.Machine
