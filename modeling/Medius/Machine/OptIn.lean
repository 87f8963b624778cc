import Medius.Machine.Sound

/-! What the box does not do while the opt-in is off, and how soon after it went off. -/

namespace Medius.Machine

open Protocol Mock Medius.Types

/-- How far off what the box owes is.  A clone owed after a boot comes before any detach is over. -/
structure Due (t : Nat) (b : Box) : Prop where
  delay : b.representDelay = representDelayMax
  clone : ∀ c, b.cloneUpAt = some c → c ≤ t + bootCloneDelay
  represent : ∀ r, b.representAt = some r → r ≤ t + representDelayMax
  grace : ∀ g, b.graceUntil = some g → g ≤ t + detachGrace
  order : ∀ c g, b.cloneUpAt = some c → b.graceUntil = some g → c ≤ g

/-- With the opt-in off no rule is held, and a clone presented with a patch is on its way out. -/
structure Safe (t : Nat) (b : Box) : Prop extends Due t b where
  rules : b.imperfect.allowed = false → b.rewrites.rewrites = []
  patched : b.imperfect.allowed = false → b.patchPresented = [] ∨ b.representAt.isSome ∨
    b.representHeld ∨ b.cloneUp = false ∧ b.cloneUpAt = none

variable {t now : Nat} {b : Box}

theorem Due.mono (h : Due t b) (hle : t ≤ now) : Due now b where
  delay := h.delay
  clone := fun c hc => (h.clone c hc).trans (Nat.add_le_add_right hle _)
  represent := fun r hr => (h.represent r hr).trans (Nat.add_le_add_right hle _)
  grace := fun g hg => (h.grace g hg).trans (Nat.add_le_add_right hle _)
  order := h.order

theorem patchesToServe_off (h : b.imperfect.allowed = false) : b.patchesToServe = [] := by
  rw [Box.patchesToServe, h]
  rfl

/-- Outside a detach's grace a presentation is of nothing while the opt-in is off. -/
theorem presented_presentPatches (hgrace : b.graceUntil = none)
    (hoff : b.imperfect.allowed = false) : b.presentPatches.patchPresented = [] := by
  have hserve := patchesToServe_off hoff
  unfold Box.presentPatches
  rw [hgrace, hserve]
  split
  next h => cases h
  split
  · rfl
  next h => exact (not_not.mp h).symm

theorem graceUntil_presentPatches (b : Box) : b.presentPatches.graceUntil = b.graceUntil := by
  unfold Box.presentPatches
  split
  · rfl
  · split <;> rfl

theorem Due.presentPatches (h : Due t b) : Due t b.presentPatches := by
  unfold Box.presentPatches
  split
  · exact { h with }
  · split
    · exact { h with }
    · exact h

theorem Due.putOff (h : Due now b) :
    Due now { b with representAt := some (now + b.representDelay) } :=
  { h with represent := fun r hr => by rw [← Option.some.inj hr, h.delay] }

theorem rules_presentPatches (h : b.imperfect.allowed = false → b.rewrites.rewrites = []) :
    b.presentPatches.imperfect.allowed = false → b.presentPatches.rewrites.rewrites = [] := by
  unfold Box.presentPatches
  split
  · exact h
  · split
    · exact fun _ => rfl
    · exact h

/-- A presentation, made or put off, is enough whatever the clone serves now. -/
theorem Due.safe_presentPatches (h : Due t b)
    (hrules : b.imperfect.allowed = false → b.rewrites.rewrites = []) :
    Safe t b.presentPatches where
  toDue := h.presentPatches
  rules := rules_presentPatches hrules
  patched := fun hoff => by
    have hallowed : b.presentPatches.imperfect = b.imperfect :=
      eq_of_beside Box.imperfect (fun _ => rfl) (beside_presentPatches b)
    rw [hallowed] at hoff
    cases hgrace : b.graceUntil with
    | none => exact .inl (presented_presentPatches hgrace hoff)
    | some g =>
      refine .inr (.inr (.inl ?_))
      rw [Box.presentPatches, hgrace]
      rfl

namespace Safe

theorem default : Safe 0 .default where
  delay := rfl
  clone := fun _ h => by cases h
  represent := fun _ h => by cases h
  grace := fun _ h => by cases h
  order := fun _ _ h => by cases h
  rules := fun _ => rfl
  patched := fun _ => .inl rfl

theorem mono (h : Safe t b) (hle : t ≤ now) : Safe now b := { h with toDue := h.toDue.mono hle }

section Session

theorem countRelease (h : Safe t b) : Safe t b.countRelease := { h with }

theorem releaseSession (h : Safe t b) : Safe t b.releaseSession := { h with rules := fun _ => rfl }

theorem clearClipConfig (h : Safe t b) : Safe t b.clearClipConfig := { h with }

theorem presentPatches (h : Safe t b) : Safe t b.presentPatches :=
  h.toDue.safe_presentPatches h.rules

theorem cloneDue (h : Safe t b) : Safe t (cloneDue now b) := by
  unfold Machine.cloneDue
  split
  next hdue =>
    exact { h with
      clone := fun _ h => by cases h
      order := fun _ _ h => by cases h
      patched := fun hoff => by
        obtain hnone | hat | hheld | ⟨-, hup⟩ := h.patched hoff
        · exact .inl hnone
        · exact .inr (.inl hat)
        · exact .inr (.inr (.inl hheld))
        · rw [hup] at hdue
          cases hdue }
  next => exact h

theorem cloneUpAt_cloneDue (b : Box) :
    ∀ c, (Machine.cloneDue now b).cloneUpAt = some c → now < c := by
  intro c hc
  unfold Machine.cloneDue at hc
  split at hc
  · cases hc
  next hdue =>
    rw [hc] at hdue
    exact Nat.not_le.mp fun hle => hdue (decide_eq_true hle)

/-- A teardown leaves no clone owed, so that what was presented is presented no more. -/
theorem graceDue (h : Safe t b) (hclone : ∀ c, b.cloneUpAt = some c → now < c) :
    Safe t (graceDue now b) := by
  unfold Machine.graceDue
  dsimp only
  split
  next hdue =>
    obtain ⟨g, hg, hle⟩ : ∃ g, b.graceUntil = some g ∧ g ≤ now := by
      cases hg : b.graceUntil with
      | none =>
        rw [hg] at hdue
        cases hdue
      | some g =>
        rw [hg] at hdue
        exact ⟨g, rfl, of_decide_eq_true hdue⟩
    have hdue' : Due t { b with graceUntil := none, representHeld := false } :=
      { h.toDue with
        grace := fun _ h => by cases h
        order := fun _ _ _ h => by cases h }
    split
    · split
      · exact hdue'.safe_presentPatches h.rules
      next hheld =>
        exact { hdue' with
          rules := h.rules
          patched := fun hoff => by
            obtain hnone | hat | hheld' | hdown := h.patched hoff
            · exact .inl hnone
            · exact .inr (.inl hat)
            · exact absurd hheld' hheld
            · exact .inr (.inr (.inr hdown)) }
    · have howed : b.cloneUpAt = none := by
        cases hc : b.cloneUpAt with
        | none => rfl
        | some c => exact absurd ((h.order c g hc hg).trans hle) (Nat.not_le.mpr (hclone c hc))
      exact { hdue' with
        rules := fun _ => rfl
        patched := fun _ => .inr (.inr (.inr ⟨rfl, howed⟩)) }
  next => exact h

theorem representDue (h : Safe t b) : Safe t (representDue now b) := by
  unfold Machine.representDue
  split
  · have hdue : Due t { b with representAt := none } :=
      { h.toDue with represent := fun _ h => by cases h }
    exact hdue.safe_presentPatches h.rules
  · exact h

theorem advance (h : Safe t b) (now : Nat) : Safe t (b.advance now) := by
  rw [advance_eq]
  exact (h.cloneDue.graceDue (cloneUpAt_cloneDue b)).representDue

theorem restart (h : b.representDelay = representDelayMax) (now : Nat) :
    Safe now (b.restart now) where
  delay := h
  clone := fun _ hc => (Option.some.inj hc).ge
  represent := fun _ h => by cases h
  grace := fun _ h => by cases h
  order := fun _ _ _ h => by cases h
  rules := fun _ => rfl
  patched := fun hoff => .inl (patchesToServe_off (b := b.releaseSession) hoff)

end Session

section Frames

theorem applyImperfect (h : Safe now b) (allow : Bool) : Safe now (b.applyImperfect now allow) := by
  have hdue : Due now { b with imperfect := { b.imperfect with allowed := allow } } :=
    { h.toDue with }
  unfold Box.applyImperfect
  cases allow with
  | true =>
    dsimp only
    split
    · exact { hdue.putOff with rules := Bool.noConfusion, patched := Bool.noConfusion }
    · exact { hdue with rules := Bool.noConfusion, patched := Bool.noConfusion }
  | false =>
    dsimp only
    split
    · exact { hdue.putOff with rules := fun _ => rfl, patched := fun _ => .inr (.inl rfl) }
    next hsame =>
      have hoff : b.imperfect.allowed = false := by simpa using hsame
      exact { hdue with rules := fun _ => rfl, patched := fun _ => h.patched hoff }

theorem applyOptionFrame (h : Safe now b) (p : List UInt8) :
    Safe now (b.applyOptionFrame now p) := by
  obtain ⟨allow, hopt⟩ | ⟨v, hv, ms, bearing, pace, force, mode, full, percent, hopt⟩ :=
    applyOptionFrame_cases b now p
  · exact hopt ▸ h.applyImperfect allow
  · exact hopt ▸ { h with }

theorem rewrites_off {table : Mock.RewriteTable} (h : table.rewrites = []) (p : List UInt8) :
    (table.applyRewriteFrame false p).rewrites = [] := by
  unfold RewriteTable.applyRewriteFrame
  split
  · dsimp only
    split
    · exact h
    split
    · exact h
    next hclear =>
      have hclear := not_not.mp fun hno => hclear ⟨Bool.noConfusion, hno⟩
      obtain ⟨rfl, rfl, rfl, rfl⟩ := hclear
      rfl
  · exact h

theorem applyRewriteFrame (h : Safe now b) (p : List UInt8) : Safe now (b.applyRewriteFrame p) :=
  { h with
    rules := fun hoff => by
      have hoff : b.imperfect.allowed = false := hoff
      change (b.rewrites.applyRewriteFrame b.imperfect.allowed p).rewrites = []
      rw [hoff]
      exact rewrites_off (h.rules hoff) p }

theorem applyPatchFrame (h : Safe now b) (p : List UInt8) : Safe now (b.applyPatchFrame p) := by
  obtain ⟨hbox, -⟩ | ⟨hbox, -⟩ | ⟨hbox, -⟩ | ⟨q, -, hbox, -⟩ := applyPatchFrame_cases b p
  · rw [hbox]
    exact h
  · exact hbox ▸ h.presentPatches
  · have h' : Safe now { b with patches := [], patchRefused := false, patchFull := false } :=
      { h with }
    exact hbox ▸ h'.presentPatches
  · exact hbox ▸ { h with }

theorem applyResetFrame (h : Safe now b) (p : List UInt8) : Safe now (b.applyResetFrame now p) := by
  unfold Box.applyResetFrame
  split
  · exact h
  · have h' : Safe now { b with
        table := .default
        rewrites := b.rewrites.clear
        transforms := .default } :=
      { h with rules := fun _ => rfl }
    dsimp only
    split
    · refine .restart ?_ now
      exact h.delay
    · exact h'.clearClipConfig.countRelease

theorem applyFrame (h : Safe now b) (ty : FrameType) (p : List UInt8) :
    Safe now (b.applyFrame now ty p) := by
  cases ty with
  | option => exact h.applyOptionFrame p
  | rewrite => exact h.applyRewriteFrame p
  | patch => exact h.applyPatchFrame p
  | reset => exact h.applyResetFrame p
  | clipAppend =>
    change Safe now (b.applyClipAppendFrame p)
    obtain ⟨_, hclip⟩ := applyClipAppendFrame_eq b p
    exact hclip ▸ { h with }
  | clipCtrl =>
    change Safe now (b.applyClipCtrlFrame p)
    obtain ⟨_, hclip⟩ := applyClipCtrlFrame_eq b p
    exact hclip ▸ { h with }
  | rebootDl =>
    change Safe now (b.applyRebootDlFrame now p)
    obtain hbox | hbox := applyRebootDlFrame_cases b now p
    · rw [hbox]
      exact h
    · exact hbox ▸ .restart h.delay now
  | _ => exact { h with }

variable {digest : List UInt8 → Vector UInt8 32}

theorem reply (h : Safe now b) (f : DecodedFrame) : Safe now (b.reply digest f).1 := by
  obtain ⟨_, _, _, _, heq⟩ := replied_reply digest b f
  exact heq ▸ { h with }

theorem onFrame (h : Safe now b) (f : DecodedFrame) : Safe now (b.onFrame digest now f).1 := by
  have hseen : Safe now { b with pcSeen := true } := { h with }
  unfold Box.onFrame
  dsimp only
  have hdirty : ∀ {b' : Box} {c : Prop} [Decidable c], Safe now b' →
      Safe now (if c then { b' with sessionDirty := true } else b') := by
    intro b' c _ h'
    split
    · exact { h' with }
    · exact h'
  have hrun := (hdirty (c := (decide (f.ty ≠ .query ∧ f.ty ≠ .reset)) = true)
    (hseen.advance now)).applyFrame f.ty f.payload
  exact { hdirty (hrun.reply f) with }

end Frames

section Events

theorem detach (h : Safe now b) (back : Bool) : Safe now (b.detach now back) := by
  have h' := (h.advance now).countRelease.releaseSession
  unfold Box.detach
  dsimp only
  split
  · exact h'
  · exact { h' with
      grace := fun g hg => (Option.some.inj hg).ge
      order := fun c g hc hg => by
        have hc := h'.clone c hc
        rw [← Option.some.inj hg]
        exact hc.trans (Nat.add_le_add_left (by decide) _) }

theorem attach (h : Safe now b) : Safe now (b.attach now) := by
  have h' := h.advance now
  unfold Box.attach
  dsimp only
  split
  · exact { h' with }
  split
  · exact h'
  · exact { h' with patched := fun hoff => .inl (patchesToServe_off hoff) }

theorem clipPacket (h : Safe now b) (class_ : TrafficClass) (id : UInt16) (direction : Direction)
    (head : List UInt8) : Safe now (b.clipPacket class_ id direction head).1 := by
  unfold Box.clipPacket
  split
  · exact h
  · exact { h with }

/-- Anything but a test setting the opt-in past the frame that sets it. -/
def Unforced (e : Box.Event) : Prop := ∀ i, e ≠ .script (.imperfect i)

theorem script (h : Safe now b) {s : Box.Script} (hs : Unforced (.script s)) :
    Safe now (b.script s) := by
  cases s with
  | imperfect i => exact absurd rfl (hs i)
  | _ => exact { h with }

theorem step {digest : List UInt8 → Vector UInt8 32} (h : Safe now b) {e : Box.Event}
    (he : Unforced e) : Safe now (b.step digest now e).1 := by
  cases e with
  | frame f => exact h.onFrame f
  | restart => exact { Safe.restart h.delay now with }
  | linkLost => exact (h.advance now).countRelease.releaseSession
  | detach back => exact h.detach back
  | attach => exact h.attach
  | packet class_ id direction head => exact h.clipPacket class_ id direction head
  | script s => exact h.script he

end Events

end Safe

variable {digest : List UInt8 → Vector UInt8 32}

theorem safe_of_reachable (h : Box.Reachable digest Safe.Unforced t b) : Safe t b := by
  induction h with
  | default => exact .default
  | step e he _ hle ih => exact (ih.mono hle).step he

section Settles

theorem due_of_le {at_ : Option Nat} {lim : Nat} (h : ∀ c, at_ = some c → c ≤ lim)
    (hle : lim ≤ now) : at_ = none ∨ at_.any (· ≤ now) = true := by
  cases at_ with
  | none => exact .inl rfl
  | some c => exact .inr (decide_eq_true ((h c rfl).trans hle))

theorem allowed_presentPatches (b : Box) :
    b.presentPatches.imperfect.allowed = b.imperfect.allowed :=
  eq_of_beside (·.imperfect.allowed) (fun _ => rfl) (beside_presentPatches b)

theorem allowed_graceDue (b : Box) :
    (graceDue now b).imperfect.allowed = b.imperfect.allowed := by
  unfold graceDue
  dsimp only
  split
  · split
    · split
      · exact allowed_presentPatches _
      · rfl
    · rfl
  · rfl

theorem allowed_cloneDue (b : Box) : (cloneDue now b).imperfect.allowed = b.imperfect.allowed := by
  unfold cloneDue
  split <;> rfl

theorem held_cloneDue (h : b.representHeld = true → b.graceUntil.isSome) :
    (cloneDue now b).representHeld = true → (cloneDue now b).graceUntil.isSome := by
  unfold cloneDue
  split <;> exact h

theorem representHeld_presentPatches (h : b.graceUntil = none) :
    b.presentPatches.representHeld = b.representHeld := by
  unfold Box.presentPatches
  rw [h]
  split
  next h => cases h
  · split <;> rfl

/-- A grace that is over leaves nothing held. -/
theorem over_graceDue (h : Due t b) (hle : t + detachGrace ≤ now)
    (hheld : b.representHeld = true → b.graceUntil.isSome) :
    (graceDue now b).graceUntil = none ∧ (graceDue now b).representHeld = false := by
  unfold graceDue
  dsimp only
  obtain hnone | hdue := due_of_le h.grace hle
  · rw [hnone]
    refine ⟨hnone, Bool.eq_false_iff.mpr fun h => ?_⟩
    have hsome := hheld h
    rw [hnone] at hsome
    cases hsome
  · rw [if_pos hdue]
    split
    · split
      · exact ⟨graceUntil_presentPatches _, representHeld_presentPatches rfl⟩
      · exact ⟨rfl, rfl⟩
    · exact ⟨rfl, rfl⟩

/-- Once a detach's grace has gone by with nothing else, a clone that is up serves no patch. -/
theorem Safe.settles (h : Safe t b) (hheld : b.representHeld = true → b.graceUntil.isSome)
    (hoff : b.imperfect.allowed = false) (hle : t + detachGrace ≤ now) :
    (b.advance now).patchPresented = [] ∨ (b.advance now).cloneUp = false := by
  have hclone : Safe t (Machine.cloneDue now b) := h.cloneDue
  have hgrace : Safe t (Machine.graceDue now (Machine.cloneDue now b)) :=
    hclone.graceDue (cloneUpAt_cloneDue b)
  obtain ⟨hover, hheld⟩ := over_graceDue hclone.toDue hle (held_cloneDue hheld)
  have hoff : (Machine.graceDue now (Machine.cloneDue now b)).imperfect.allowed = false := by
    rw [allowed_graceDue, allowed_cloneDue, hoff]
  have hle : t + representDelayMax ≤ now := (Nat.add_le_add_left (by decide) t).trans hle
  rw [advance_eq, Machine.representDue]
  obtain hnone | hdue := due_of_le hgrace.represent hle
  · rw [hnone]
    obtain hpresented | hat | hheld' | hdown := hgrace.patched hoff
    · exact .inl hpresented
    · rw [hnone] at hat
      cases hat
    · rw [hheld] at hheld'
      cases hheld'
    · exact .inr hdown.1
  · rw [if_pos hdue]
    refine .inl (presented_presentPatches ?_ ?_)
    · exact hover
    · exact hoff

end Settles

/-- In every run that sets the opt-in by its frame, a box with the opt-in off holds no rewrite rule
and no trigger that consumes, and it serves no patch, but for a clone whose next presentation is
due or that is down; once a detach's grace has gone by, not even for that. -/
theorem nothing_imperfect_opted_out (h : Box.Reachable digest Safe.Unforced t b)
    (hoff : b.imperfect.allowed = false) :
    b.rewrites.rewrites = [] ∧ (∀ r ∈ b.packetTriggers, Spares r) ∧
      (b.patchPresented = [] ∨ b.representAt.isSome ∨ b.representHeld ∨ b.cloneUp = false) ∧
      ∀ now, t + detachGrace ≤ now →
        (b.advance now).patchPresented = [] ∨ (b.advance now).cloneUp = false := by
  have hsafe := safe_of_reachable h
  have hsound := sound_of_reachable h
  refine ⟨hsafe.rules hoff, hsound.spares hoff, ?_, fun now => hsafe.settles hsound.held hoff⟩
  exact (hsafe.patched hoff).imp_right (.imp_right (.imp_right And.left))

/-- Two rules, a trigger that consumes and a patched clone, and then the opt-in taken back. -/
theorem nothing_imperfect_opted_back_out :
    let b := (furnished.step (fun _ => Vector.replicate 32 0) 0
      (.frame ⟨.option, 10, imperfectPayload false⟩)).1
    (furnished.rewrites.rewrites.length = 2 ∧
      furnished.packetTriggers.map (·.flags &&& clipTrigFConsume) = [clipTrigFConsume] ∧
      furnished.patchPresented.length = 2 ∧ b.patchPresented.length = 2) ∧
    b.rewrites.rewrites = [] ∧ (∀ r ∈ b.packetTriggers, Spares r) ∧
      (b.patchPresented = [] ∨ b.representAt.isSome ∨ b.representHeld ∨ b.cloneUp = false) ∧
      ∀ now, 0 + detachGrace ≤ now →
        (b.advance now).patchPresented = [] ∨ (b.advance now).cloneUp = false :=
  ⟨by decide +kernel, nothing_imperfect_opted_out
    (.step (.frame ⟨.option, 10, imperfectPayload false⟩) nofun
      (reachable_furnished fun _ => nofun) (Nat.le_refl 0)) (by decide +kernel)⟩

end Medius.Machine
