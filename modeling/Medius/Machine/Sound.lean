import Medius.Machine.Tables

/-! What holds of the box in every run: its tables keep to their bounds, nothing of a session
outlives the clone it is for, and a presentation waits only for a grace to end. -/

namespace Medius.Machine

open Protocol Mock Medius.Types

structure Sound (b : Box) : Prop where
  locks : Locks.BoxWf b.table
  rules : Rules b.rewrites.rewrites
  pairs : Pairs b.transforms.transforms
  patches : Patches b.patches
  presented : Patches b.patchPresented
  packets : Triggers b.packetTriggers
  spares : b.imperfect.allowed = false → ∀ r ∈ b.packetTriggers, Spares r
  downLocks : b.cloneUp = false → b.table = .default
  downPairs : b.cloneUp = false → b.transforms = .default
  held : b.representHeld = true → b.graceUntil.isSome

/-- The clone after a boot, once it is due. -/
def cloneDue (now : Nat) (b : Box) : Box :=
  if b.cloneUpAt.any (· ≤ now) then { b with cloneUpAt := none, cloneUp := true } else b

/-- The end of a detach's grace, once it is due. -/
def graceDue (now : Nat) (b : Box) : Box :=
  if b.graceUntil.any (· ≤ now) then
    let held := b.representHeld
    let b := { b with graceUntil := none, representHeld := false }
    if b.deviceBack then if held then b.presentPatches else b else b.tearDown
  else b

/-- A presentation that waited, once it is due. -/
def representDue (now : Nat) (b : Box) : Box :=
  if b.representAt.any (· ≤ now) then { b with representAt := none }.presentPatches else b

theorem advance_eq (b : Box) (now : Nat) :
    b.advance now = representDue now (graceDue now (cloneDue now b)) := rfl

/-- What is due changes a box in these five ways only. -/
theorem advance_keeps {P : Box → Prop} {b : Box} {now : Nat} (h : P b)
    (cloned : ∀ b, P b → P { b with cloneUpAt := none, cloneUp := true })
    (ended : ∀ b, P b → P { b with graceUntil := none, representHeld := false })
    (due : ∀ b, P b → P { b with representAt := none })
    (present : ∀ b, P b → P b.presentPatches) (tear : ∀ b, P b → P b.tearDown) :
    P (b.advance now) := by
  have hclone : P (cloneDue now b) := by
    unfold cloneDue
    split
    · exact cloned b h
    · exact h
  have hgrace : P (graceDue now (cloneDue now b)) := by
    unfold graceDue
    dsimp only
    split
    · split
      · split
        · exact present _ (ended _ hclone)
        · exact ended _ hclone
      · exact tear _ (ended _ hclone)
    · exact hclone
  rw [advance_eq, representDue]
  split
  · exact present _ (due _ hgrace)
  · exact hgrace

/-- An option frame sets the opt-in, or some of what the box stores beside it. -/
theorem applyOptionFrame_cases (b : Box) (now : Nat) (p : List UInt8) :
    (∃ allow, b.applyOptionFrame now p = b.applyImperfect now allow) ∨
      ∃ v hv ms bearing pace force mode full percent, b.applyOptionFrame now p =
        { b with
          version := v
          mac_len := hv
          moveRideMs := ms
          bearing := bearing
          emitPace := pace
          emitForceHz := force
          renderMode := mode
          renderFull := full
          spreadPercent := percent } := by
  have hsame : ∃ v hv ms bearing pace force mode full percent, b =
      { b with
        version := v
        mac_len := hv
        moveRideMs := ms
        bearing := bearing
        emitPace := pace
        emitForceHz := force
        renderMode := mode
        renderFull := full
        spreadPercent := percent } := ⟨_, b.mac_len, _, _, _, _, _, _, _, rfl⟩
  rcases p with _ | ⟨option, rest⟩
  · exact .inr hsame
  generalize hopt : b.applyOptionFrame now (option :: rest) = b'
  unfold Box.applyOptionFrame at hopt
  dsimp only at hopt
  split at hopt
  · split at hopt
    · exact .inl ⟨_, hopt.symm⟩
    · exact .inr (hopt ▸ hsame)
  refine .inr ?_
  split at hopt
  · split at hopt
    · exact ⟨_, b.mac_len, _, _, _, _, _, _, _, hopt.symm⟩
    · exact hopt ▸ hsame
  split at hopt
  · split at hopt
    · unfold Box.applyEmit at hopt
      dsimp only at hopt
      split at hopt
      · exact ⟨_, b.mac_len, _, _, _, _, _, _, _, hopt.symm⟩
      · exact hopt ▸ hsame
    · exact hopt ▸ hsame
  split at hopt
  · split at hopt
    · unfold Box.applyRender at hopt
      split at hopt
      · split at hopt
        · exact ⟨_, b.mac_len, _, _, _, _, _, _, _, hopt.symm⟩
        · exact hopt ▸ hsame
      · exact hopt ▸ hsame
    · exact hopt ▸ hsame
  split at hopt
  · split at hopt
    · exact ⟨_, b.mac_len, _, _, _, _, _, _, _, hopt.symm⟩
    · exact hopt ▸ hsame
  split at hopt
  · exact ⟨{ b.version with name := .lossy rest }, b.mac_len, _, _, _, _, _, _, _, hopt.symm⟩
  split at hopt
  · split at hopt
    · unfold Box.applyBearing at hopt
      split at hopt
      · exact ⟨_, b.mac_len, _, _, _, _, _, _, _, hopt.symm⟩
      · exact hopt ▸ hsame
    · exact hopt ▸ hsame
  · exact hopt ▸ hsame

/-- What a patch frame leaves of the store, by the store's own handler. -/
def patched (b : Box) (p : List UInt8) : PatchStore :=
  b.store.applyPatchFrame b.imperfect.allowed b.graceUntil.isSome p

/-- A patch frame does to the box what it does to the store, in these four ways. -/
theorem applyPatchFrame_cases (b : Box) (p : List UInt8) :
    (b.applyPatchFrame p = b ∧ patched b p = b.store) ∨
      (b.applyPatchFrame p = b.presentPatches ∧
        patched b p = b.store.present b.imperfect.allowed b.graceUntil.isSome) ∨
      (b.applyPatchFrame p = b.clearPatches ∧
        patched b p = b.store.clear b.imperfect.allowed b.graceUntil.isSome) ∨
      ∃ q, (PatchSection.fromU8 q.section_).isSome ∧
        b.applyPatchFrame p =
          { b with patches := (b.store.put q).patches, patchFull := (b.store.put q).full } ∧
        patched b p = b.store.put q := by
  rcases p with _ | ⟨section_, rest⟩
  · exact .inl ⟨rfl, rfl⟩
  dsimp only [Box.applyPatchFrame, patched, PatchStore.applyPatchFrame]
  by_cases happly : section_ = patchApply
  · rw [if_pos happly, if_pos happly]
    cases b.imperfect.allowed with
    | false => exact .inl ⟨rfl, rfl⟩
    | true => exact .inr (.inl ⟨rfl, rfl⟩)
  rw [if_neg happly, if_neg happly]
  by_cases hclear : section_ = patchClear
  · rw [if_pos hclear, if_pos hclear]
    exact .inr (.inr (.inl ⟨rfl, rfl⟩))
  rw [if_neg hclear, if_neg hclear]
  rcases rest with _ | ⟨cfg, _ | ⟨index, _ | ⟨offLo, _ | ⟨offHi, bytes⟩⟩⟩⟩
  iterate 4 exact .inl ⟨rfl, rfl⟩
  dsimp only
  by_cases hknown : (PatchSection.fromU8 section_).isNone
  · rw [if_pos hknown, if_pos hknown]
    exact .inl ⟨rfl, rfl⟩
  · rw [if_neg hknown, if_neg hknown]
    rw [Bool.not_eq_true, Option.isNone_eq_false_iff] at hknown
    exact .inr (.inr (.inr ⟨_, hknown, rfl, rfl⟩))

/-- A clip's own frames move the clip alone. -/
theorem applyClipAppendFrame_eq (b : Box) (p : List UInt8) :
    ∃ clip, b.applyClipAppendFrame p = { b with clip := clip } := by
  unfold Box.applyClipAppendFrame
  split <;> exact ⟨_, rfl⟩

theorem applyClipCtrlFrame_eq (b : Box) (p : List UInt8) :
    ∃ clip, b.applyClipCtrlFrame p = { b with clip := clip } := by
  unfold Box.applyClipCtrlFrame
  split <;> exact ⟨_, rfl⟩

theorem applyRebootDlFrame_cases (b : Box) (now : Nat) (p : List UInt8) :
    b.applyRebootDlFrame now p = b ∨ b.applyRebootDlFrame now p = b.restart now := by
  unfold Box.applyRebootDlFrame
  split
  · exact .inr rfl
  · exact .inl rfl

theorem fst_ite {α : Type} {P : Box → Prop} {c : Prop} [Decidable c] {x y : Box × α} (hx : P x.1)
    (hy : P y.1) : P (if c then x else y).1 := by
  split
  · exact hx
  · exact hy

/-- A query changes nothing but what a booting box still owes. -/
theorem fst_queryReply {P : Box → Prop} {b : Box} (h : P b) (hfirmware : P b.firmwareReply.1)
    (p : List UInt8) : P (b.queryReply p).1 := by
  unfold Box.queryReply
  split
  · exact h
  · exact fst_ite h <| fst_ite h <| fst_ite h <| fst_ite h <| fst_ite h <| fst_ite h <|
      fst_ite h <| fst_ite h <| fst_ite h <| fst_ite hfirmware <| fst_ite h <| fst_ite h <|
      fst_ite h <| fst_ite h <| fst_ite h <| fst_ite h h

/-- A reply moves the update sessions and what a booting box still owes, nothing else. -/
def Replied (b b' : Box) : Prop :=
  ∃ update seq unanswered pending, b' =
    { b with
      update := update
      updateDataSeq := seq
      firmwareUnanswered := unanswered
      firmwarePending := pending }

theorem replied_reply (digest : List UInt8 → Vector UInt8 32) (b : Box) (f : DecodedFrame) :
    Replied b (b.reply digest f).1 := by
  have hsame : Replied b b := ⟨_, _, _, _, rfl⟩
  unfold Box.reply
  split
  · exact hsame
  split
  · unfold Box.updateReply
    dsimp only
    have hmoved : Replied b (if b.activates f.payload then
        { b with
          update := (b.update.onUpdate digest f.payload).1
          firmwareUnanswered := b.reboot.1
          firmwarePending := b.reboot.2 }
      else { b with update := (b.update.onUpdate digest f.payload).1 }) := by
      split <;> exact ⟨_, _, _, _, rfl⟩
    obtain ⟨update, seq, unanswered, pending, hmoved⟩ := hmoved
    rw [hmoved]
    split
    · exact ⟨_, _, _, _, rfl⟩
    · split <;> exact ⟨_, _, _, _, rfl⟩
  · exact hsame
  · refine fst_queryReply (P := Replied b) hsame ?_ f.payload
    unfold Box.firmwareReply
    split <;> exact ⟨_, _, _, _, rfl⟩
  · exact hsame

section Beside

/-- The box beside its session, its clone and its patch store: what it stores and replies with. -/
def beside (b : Box) : Box :=
  { b with
    table := .default
    rewrites := .default
    transforms := .default
    clip := .default
    clipSettings := .default
    packetTriggers := []
    stats := Box.default.stats
    patches := []
    patchPresented := []
    patchRefused := false
    patchFull := false
    sessionDirty := false
    cloneUp := true
    cloneUpAt := none
    graceUntil := none
    deviceBack := false
    representHeld := false
    representAt := none }

/-- What reads nothing but that is the same of both boxes. -/
theorem eq_of_beside {α : Type} (f : Box → α) (hf : ∀ b, f (beside b) = f b) {b b' : Box}
    (h : beside b' = beside b) : f b' = f b := by
  rw [← hf b', h, hf b]

variable (b : Box) (now : Nat)

theorem beside_presentPatches : beside b.presentPatches = beside b := by
  unfold Box.presentPatches
  split
  · rfl
  · split <;> rfl

theorem beside_advance : beside (b.advance now) = beside b :=
  advance_keeps (P := fun b' => beside b' = beside b) rfl (fun _ h => h) (fun _ h => h)
    (fun _ h => h) (fun b' h => (beside_presentPatches b').trans h) fun _ h => h

theorem beside_applyPatchFrame (p : List UInt8) : beside (b.applyPatchFrame p) = beside b := by
  obtain ⟨hbox, -⟩ | ⟨hbox, -⟩ | ⟨hbox, -⟩ | ⟨q, -, hbox, -⟩ := applyPatchFrame_cases b p
  · rw [hbox]
  · rw [hbox, beside_presentPatches]
  · rw [hbox]
    exact beside_presentPatches _
  · rw [hbox]
    rfl

/-- A frame moves the rest only if it sets an option, resets or reboots. -/
theorem beside_applyFrame {ty : FrameType} (hoption : ty ≠ .option) (hreset : ty ≠ .reset)
    (hreboot : ty ≠ .rebootDl) (p : List UInt8) : beside (b.applyFrame now ty p) = beside b := by
  cases ty with
  | option => exact absurd rfl hoption
  | reset => exact absurd rfl hreset
  | rebootDl => exact absurd rfl hreboot
  | patch => exact beside_applyPatchFrame b p
  | clipAppend =>
    obtain ⟨_, hclip⟩ := applyClipAppendFrame_eq b p
    exact (congrArg beside hclip).trans rfl
  | clipCtrl =>
    obtain ⟨_, hclip⟩ := applyClipCtrlFrame_eq b p
    exact (congrArg beside hclip).trans rfl
  | _ => rfl

/-- A boot moves only whether the host was seen, and what is to be said of that. -/
theorem beside_applyRebootDlFrame (p : List UInt8) :
    ∃ seen said, beside (b.applyRebootDlFrame now p) =
      beside { b with pcSeen := seen, unsolicited := said } := by
  obtain hbox | hbox := applyRebootDlFrame_cases b now p
  · rw [hbox]
    exact ⟨_, _, rfl⟩
  · rw [hbox]
    exact ⟨_, _, rfl⟩

theorem beside_detach (back : Bool) : beside (b.detach now back) = beside b := by
  have hadvance := beside_advance b now
  unfold Box.detach
  dsimp only
  split <;> exact hadvance

theorem beside_attach : beside (b.attach now) = beside b := by
  have hadvance := beside_advance b now
  unfold Box.attach
  dsimp only
  split
  · exact hadvance
  · split <;> exact hadvance

theorem beside_clipPacket (class_ : TrafficClass) (id : UInt16) (direction : Direction)
    (head : List UInt8) : beside (b.clipPacket class_ id direction head).1 = beside b := by
  unfold Box.clipPacket
  split <;> rfl

end Beside

namespace Sound

variable {digest : List UInt8 → Vector UInt8 32} {b : Box}

theorem default : Sound .default where
  locks := Locks.BoxWf.default
  rules := .nil
  pairs := .nil
  patches := .nil
  presented := .nil
  packets := .nil
  spares := fun _ _ h => absurd h List.not_mem_nil
  downLocks := fun _ => rfl
  downPairs := fun _ => rfl
  held := fun h => Bool.noConfusion h

section Session

theorem countRelease (h : Sound b) : Sound b.countRelease := { h with }

theorem releaseSession (h : Sound b) : Sound b.releaseSession where
  locks := Locks.BoxWf.default
  rules := .nil
  pairs := .nil
  patches := h.patches
  presented := h.presented
  packets := .nil
  spares := fun _ _ h => absurd h List.not_mem_nil
  downLocks := fun _ => rfl
  downPairs := fun _ => rfl
  held := h.held

theorem clearClipConfig (h : Sound b) : Sound b.clearClipConfig :=
  { h with packets := .nil, spares := fun _ _ h => absurd h List.not_mem_nil }

theorem tearDown (h : Sound b) : Sound b.tearDown :=
  { h.countRelease.releaseSession with
    downLocks := fun _ => rfl
    downPairs := fun _ => rfl }

theorem toServe (h : Sound b) : Patches b.patchesToServe := by
  unfold Box.patchesToServe
  split
  · exact h.patches
  · exact .nil

theorem presentPatches (h : Sound b) : Sound b.presentPatches := by
  unfold Box.presentPatches
  split
  next hgrace => exact { h with held := fun _ => hgrace }
  split
  · have h' : Sound { b with patchPresented := b.patchesToServe, patchRefused := false } :=
      { h with presented := h.toServe }
    exact { h'.countRelease.releaseSession with }
  · exact h

theorem advance (h : Sound b) (now : Nat) : Sound (b.advance now) :=
  advance_keeps h
    (fun _ h => { h with downLocks := Bool.noConfusion, downPairs := Bool.noConfusion })
    (fun _ h => { h with held := Bool.noConfusion }) (fun _ h => { h with })
    (fun _ h => h.presentPatches) fun _ h => h.tearDown

theorem restart (h : Sound b) (now : Nat) : Sound (b.restart now) :=
  { h.releaseSession with
    presented := h.releaseSession.toServe
    downLocks := fun _ => rfl
    downPairs := fun _ => rfl
    held := Bool.noConfusion }

end Session

section Frames

theorem resetPersistent (h : Sound b) (hpackets : b.packetTriggers = []) :
    Sound b.resetPersistent :=
  { h with
    patches := .nil
    presented := .nil
    spares := fun _ _ hr => absurd (hpackets ▸ hr) List.not_mem_nil }

theorem applyImperfect (h : Sound b) (now : Nat) (allow : Bool) :
    Sound (b.applyImperfect now allow) := by
  have h' : Sound { b with
      imperfect := { b.imperfect with allowed := false }
      packetTriggers := PacketTriggers.dropConsuming b.packetTriggers
      rewrites := .default } :=
    { h with
      rules := .nil
      packets := h.packets.sublist List.filter_sublist
      spares := fun _ => spares_dropConsuming _ }
  unfold Box.applyImperfect
  cases allow with
  | true =>
    dsimp only
    split
    · exact { h with spares := Bool.noConfusion }
    · exact { h with spares := Bool.noConfusion }
  | false =>
    dsimp only
    split
    · exact { h' with }
    · exact { h' with }

theorem applyOptionFrame (h : Sound b) (now : Nat) (p : List UInt8) :
    Sound (b.applyOptionFrame now p) := by
  obtain ⟨allow, hopt⟩ | ⟨v, hv, ms, bearing, pace, force, mode, full, percent, hopt⟩ :=
    applyOptionFrame_cases b now p
  · exact hopt ▸ h.applyImperfect now allow
  · exact hopt ▸ { h with }

theorem applyLockFrame (h : Sound b) (p : List UInt8) : Sound (b.applyLockFrame p) :=
  { h with
    locks := applyLockFrame_wf h.locks _ _ _
    downLocks := fun hdown => by
      have hdown : b.cloneUp = false := hdown
      change b.table.applyLockFrame b.cloneUp _ p = _
      rw [hdown, applyLockFrame_down, h.downLocks hdown] }

theorem applyRewriteFrame (h : Sound b) (p : List UInt8) : Sound (b.applyRewriteFrame p) :=
  { h with rules := rules_applyRewriteFrame h.rules _ p }

theorem applyTransformFrame (h : Sound b) (p : List UInt8) : Sound (b.applyTransformFrame p) :=
  { h with
    pairs := pairs_applyTransformFrame h.pairs _ _ p
    downPairs := fun hdown => by
      have hdown : b.cloneUp = false := hdown
      change b.transforms.applyTransformFrame _ b.cloneUp p = _
      rw [hdown, h.downPairs hdown]
      exact applyTransformFrame_down _ p }

theorem applyClipTriggerFrame (h : Sound b) (p : List UInt8) :
    Sound (b.applyClipTriggerFrame p) :=
  { h with
    packets := h.packets.applyClipTriggerFrame _ p
    spares := fun hoff => by
      have hoff : b.imperfect.allowed = false := hoff
      change ∀ r ∈ PacketTriggers.applyClipTriggerFrame b.packetTriggers b.imperfect.allowed p, _
      rw [hoff]
      exact spares_applyClipTriggerFrame (h.spares hoff) p }

theorem applyPatchFrame (h : Sound b) (p : List UInt8) : Sound (b.applyPatchFrame p) := by
  obtain ⟨hbox, -⟩ | ⟨hbox, -⟩ | ⟨hbox, -⟩ | ⟨q, hknown, hbox, -⟩ := applyPatchFrame_cases b p
  · rw [hbox]
    exact h
  · exact hbox ▸ h.presentPatches
  · have h' : Sound { b with patches := [], patchRefused := false, patchFull := false } :=
      { h with patches := .nil }
    exact hbox ▸ h'.presentPatches
  · exact hbox ▸ { h with patches := patches_put (s := b.store) h.patches hknown }

theorem applyResetFrame (h : Sound b) (now : Nat) (p : List UInt8) :
    Sound (b.applyResetFrame now p) := by
  unfold Box.applyResetFrame
  split
  · exact h
  · have h' : Sound { b with
        table := .default
        rewrites := b.rewrites.clear
        transforms := .default } :=
      { h with
        locks := Locks.BoxWf.default
        rules := .nil
        pairs := .nil
        downLocks := fun _ => rfl
        downPairs := fun _ => rfl }
    dsimp only
    split
    · exact (h'.clearClipConfig.countRelease.resetPersistent rfl).restart now
    · exact h'.clearClipConfig.countRelease

theorem applyClipAppendFrame (h : Sound b) (p : List UInt8) : Sound (b.applyClipAppendFrame p) := by
  obtain ⟨_, hclip⟩ := applyClipAppendFrame_eq b p
  exact hclip ▸ { h with }

theorem applyClipCtrlFrame (h : Sound b) (p : List UInt8) : Sound (b.applyClipCtrlFrame p) := by
  obtain ⟨_, hclip⟩ := applyClipCtrlFrame_eq b p
  exact hclip ▸ { h with }

theorem applyRebootDlFrame (h : Sound b) (now : Nat) (p : List UInt8) :
    Sound (b.applyRebootDlFrame now p) := by
  obtain hbox | hbox := applyRebootDlFrame_cases b now p
  · rw [hbox]
    exact h
  · exact hbox ▸ h.restart now

/-- One case for each frame the box acts on. -/
theorem applyFrame (h : Sound b) (now : Nat) (ty : FrameType) (p : List UInt8) :
    Sound (b.applyFrame now ty p) := by
  cases ty with
  | lock => exact h.applyLockFrame p
  | option => exact h.applyOptionFrame now p
  | rewrite => exact h.applyRewriteFrame p
  | patch => exact h.applyPatchFrame p
  | transform => exact h.applyTransformFrame p
  | clipTrigger => exact h.applyClipTriggerFrame p
  | reset => exact h.applyResetFrame now p
  | clipAppend => exact h.applyClipAppendFrame p
  | clipCtrl => exact h.applyClipCtrlFrame p
  | rebootDl => exact h.applyRebootDlFrame now p
  | _ => exact h

theorem reply (h : Sound b) (f : DecodedFrame) : Sound (b.reply digest f).1 := by
  obtain ⟨_, _, _, _, heq⟩ := replied_reply digest b f
  exact heq ▸ { h with }

theorem onFrame (h : Sound b) (now : Nat) (f : DecodedFrame) :
    Sound (b.onFrame digest now f).1 := by
  have hseen : Sound { b with pcSeen := true } := { h with }
  unfold Box.onFrame
  dsimp only
  have hdirty : ∀ {b' : Box} {c : Prop} [Decidable c], Sound b' →
      Sound (if c then { b' with sessionDirty := true } else b') := by
    intro b' c _ h'
    split
    · exact { h' with }
    · exact h'
  have hrun := (hdirty (c := (decide (f.ty ≠ .query ∧ f.ty ≠ .reset)) = true)
    (hseen.advance now)).applyFrame now f.ty f.payload
  exact { hdirty (hrun.reply f) with }

end Frames

section Events

theorem onRestart (h : Sound b) (now : Nat) : Sound (b.onRestart now).1 := { h.restart now with }

theorem linkLost (h : Sound b) (now : Nat) : Sound (b.linkLost now) :=
  (h.advance now).countRelease.releaseSession

theorem detach (h : Sound b) (now : Nat) (back : Bool) : Sound (b.detach now back) := by
  have h' := (h.advance now).countRelease.releaseSession
  unfold Box.detach
  dsimp only
  split
  · exact h'
  · exact { h' with held := fun _ => rfl }

theorem attach (h : Sound b) (now : Nat) : Sound (b.attach now) := by
  have h' := h.advance now
  unfold Box.attach
  dsimp only
  split
  · exact { h' with }
  split
  · exact h'
  · exact { h' with
      presented := h'.toServe, downLocks := Bool.noConfusion, downPairs := Bool.noConfusion }

theorem clipPacket (h : Sound b) (class_ : TrafficClass) (id : UInt16) (direction : Direction)
    (head : List UInt8) : Sound (b.clipPacket class_ id direction head).1 := by
  unfold Box.clipPacket
  split
  · exact h
  · have hbare := serve_bare b.packetTriggers ⟨class_.asU8, id, direction.asU8, head⟩
    exact { h with
      packets := h.packets.of_bare hbare
      spares := fun hoff => spares_of_bare (h.spares hoff) hbare }

theorem scriptClipSettings (h : Sound b) (settings : ClipSettings) :
    Sound (b.scriptClipSettings settings) :=
  { h with
    packets := foldl_triggers .nil _ _
    spares := fun hoff => by
      have hoff : b.imperfect.allowed = false := hoff
      unfold Box.scriptClipSettings
      rw [hoff]
      exact foldl_spares (fun _ hr => absurd hr List.not_mem_nil) _ }

theorem scriptImperfect (h : Sound b) (imperfect : ImperfectStatus) :
    Sound (b.scriptImperfect imperfect) := by
  unfold Box.scriptImperfect
  split
  next hon => exact { h with spares := fun hoff => Bool.noConfusion (hon.symm.trans hoff) }
  · exact { h with
      packets := h.packets.sublist List.filter_sublist
      spares := fun _ => spares_dropConsuming _ }

theorem script (h : Sound b) (s : Box.Script) : Sound (b.script s) := by
  cases s with
  | imperfect i => exact h.scriptImperfect i
  | clipSettings c => exact h.scriptClipSettings c
  | _ => exact { h with }

theorem step (h : Sound b) (now : Nat) (e : Box.Event) : Sound (b.step digest now e).1 := by
  cases e with
  | frame f => exact h.onFrame now f
  | restart => exact h.onRestart now
  | linkLost => exact h.linkLost now
  | detach back => exact h.detach now back
  | attach => exact h.attach now
  | packet class_ id direction head => exact h.clipPacket class_ id direction head
  | script s => exact h.script s

end Events

end Sound

/-- Whatever frames arrive, in whatever order, with the device going and coming back. -/
theorem sound_of_reachable {digest : List UInt8 → Vector UInt8 32} {ok : Box.Event → Prop}
    {t : Nat} {b : Box} (h : Box.Reachable digest ok t b) : Sound b := by
  induction h with
  | default => exact .default
  | step e _ _ _ ih => exact ih.step _ e

section Runs

variable (digest : List UInt8 → Vector UInt8 32)

/-- The box after a run of timed events. -/
def run (b : Box) (events : List (Nat × Box.Event)) : Box :=
  events.foldl (fun b e => (b.step digest e.1 e.2).1) b

variable {digest}

theorem reachable_run {ok : Box.Event → Prop} {t : Nat} {b : Box}
    (h : Box.Reachable digest ok t b) {events : List Box.Event} (hok : ∀ e ∈ events, ok e) :
    Box.Reachable digest ok t (run digest b (events.map (t, ·))) := by
  induction events generalizing b with
  | nil => exact h
  | cons e events ih =>
    rw [List.forall_mem_cons] at hok
    exact ih (.step e hok.1 h (Nat.le_refl t)) hok.2

/-- Frames that leave something in every table; the patches are presented first, for that releases
what the others set. -/
def furnishing : List DecodedFrame :=
  [⟨.option, 1, imperfectPayload true⟩,
    ⟨.patch, 2, patchPayload patchSecDevice 0 0 8 [0x6D, 4]⟩,
    ⟨.patch, 3, patchPayload patchSecString 0 2 0 [0x41, 0x42, 0x43]⟩,
    ⟨.patch, 4, [patchApply]⟩,
    ⟨.lock, 5, lockPayload lockClsBtn 0 0 lockScaleBlock⟩,
    ⟨.rewrite, 6, rewritePayload catchClsHidIn 1 1 1 rwReplace 0 [1] [0xFF] [2, 3]⟩,
    ⟨.rewrite, 7,
      rewritePayload catchClsControl catchIdAny 0 1 rwAnswer 0 [0x21, 9] [0xFF, 0xFF] [7]⟩,
    ⟨.transform, 8, transformPayload tfSwap catchClsAxis 0 catchClsAxis 1 1⟩,
    ⟨.clipTrigger, 9,
      clipPacketTriggerPayload catchClsHidIn 1 1 clipOpStart
        (clipTrigFPresent ||| clipTrigFConsume) 0 [5] [0xFF]⟩]

def furnished : Box :=
  run (fun _ => Vector.replicate 32 0) .default (furnishing.map fun f => (0, .frame f))

theorem reachable_furnished {ok : Box.Event → Prop} (hok : ∀ f, ok (.frame f)) :
    Box.Reachable (fun _ => Vector.replicate 32 0) ok 0 furnished := by
  have hevents : ∀ e ∈ furnishing.map Box.Event.frame, ok e := fun e he => by
    obtain ⟨f, -, rfl⟩ := List.mem_map.mp he
    exact hok f
  have hreached := @reachable_run (fun _ => Vector.replicate 32 0) ok 0 _ .default _ hevents
  rw [List.map_map] at hreached
  exact hreached

end Runs

end Medius.Machine
