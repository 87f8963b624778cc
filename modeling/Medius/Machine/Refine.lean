import Medius.Machine.Queries

/-! The whole box seen as the tables its session frames write, and as the patches it stores: while
nothing is due, a frame does to each what that table's own handler does. -/

namespace Medius.Machine

open Protocol Mock Medius.Types

variable {digest : List UInt8 → Vector UInt8 32} {b : Box} {now : Nat}

section Quiet

/-- Nothing the box owes is due by `now`. -/
structure Quiet (b : Box) (now : Nat) : Prop where
  clone : b.cloneUpAt.any (· ≤ now) = false
  grace : b.graceUntil.any (· ≤ now) = false
  represent : b.representAt.any (· ≤ now) = false

theorem any_le_of_le {d : Option Nat} {t : Nat} (h : d.any (· ≤ t) = false) (hle : now ≤ t) :
    d.any (· ≤ now) = false := by
  cases d with
  | none => rfl
  | some d =>
    have hlate : ¬d ≤ t := of_decide_eq_false h
    exact decide_eq_false fun hdue => hlate (hdue.trans hle)

theorem Quiet.of_le {t : Nat} (h : Quiet b t) (hle : now ≤ t) : Quiet b now where
  clone := any_le_of_le h.clone hle
  grace := any_le_of_le h.grace hle
  represent := any_le_of_le h.represent hle

theorem Quiet.arrived (h : Quiet b now) : arrived b now = { b with pcSeen := true } := by
  have hclone : cloneDue now { b with pcSeen := true } = { b with pcSeen := true } := by
    rw [cloneDue, h.clone]
    rfl
  have hgrace : graceDue now { b with pcSeen := true } = { b with pcSeen := true } := by
    rw [graceDue, h.grace]
    rfl
  rw [Machine.arrived, advance_eq, hclone, hgrace, representDue, h.represent]
  rfl

end Quiet

section Tables

variable (b now)

theorem tables_applyImperfect (allow : Bool) :
    (b.applyImperfect now allow).tables =
      if allow then { b.tables with imperfect := true }
      else
        { b.tables with
          imperfect := false
          packetTriggers := PacketTriggers.dropConsuming b.packetTriggers
          rewrites := .default } := by
  unfold Box.applyImperfect
  cases allow with
  | true => dsimp only; split <;> rfl
  | false => dsimp only; split <;> rfl

/-- The other options are beside the tables. -/
theorem tables_applyOptionFrame_of_ne {option : UInt8} (hopt : option ≠ optImperfect)
    (p : List UInt8) : (b.applyOptionFrame now (option :: p)).tables = b.tables := by
  unfold Box.applyOptionFrame
  dsimp only
  rw [if_neg hopt]
  split
  · split <;> rfl
  split
  · split
    · unfold Box.applyEmit
      dsimp only
      split <;> rfl
    · rfl
  split
  · split
    · unfold Box.applyRender
      split
      · split <;> rfl
      · rfl
    · rfl
  split
  · split <;> rfl
  split
  · rfl
  split
  · split
    · unfold Box.applyBearing
      split <;> rfl
    · rfl
  · rfl

theorem tables_applyOptionFrame (p : List UInt8) :
    (b.applyOptionFrame now p).tables = b.tables.applyOptionFrame p := by
  rcases p with _ | ⟨option, rest⟩
  · rfl
  by_cases hopt : option = optImperfect
  · subst hopt
    cases rest with
    | nil => rfl
    | cons allow rest =>
      change (b.applyImperfect now (allow ≠ 0)).tables = _
      rw [tables_applyImperfect, State.applyOptionFrame, if_pos rfl]
      by_cases hallow : allow = 0
      · simp [hallow, Box.tables]
      · simp [hallow, Box.tables]
  · rw [tables_applyOptionFrame_of_ne b now hopt]
    cases rest with
    | nil => rfl
    | cons allow rest => exact (if_neg hopt).symm

/-- A `PATCH`, a `RESET` and a boot release the session, and no other frame does. -/
theorem tables_applyFrame {ty : FrameType} (hpatch : ty ≠ .patch) (hreset : ty ≠ .reset)
    (hreboot : ty ≠ .rebootDl) (p : List UInt8) :
    (b.applyFrame now ty p).tables = b.tables.applyTableFrame ty p := by
  cases ty with
  | patch => exact absurd rfl hpatch
  | reset => exact absurd rfl hreset
  | rebootDl => exact absurd rfl hreboot
  | option => exact tables_applyOptionFrame b now p
  | clipAppend =>
    obtain ⟨_, hclip⟩ := applyClipAppendFrame_eq b p
    exact (congrArg Box.tables hclip).trans rfl
  | clipCtrl =>
    obtain ⟨_, hclip⟩ := applyClipCtrlFrame_eq b p
    exact (congrArg Box.tables hclip).trans rfl
  | _ => rfl

end Tables

section Store

/-- The store without its count, which a box keeps with its other statistics. -/
def uncounted (s : PatchStore) : PatchStore := { s with represented := 0 }

theorem uncounted_present (allowed grace : Bool) (s : PatchStore) :
    uncounted ((uncounted s).present allowed grace) = uncounted (s.present allowed grace) := by
  change uncounted (if _ then _ else if s.toServe allowed ≠ s.presented then _ else _) =
    uncounted (if _ then _ else _)
  split
  · rfl
  · split <;> rfl

theorem uncounted_put (s : PatchStore) (q : MockPatch) :
    (uncounted s).put q = uncounted (s.put q) := by
  unfold PatchStore.put
  change (if _ then _ else if _ then _ else _) = uncounted (if _ then _ else if _ then _ else _)
  by_cases hempty : q.bytes.isEmpty
  · rw [if_pos hempty, if_pos hempty]
    dsimp only [uncounted]
    split <;> rfl
  rw [if_neg hempty, if_neg hempty, apply_ite uncounted, apply_ite uncounted]
  rfl

/-- A put writes the stored set and whether it was full, nothing else. -/
theorem put_eq (s : PatchStore) (q : MockPatch) :
    s.put q = { s with patches := (s.put q).patches, full := (s.put q).full } := by
  unfold PatchStore.put
  dsimp only
  split
  · split <;> rfl
  split
  · rfl
  · split <;> rfl

/-- No patch frame reads the count. -/
theorem uncounted_applyPatchFrame (allowed grace : Bool) (s : PatchStore) (p : List UInt8) :
    uncounted ((uncounted s).applyPatchFrame allowed grace p) =
      uncounted (s.applyPatchFrame allowed grace p) := by
  unfold PatchStore.applyPatchFrame
  split
  · rfl
  split
  · split
    · exact uncounted_present allowed grace s
    · rfl
  split
  · exact uncounted_present allowed grace { s with patches := [], refused := false, full := false }
  split
  · split
    · rfl
    · exact (congrArg uncounted (uncounted_put s _)).trans rfl
  · rfl

theorem uncounted_foldl (allowed grace : Bool) (frames : List (List UInt8)) (s : PatchStore) :
    uncounted (frames.foldl (fun s p => s.applyPatchFrame allowed grace p) (uncounted s)) =
      uncounted (frames.foldl (fun s p => s.applyPatchFrame allowed grace p) s) := by
  induction frames generalizing s with
  | nil => rfl
  | cons p frames ih =>
    rw [List.foldl_cons, List.foldl_cons, ← ih, uncounted_applyPatchFrame, ih]

variable (b)

theorem store_presentPatches : b.presentPatches.store =
    uncounted (b.store.present b.imperfect.allowed b.graceUntil.isSome) := by
  unfold Box.presentPatches PatchStore.present
  by_cases hgrace : b.graceUntil.isSome
  · rw [if_pos hgrace, if_pos hgrace]
    rfl
  · rw [if_neg hgrace, if_neg hgrace]
    change (if b.patchesToServe ≠ b.patchPresented then _ else b).store =
      uncounted (if b.patchesToServe ≠ b.patchPresented then _ else b.store)
    split <;> rfl

theorem store_applyPatchFrame (p : List UInt8) :
    (b.applyPatchFrame p).store = uncounted (patched b p) := by
  obtain ⟨hbox, hstore⟩ | ⟨hbox, hstore⟩ | ⟨hbox, hstore⟩ | ⟨q, -, hbox, hstore⟩ :=
    applyPatchFrame_cases b p
  · rw [hbox, hstore]
    rfl
  · rw [hbox, hstore, store_presentPatches]
  · rw [hbox, hstore]
    exact store_presentPatches { b with patches := [], patchRefused := false, patchFull := false }
  · rw [hbox, hstore, put_eq]
    rfl

/-- A presentation that changes what the clone shows releases the session. -/
theorem tables_presentPatches : b.presentPatches.tables =
    if (b.store.present b.imperfect.allowed b.graceUntil.isSome).represented = 0 then b.tables
    else .empty b.imperfect.allowed (fieldCaps b.caps) b.cloneUp := by
  unfold Box.presentPatches PatchStore.present
  by_cases hgrace : b.graceUntil.isSome
  · rw [if_pos hgrace, if_pos hgrace]
    rfl
  · rw [if_neg hgrace, if_neg hgrace]
    change (if b.patchesToServe ≠ b.patchPresented then _ else b).tables =
      if (if b.patchesToServe ≠ b.patchPresented then _ else b.store).represented = 0 then _ else _
    split <;> rfl

theorem tables_applyPatchFrame (p : List UInt8) : (b.applyPatchFrame p).tables =
    if (patched b p).represented = 0 then b.tables
    else .empty b.imperfect.allowed (fieldCaps b.caps) b.cloneUp := by
  obtain ⟨hbox, hstore⟩ | ⟨hbox, hstore⟩ | ⟨hbox, hstore⟩ | ⟨q, -, hbox, hstore⟩ :=
    applyPatchFrame_cases b p
  · rw [hbox, hstore]
    rfl
  · rw [hbox, hstore, tables_presentPatches]
  · rw [hbox, hstore]
    exact tables_presentPatches { b with patches := [], patchRefused := false, patchFull := false }
  · rw [hbox, hstore, put_eq]
    rfl

end Store

section Runs

/-- What a presentation or a table frame later depends on beside the tables themselves. -/
structure Owed where
  clone : Option Nat
  grace : Option Nat
  represent : Option Nat
  allowed : Bool

def owed (b : Box) : Owed := ⟨b.cloneUpAt, b.graceUntil, b.representAt, b.imperfect.allowed⟩

/-- The frames after which nothing more is due. -/
def Lasting (ty : FrameType) : Prop := ty ≠ .option ∧ ty ≠ .reset ∧ ty ≠ .rebootDl

theorem owed_presentPatches (b : Box) : owed b.presentPatches = owed b := by
  unfold Box.presentPatches
  split
  · rfl
  · split <;> rfl

/-- Such a frame writes nothing but the session, unless it is a patch. -/
theorem applyFrame_session (b : Box) (now : Nat) {ty : FrameType} (hty : Lasting ty)
    (hpatch : ty ≠ .patch) (p : List UInt8) :
    ∃ table rewrites transforms clip clipSettings packetTriggers, b.applyFrame now ty p =
      { b with
        table := table
        rewrites := rewrites
        transforms := transforms
        clip := clip
        clipSettings := clipSettings
        packetTriggers := packetTriggers } := by
  cases ty with
  | option => exact absurd rfl hty.1
  | reset => exact absurd rfl hty.2.1
  | rebootDl => exact absurd rfl hty.2.2
  | patch => exact absurd rfl hpatch
  | clipAppend =>
    obtain ⟨_, hclip⟩ := applyClipAppendFrame_eq b p
    exact ⟨_, _, _, _, _, _, hclip⟩
  | clipCtrl =>
    obtain ⟨_, hclip⟩ := applyClipCtrlFrame_eq b p
    exact ⟨_, _, _, _, _, _, hclip⟩
  | _ => exact ⟨_, _, _, _, _, _, rfl⟩

theorem owed_applyFrame (b : Box) (now : Nat) {ty : FrameType} (hty : Lasting ty)
    (p : List UInt8) : owed (b.applyFrame now ty p) = owed b := by
  by_cases hpatch : ty = .patch
  · subst hpatch
    change owed (b.applyPatchFrame p) = owed b
    obtain ⟨hbox, -⟩ | ⟨hbox, -⟩ | ⟨hbox, -⟩ | ⟨q, -, hbox, -⟩ := applyPatchFrame_cases b p
    · rw [hbox]
    · rw [hbox, owed_presentPatches]
    · rw [hbox]
      exact owed_presentPatches _
    · rw [hbox]
      rfl
  · obtain ⟨_, _, _, _, _, _, heq⟩ := applyFrame_session b now hty hpatch p
    rw [heq]
    rfl

theorem store_applyFrame (b : Box) (now : Nat) {ty : FrameType} (hty : Lasting ty)
    (p : List UInt8) :
    (b.applyFrame now ty p).store = if ty = .patch then uncounted (patched b p) else b.store := by
  by_cases hpatch : ty = .patch
  · subst hpatch
    exact store_applyPatchFrame b p
  · obtain ⟨_, _, _, _, _, _, heq⟩ := applyFrame_session b now hty hpatch p
    rw [heq, if_neg hpatch]
    rfl

/-- The box but for what a frame marks and what a reply moves. -/
def unmarked (b : Box) : Box :=
  { b with
    update := {}
    updateDataSeq := 0
    firmwareUnanswered := 0
    firmwarePending := 0
    pcSeen := true
    sessionDirty := false
    unsolicited := [] }

theorem eq_of_unmarked {α : Type} (f : Box → α) (hf : ∀ b, f (unmarked b) = f b) {b b' : Box}
    (h : unmarked b' = unmarked b) : f b' = f b := by
  rw [← hf b', h, hf b]

variable (digest)

/-- With nothing due, the frame's own handler is the rest of what it does. -/
theorem Quiet.unmarked_onFrame (h : Quiet b now) (f : DecodedFrame) :
    ∃ b', unmarked b' = unmarked b ∧
      unmarked (b.onFrame digest now f).1 = unmarked (b'.applyFrame now f.ty f.payload) := by
  obtain ⟨b', b'', ⟨dirty, hb'⟩, ⟨dirty', hb''⟩, heq⟩ := @onFrame_cases digest b now f
  obtain ⟨update, seq, unanswered, pending, hreply⟩ :=
    replied_reply digest (b'.applyFrame now f.ty f.payload) f
  refine ⟨b', ?_, ?_⟩
  · rw [hb', h.arrived]
    rfl
  · rw [heq, hb'', hreply]
    rfl

variable {t : Nat}

theorem Quiet.of_owed {b' : Box} (h : Quiet b t) (howed : owed b' = owed b) : Quiet b' t where
  clone := (congrArg (·.clone.any (· ≤ t)) howed).trans h.clone
  grace := (congrArg (·.grace.any (· ≤ t)) howed).trans h.grace
  represent := (congrArg (·.represent.any (· ≤ t)) howed).trans h.represent

theorem Quiet.owed_onFrame (h : Quiet b now) {f : DecodedFrame} (hty : Lasting f.ty) :
    owed (b.onFrame digest now f).1 = owed b := by
  obtain ⟨b', hb', heq⟩ := h.unmarked_onFrame digest f
  calc
    owed (b.onFrame digest now f).1 = owed (b'.applyFrame now f.ty f.payload) :=
      eq_of_unmarked owed (fun _ => rfl) heq
    _ = owed b' := owed_applyFrame b' now hty f.payload
    _ = owed b := eq_of_unmarked owed (fun _ => rfl) hb'

theorem Quiet.tables_onFrame (h : Quiet b now) {f : DecodedFrame} (hpatch : f.ty ≠ .patch)
    (hreset : f.ty ≠ .reset) (hreboot : f.ty ≠ .rebootDl) :
    (b.onFrame digest now f).1.tables = b.tables.applyTableFrame f.ty f.payload := by
  obtain ⟨b', hb', heq⟩ := h.unmarked_onFrame digest f
  have htables : b'.tables = b.tables := eq_of_unmarked Box.tables (fun _ => rfl) hb'
  calc
    (b.onFrame digest now f).1.tables = (b'.applyFrame now f.ty f.payload).tables :=
      eq_of_unmarked Box.tables (fun _ => rfl) heq
    _ = b'.tables.applyTableFrame f.ty f.payload :=
      tables_applyFrame b' now hpatch hreset hreboot f.payload
    _ = b.tables.applyTableFrame f.ty f.payload := by rw [htables]

theorem Quiet.store_onFrame (h : Quiet b now) {f : DecodedFrame} (hty : Lasting f.ty) :
    (b.onFrame digest now f).1.store =
      if f.ty = .patch then uncounted (patched b f.payload) else b.store := by
  obtain ⟨b', hb', heq⟩ := h.unmarked_onFrame digest f
  have hstore : b'.store = b.store := eq_of_unmarked Box.store (fun _ => rfl) hb'
  have hpatched : patched b' f.payload = patched b f.payload := 
    eq_of_unmarked (patched · f.payload) (fun _ => rfl) hb'
  calc
    (b.onFrame digest now f).1.store = (b'.applyFrame now f.ty f.payload).store :=
      eq_of_unmarked Box.store (fun _ => rfl) heq
    _ = _ := store_applyFrame b' now hty f.payload
    _ = _ := by rw [hstore, hpatched]

def deliveries (frames : List (Nat × DecodedFrame)) : List (Nat × Box.Event) :=
  frames.map fun f => (f.1, .frame f.2)

def contents (frames : List (Nat × DecodedFrame)) : List (FrameType × List UInt8) :=
  frames.map fun f => (f.2.ty, f.2.payload)

/-- A whole session's frames leave the tables as the tables alone take them. -/
theorem tables_run {frames : List (Nat × DecodedFrame)} (h : Quiet b t)
    (hframes : ∀ f ∈ frames, f.1 ≤ t ∧ Lasting f.2.ty ∧ f.2.ty ≠ .patch) :
    (run digest b (deliveries frames)).tables =
      b.tables.applyFrames (contents frames) := by
  induction frames generalizing b with
  | nil => rfl
  | cons f frames ih =>
    rw [List.forall_mem_cons] at hframes
    obtain ⟨⟨hle, hty, hpatch⟩, hframes⟩ := hframes
    have hnow := h.of_le hle
    have ih := ih (h.of_owed (hnow.owed_onFrame digest hty)) hframes
    rw [hnow.tables_onFrame digest hpatch hty.2.1 hty.2.2] at ih
    exact ih

/-- And the patches are what the store alone makes of its own frames. -/
theorem store_run {frames : List (Nat × DecodedFrame)} (h : Quiet b t)
    (hframes : ∀ f ∈ frames, f.1 ≤ t ∧ Lasting f.2.ty) :
    (run digest b (deliveries frames)).store =
      uncounted ((State.payloads .patch (contents frames)).foldl
        (fun s p => s.applyPatchFrame b.imperfect.allowed b.graceUntil.isSome p) b.store) := by
  induction frames generalizing b with
  | nil => rfl
  | cons f frames ih =>
    rw [List.forall_mem_cons] at hframes
    obtain ⟨⟨hle, hty⟩, hframes⟩ := hframes
    have hnow := h.of_le hle
    have howed := hnow.owed_onFrame digest hty
    have ih := ih (h.of_owed howed) hframes
    have hallowed : (b.onFrame digest f.1 f.2).1.imperfect.allowed = b.imperfect.allowed :=
      congrArg Owed.allowed howed
    have hgrace : (b.onFrame digest f.1 f.2).1.graceUntil = b.graceUntil :=
      congrArg Owed.grace howed
    rw [hallowed, hgrace, hnow.store_onFrame digest hty] at ih
    by_cases hpatch : f.2.ty = .patch
    · rw [if_pos hpatch, uncounted_foldl] at ih
      have hpayloads : State.payloads .patch (contents (f :: frames)) =
          f.2.payload :: State.payloads .patch (contents frames) :=
        List.filterMap_cons_some (if_pos hpatch)
      rw [hpayloads]
      exact ih
    · rw [if_neg hpatch] at ih
      have hpayloads : State.payloads .patch (contents (f :: frames)) =
          State.payloads .patch (contents frames) := List.filterMap_cons_none (if_neg hpatch)
      rw [hpayloads]
      exact ih

end Runs

end Medius.Machine
