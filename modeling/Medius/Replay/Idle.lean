import Medius.Link.Reconnect
import Medius.Link.Tables
import Medius.Locks.Replay
import Medius.Locks.Undo

/-! The keepalive's idle test against the frames a recovery would send. -/

namespace Medius.Replay

open Protocol Link Locks Medius.Types

def overwritten (d : DesiredState) : DesiredOp → List LockUndo
  | .applyLock key scale => [(d.applyLock key scale).2]
  | _ => []

/-- A state some sequence of operations leaves, and what its locks overwrote on the way; only
that can be put back. -/
inductive Performed : DesiredState → List LockUndo → Prop
  | default : Performed .default []
  | perform {d : DesiredState} {undos : List LockUndo} (op : DesiredOp) : Performed d undos →
      (∀ undo, op = .restoreLock undo → undo ∈ undos) →
      Performed (d.perform op) (overwritten d op ++ undos)

/-- No row put back would be one with every slot at pass. -/
def UndoNoClear (undo : LockUndo) : Prop := ∀ row ∈ undo.rows, row.2 ≠ some Slots.default

theorem UndoNoClear.append {undo : LockUndo} {rows : List (Address × Option Slots)}
    (h : UndoNoClear undo) (hr : ∀ row ∈ rows, row.2 ≠ some Slots.default) :
    UndoNoClear { undo with rows := undo.rows ++ rows } := by
  intro row hrow
  obtain hrow | hrow := List.mem_append.mp hrow
  · exact h row hrow
  · exact hr row hrow

section Undo

variable {d : DesiredState} {undo : LockUndo}

theorem UndoNoClear.writeLockRow (h : UndoNoClear undo) (hd : NoClear d) (class_ : UInt8)
    (id : UInt16) (dir : UInt8) (scale : Int16) :
    UndoNoClear (d.writeLockRow class_ id dir scale undo).2 := by
  rw [undo_writeLockRow]
  refine h.append fun row hmem => ?_
  rw [List.mem_singleton.mp hmem]
  exact hd _

theorem UndoNoClear.clearButtonRows (h : UndoNoClear undo) (hd : NoClear d) :
    UndoNoClear (d.clearButtonRows undo).2 := by
  refine h.append fun row hmem => ?_
  obtain ⟨k, -, rfl⟩ := List.mem_map.mp hmem
  exact hd k

theorem UndoNoClear.burstButtonBlanket (h : UndoNoClear undo) (hd : NoClear d) :
    UndoNoClear (d.burstButtonBlanket undo).2 := by
  unfold DesiredState.burstButtonBlanket
  dsimp only
  split
  · exact h
  next blanket hb =>
    rw [List.append_assoc]
    refine h.append fun row hmem => ?_
    obtain hmem | hmem := List.mem_append.mp hmem
    · obtain ⟨k, -, rfl⟩ := List.mem_map.mp hmem
      nofun
    · rw [List.mem_singleton.mp hmem, ← hb]
      exact hd _

theorem undoNoClear_applyLock (hd : NoClear d) (key : LockKey) (scale : Int16) :
    UndoNoClear (d.applyLock key scale).2 := by
  have hempty : UndoNoClear ⟨[], d.mediaOrder⟩ := fun row hrow => absurd hrow List.not_mem_nil
  unfold DesiredState.applyLock
  dsimp only
  split_ifs
  · exact (hempty.clearButtonRows hd).writeLockRow (no_clear_clearButtonRows hd _) _ _ _ _
  · exact (hempty.burstButtonBlanket hd).writeLockRow (no_clear_burstButtonBlanket hd rfl _) _ _ _ _
  · exact hempty.writeLockRow hd _ _ _ _

theorem noClear_applyLock (hd : NoClear d) (key : LockKey) (scale : Int16) :
    NoClear (d.applyLock key scale).1 := by
  unfold DesiredState.applyLock
  dsimp only
  split_ifs
  · exact no_clear_writeLockRow _ _ _ _ _ _ (no_clear_clearButtonRows hd _)
  · exact no_clear_writeLockRow _ _ _ _ _ _ (no_clear_burstButtonBlanket hd rfl _)
  · exact no_clear_writeLockRow _ _ _ _ _ _ hd

theorem noClear_restoreLock (hd : NoClear d) (h : UndoNoClear undo) :
    NoClear (d.restoreLock undo) := by
  rw [restoreLock_eq]
  suffices hput : ∀ (rows : List (Address × Option Slots)) (m : BTreeMap Address Slots),
      (∀ row ∈ rows, row.2 ≠ some Slots.default) → (∀ a : Address, m[a]? ≠ some Slots.default) →
        ∀ a : Address, (rows.foldl BTreeMap.put m)[a]? ≠ some Slots.default from
    hput _ _ (fun row hrow => h row (List.mem_reverse.mp hrow)) hd
  intro rows
  induction rows with
  | nil => exact fun m _ hm => hm
  | cons row rows ih =>
    intro m hrows hm
    refine ih _ (fun r hr => hrows r (List.mem_cons_of_mem _ hr)) fun a => ?_
    rw [BTreeMap.getElem?_put]
    split
    · exact hrows row List.mem_cons_self
    · exact hm a

end Undo

/-- What every operation keeps: no entry that a replay would drop, a button blanket apart. -/
structure Tidy (d : DesiredState) : Prop where
  locks : NoClear d
  overrides : ∀ (k : UInt8 × UInt16) (ov : Override), d.overrides[k]? = some ov →
    (∃ action, ov.asAction = some action) ∧ ∃ class_, Class.fromU8 k.1 = some class_

theorem Tidy.default : Tidy .default where
  locks := fun _ => by simp [DesiredState.default]
  overrides := fun _ _ h => absurd h (by simp [DesiredState.default])

theorem Tidy.of_eq {d d' : DesiredState} (h : Tidy d) (hl : d'.locks = d.locks)
    (ho : d'.overrides = d.overrides) : Tidy d' where
  locks := fun a => by
    rw [hl]
    exact h.locks a
  overrides := by
    rw [ho]
    exact h.overrides

theorem Tidy.apply {d : DesiredState} (h : Tidy d) (usage : Usage) (action : Action) :
    Tidy (d.apply usage action) := by
  unfold DesiredState.apply
  split
  · refine ⟨h.locks, fun k ov hk => ?_⟩
    rw [BTreeMap.getElem?_erase] at hk
    split at hk
    · cases hk
    · exact h.overrides k ov hk
  next hne =>
    refine ⟨h.locks, fun k ov hk => ?_⟩
    rw [BTreeMap.getElem?_insert] at hk
    split at hk
    next hkey =>
      obtain rfl := Option.some.inj hk
      refine ⟨?_, usage.class_, by rw [← hkey]; exact Class.fromU8_asU8 _⟩
      cases ha : Override.applied action with
      | none => exact absurd ha hne
      | press => exact ⟨_, rfl⟩
      | force => exact ⟨_, rfl⟩
    next => exact h.overrides k ov hk

theorem Tidy.perform {d : DesiredState} {undos : List LockUndo} (h : Tidy d)
    (hundos : ∀ undo ∈ undos, UndoNoClear undo) (op : DesiredOp)
    (hop : ∀ undo, op = .restoreLock undo → undo ∈ undos) : Tidy (d.perform op) := by
  cases op with
  | apply usage action => exact h.apply usage action
  | applyLock key scale =>
    obtain ⟨locks, order, hd⟩ := d.applyLock_frame key scale
    refine ⟨noClear_applyLock h.locks key scale, ?_⟩
    change ∀ k ov, (d.applyLock key scale).1.overrides[k]? = some ov → _
    rw [hd]
    exact h.overrides
  | restoreLock undo =>
    exact ⟨noClear_restoreLock h.locks (hundos undo (hop undo rfl)), h.overrides⟩
  | clear =>
    exact ⟨fun _ => by simp [DesiredState.perform, DesiredState.clear],
      fun _ _ hk => absurd hk (by simp [DesiredState.perform, DesiredState.clear])⟩
  | applyRewrite rule =>
    refine h.of_eq ?_ ?_ <;> rw [DesiredState.perform, DesiredState.applyRewrite_eq]
  | removeRewrite key =>
    refine h.of_eq ?_ ?_ <;> rw [DesiredState.perform, DesiredState.removeRewrite_eq]
  | restoreRewrite undo =>
    refine h.of_eq ?_ ?_ <;> (rw [DesiredState.perform, DesiredState.restoreRewrite]; split <;> rfl)
  | applyTransform entry =>
    refine h.of_eq ?_ ?_ <;> rw [DesiredState.perform, DesiredState.applyTransform_eq]
  | removeTransform key =>
    refine h.of_eq ?_ ?_ <;> rw [DesiredState.perform, DesiredState.removeTransform_eq]
  | restoreTransform undo =>
    refine h.of_eq ?_ ?_ <;>
      (rw [DesiredState.perform, DesiredState.restoreTransform]; split <;> try split) <;> rfl
  | clipNoteRing seen status released =>
    refine h.of_eq ?_ ?_ <;> (rw [DesiredState.perform, DesiredState.clipNoteRing]; split <;> rfl)
  | _ => exact h.of_eq rfl rfl

theorem Performed.tidy {d : DesiredState} {undos : List LockUndo} (h : Performed d undos) :
    Tidy d ∧ ∀ undo ∈ undos, UndoNoClear undo := by
  induction h with
  | default => exact ⟨.default, fun _ h => absurd h List.not_mem_nil⟩
  | @perform d undos op _ hop ih =>
    obtain ⟨htidy, hundos⟩ := ih
    refine ⟨htidy.perform hundos op hop, fun undo hu => ?_⟩
    obtain hu | hu := List.mem_append.mp hu
    · cases op with
      | applyLock key scale =>
        rw [List.mem_singleton.mp hu]
        exact undoNoClear_applyLock htidy.locks key scale
      | _ => exact absurd hu List.not_mem_nil
    · exact hundos undo hu

theorem commands_eq_nil_iff (r : Slots) : r.commands = [] ↔ r = Slots.default := by
  constructor
  · intro h
    have hr := Slots.commands_rebuild r
    rw [h] at hr
    exact hr.symm
  · rintro rfl
    decide

theorem rowIds_eq_nil_iff (d : DesiredState) (a : Address) :
    d.rowIds a.1 a.2 = [] ↔ a = blanketAddress ∧ d.buttonCount = 0 := by
  unfold DesiredState.rowIds
  split
  next h =>
    have ha : a = blanketAddress := Prod.ext h.1 h.2
    have hcount : d.buttonCount.toNat = 0 ↔ d.buttonCount = 0 := by
      rw [← UInt16.toNat_inj, UInt16.toNat_zero]
    simp only [DesiredState.buttonIds, List.map_eq_nil_iff, List.range_eq_nil, hcount, ha, true_and]
  next h =>
    refine ⟨fun hn => absurd hn (List.cons_ne_nil _ _), fun ha => ?_⟩
    rw [ha.1] at h
    exact absurd ⟨rfl, rfl⟩ h

theorem buttonCount_eq_zero_iff (d : DesiredState) :
    d.buttonCount = 0 ↔ d.declaredButtons = some 0 := by
  have hzero : ∀ v : UInt8, v.toUInt16 = 0 ↔ v = 0 := fun v => by
    rw [← UInt16.toNat_inj, ← UInt8.toNat_inj, UInt8.toNat_toUInt16]
    exact Iff.rfl
  rw [DesiredState.buttonCount, hzero]
  cases d.declaredButtons with
  | none => decide
  | some v => simp

/-- A tidy state's held locks are empty exactly where its rows are, or where its one row is a
button blanket over no button. -/
theorem heldLocks_eq_nil_iff {d : DesiredState} (h : NoClear d) :
    d.heldLocks = [] ↔ ∀ a ∈ d.locks, a = blanketAddress ∧ d.declaredButtons = some 0 := by
  constructor
  · intro hnil a ha
    obtain ⟨r, hr⟩ := (BTreeMap.mem_iff _ _).mp ha
    rw [← buttonCount_eq_zero_iff, ← rowIds_eq_nil_iff]
    by_contra hids
    obtain ⟨id, hid⟩ := List.exists_mem_of_ne_nil _ hids
    have hcommands : r.commands ≠ [] := fun hc => h a ((commands_eq_nil_iff r).mp hc ▸ hr)
    obtain ⟨c, hc⟩ := List.exists_mem_of_ne_nil _ hcommands
    have hmem : ((a.1, id, c.1), c.2) ∈ d.heldLocks :=
      (mem_heldLocks _).mpr ⟨a, r, hr, rfl, hid, hc⟩
    rw [hnil] at hmem
    exact absurd hmem List.not_mem_nil
  · intro hall
    refine List.eq_nil_iff_forall_not_mem.mpr fun c hc => ?_
    obtain ⟨a, r, hr, -, hid, -⟩ := (mem_heldLocks c).mp hc
    obtain ⟨ha, hzero⟩ := hall a ((BTreeMap.mem_iff _ _).mpr ⟨r, hr⟩)
    rw [(rowIds_eq_nil_iff d a).mpr ⟨ha, (buttonCount_eq_zero_iff d).mpr hzero⟩] at hid
    exact absurd hid List.not_mem_nil

theorem held_eq_nil_iff {d : DesiredState} (h : Tidy d) :
    d.held = [] ↔ d.overrides.isEmpty = true := by
  rw [← Std.ExtTreeMap.isEmpty_toList, List.isEmpty_iff]
  constructor
  · intro hnil
    refine List.eq_nil_iff_forall_not_mem.mpr fun ⟨k, ov⟩ hk => ?_
    obtain ⟨⟨action, haction⟩, class_, hclass⟩ :=
      h.overrides k ov (Std.ExtTreeMap.mem_toList_iff_getElem?_eq_some.mp hk)
    have hmem : (⟨class_, k.2⟩, action) ∈ d.held :=
      List.mem_filterMap.mpr ⟨(k, ov), hk, by simp [haction, hclass]⟩
    rw [hnil] at hmem
    exact absurd hmem List.not_mem_nil
  · intro hnil
    rw [DesiredState.held, hnil]
    rfl

theorem clipSetPayloads_eq_nil_iff (settings : Vector UInt8 4) :
    clipSetPayloads settings = [] ↔ settings = #v[0, 0, 0, 0] := by
  rw [clipSetPayloads, List.map_eq_nil_iff, List.filter_eq_nil_iff]
  simp only [decide_not, Bool.not_eq_true', decide_eq_false_iff_not, not_not]
  constructor
  · intro h
    ext i hi
    have hz : (settings[i], i) ∈ settings.toList.zipIdx := by
      rw [List.mk_mem_zipIdx_iff_getElem?]
      simp [hi]
    have hzero : settings[i] = 0 := h _ hz
    rw [hzero]
    interval_cases i <;> rfl
  · rintro rfl ⟨v, i⟩ hv
    have hmem := List.mem_of_getElem? (List.mk_mem_zipIdx_iff_getElem?.mp hv)
    revert hmem
    simp

theorem clipConfigFrames_eq_nil_iff (d : DesiredState) :
    d.clipConfigFrames = [] ↔ d.clip.settings = #v[0, 0, 0, 0] ∧
      d.clip.triggers.isEmpty = true ∧ d.clip.packetTriggers.isEmpty = true := by
  simp only [DesiredState.clipConfigFrames, List.append_eq_nil_iff, List.map_eq_nil_iff,
    clipSetPayloads_eq_nil_iff, BTreeMap.values_eq_nil_iff, List.isEmpty_iff, and_assoc]

/-- Nothing held but lock rows. -/
structure LocksAlone (d : DesiredState) : Prop where
  catch_ : d.catch_.isEmpty = true
  overrides : d.overrides.isEmpty = true
  rewrites : d.rewrites.isEmpty = true
  transforms : d.transforms.isEmpty = true
  loaded : d.clip.loaded = false
  settings : d.clip.settings = #v[0, 0, 0, 0]
  triggers : d.clip.triggers.isEmpty = true
  packetTriggers : d.clip.packetTriggers.isEmpty = true

theorem isIdle_iff (d : DesiredState) :
    d.isIdle = true ↔ d.locks.isEmpty = true ∧ LocksAlone d := by
  simp only [DesiredState.isIdle, Bool.and_eq_true, Bool.not_eq_true', decide_eq_true_eq]
  constructor
  · rintro ⟨⟨⟨⟨⟨⟨⟨⟨hc, ho⟩, hl⟩, hr⟩, ht⟩, hloaded⟩, hs⟩, htr⟩, hp⟩
    exact ⟨hl, hc, ho, hr, ht, hloaded, hs, htr, hp⟩
  · rintro ⟨hl, hc, ho, hr, ht, hloaded, hs, htr, hp⟩
    exact ⟨⟨⟨⟨⟨⟨⟨⟨hc, ho⟩, hl⟩, hr⟩, ht⟩, hloaded⟩, hs⟩, htr⟩, hp⟩

/-- Nothing to send again and no clip to keep. -/
def NothingSent (d : DesiredState) : Prop := d.clip.loaded = false ∧ reapplyFrames d true = []

theorem nothingSent_iff {d : DesiredState} (h : Tidy d) :
    NothingSent d ↔ d.heldLocks = [] ∧ LocksAlone d := by
  simp only [NothingSent, reapplyFrames, if_true, List.append_eq_nil_iff, List.map_eq_nil_iff,
    held_eq_nil_iff h, BTreeMap.values_eq_nil_iff, DesiredState.heldRewrites, DesiredState.heldTransforms,
    clipConfigFrames_eq_nil_iff]
  constructor
  · rintro ⟨hloaded, ⟨⟨⟨⟨ho, hl⟩, hc⟩, hr⟩, ht⟩, hs, htr, hp⟩
    exact ⟨hl, hc, ho, List.isEmpty_iff.mpr hr, List.isEmpty_iff.mpr ht, hloaded, hs, htr, hp⟩
  · rintro ⟨hl, hc, ho, hr, ht, hloaded, hs, htr, hp⟩
    exact ⟨hloaded, ⟨⟨⟨⟨ho, hl⟩, hc⟩, List.isEmpty_iff.mp hr⟩, List.isEmpty_iff.mp ht⟩, hs, htr, hp⟩

/-- A button blanket over a clone that declares no button, and nothing else. -/
structure BlanketOverNone (d : DesiredState) : Prop where
  declared : d.declaredButtons = some 0
  held : blanketAddress ∈ d.locks
  only : ∀ a ∈ d.locks, a = blanketAddress
  rest : LocksAlone d

/-- The idle test agrees with what a recovery would send, in every state that does not hold a
button blanket alone over a clone with no button. -/
theorem isIdle_agrees_iff {d : DesiredState} {undos : List LockUndo} (h : Performed d undos) :
    (d.isIdle = true ↔ NothingSent d) ↔ ¬BlanketOverNone d := by
  obtain ⟨htidy, -⟩ := h.tidy
  rw [isIdle_iff, nothingSent_iff htidy, heldLocks_eq_nil_iff htidy.locks,
    Std.ExtTreeMap.isEmpty_iff]
  constructor
  · rintro hagree ⟨hzero, hheld, honly, hrest⟩
    obtain ⟨hempty, -⟩ := hagree.mpr ⟨fun a ha => ⟨honly a ha, hzero⟩, hrest⟩
    rw [hempty] at hheld
    exact absurd hheld Std.ExtTreeMap.not_mem_empty
  · intro hnot
    refine and_congr_left fun hrest => ⟨fun hempty a ha => ?_, fun hall => ?_⟩
    · rw [hempty] at ha
      exact absurd ha Std.ExtTreeMap.not_mem_empty
    · by_contra hne
      obtain ⟨a, ha⟩ : ∃ a, a ∈ d.locks := by
        by_contra hnone
        exact hne (Std.ExtTreeMap.eq_empty_iff_forall_not_mem.mpr fun a ha => hnone ⟨a, ha⟩)
      obtain ⟨rfl, hzero⟩ := hall a ha
      exact hnot ⟨hzero, ha, fun b hb => (hall b hb).1, hrest⟩

/-- Every button locked on a clone that reports none. -/
def lockedNone : List DesiredOp :=
  [.noteDeclaredButtons 0, .applyLock (lockClsBtn, lockIdAll, lockDirBoth) lockScaleBlock]

theorem performed_lockedNone : Performed (DesiredState.default.performAll lockedNone)
    [(((DesiredState.default.noteDeclaredButtons 0).applyLock
      (lockClsBtn, lockIdAll, lockDirBoth) lockScaleBlock)).2] :=
  .perform (.applyLock (lockClsBtn, lockIdAll, lockDirBoth) lockScaleBlock)
    (.perform (.noteDeclaredButtons 0) .default nofun) nofun

/-- The lock keeps the keepalive writing, and a recovery has nothing to send. -/
theorem lockedNone_never_idle : ¬∀ (d : DesiredState) (undos : List LockUndo), Performed d undos →
    (d.isIdle = true ↔ NothingSent d) := by
  intro hall
  have hagree := hall _ _ performed_lockedNone
  have hbusy : (DesiredState.default.performAll lockedNone).isIdle = false := by decide +kernel
  have hnothing : NothingSent (DesiredState.default.performAll lockedNone) :=
    ⟨by decide +kernel, by decide +kernel⟩
  rw [hagree.mpr hnothing] at hbusy
  cases hbusy

theorem lockedNone_agrees_iff :
    ((DesiredState.default.performAll lockedNone).isIdle = true ↔
        NothingSent (DesiredState.default.performAll lockedNone)) ↔
      ¬BlanketOverNone (DesiredState.default.performAll lockedNone) :=
  isIdle_agrees_iff performed_lockedNone

end Medius.Replay
