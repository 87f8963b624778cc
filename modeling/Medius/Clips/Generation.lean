import Medius.Link.Operation

/-! The ring generation, which tells a reading of the clip ring from a stale one. -/

namespace Medius.Clips

open Link Medius.Types

/-- An append, a clip clear or an adoption. -/
def movesRing : DesiredOp → Bool
  | .clipLoaded _ | .clipAdopt _ _ => true
  | _ => false

def resets : DesiredOp → Bool
  | .clear => true
  | _ => false

/-- How many operations moved the ring since the last reset, if there was one. -/
def movesSinceReset (ops : List DesiredOp) : Option Nat :=
  ops.foldl (fun n op => if resets op then some 0 else if movesRing op then n.map (· + 1) else n)
    none

/-- What one operation does to the generation. -/
theorem perform_ringGen (d : DesiredState) (op : DesiredOp) :
    (d.perform op).clip.ringGen =
      if resets op then 0 else if movesRing op then d.clip.ringGen + 1 else d.clip.ringGen := by
  cases op with
  | clear => rfl
  | clipLoaded loaded => rfl
  | clipAdopt status settings => rfl
  | clipNoteRing seen status released => exact d.clipNoteRing_ringGen seen status released
  | _ => simp [DesiredState.perform, resets, movesRing, DesiredState.restoreLock,
      DesiredState.noteDeclaredButtons, DesiredState.clearRewrites, DesiredState.clearTransforms,
      DesiredState.setCatch, DesiredState.clipSetting, DesiredState.clipBind,
      DesiredState.clipUnbind, DesiredState.clipPacketBind, DesiredState.clipPacketUnbind,
      DesiredState.clipPacketDropConsuming, DesiredState.clipTriggersClear]

theorem movesSinceReset_append_singleton (ops : List DesiredOp) (op : DesiredOp) :
    movesSinceReset (ops ++ [op]) =
      if resets op then some 0
      else if movesRing op then (movesSinceReset ops).map (· + 1) else movesSinceReset ops := by
  simp [movesSinceReset]

/-- A reset starts the generation again; every move since counts one. -/
theorem performAll_ringGen (d : DesiredState) (ops : List DesiredOp) :
    (d.performAll ops).clip.ringGen =
      (movesSinceReset ops).getD (d.clip.ringGen + ops.countP movesRing) := by
  induction ops using List.reverseRecOn with
  | nil => rfl
  | append_singleton ops op ih =>
    rw [DesiredState.performAll_append, DesiredState.performAll_cons, DesiredState.performAll_nil,
      perform_ringGen, ih, movesSinceReset_append_singleton]
    by_cases hr : resets op
    · simp [hr]
    · by_cases hm : movesRing op
      · cases movesSinceReset ops <;> simp [hr, hm, List.countP_append, Nat.add_assoc]
      · simp [hr, hm, List.countP_append]

theorem movesSinceReset_eq_none {ops : List DesiredOp} :
    movesSinceReset ops = none ↔ ∀ op ∈ ops, resets op = false := by
  induction ops using List.reverseRecOn with
  | nil => simp [movesSinceReset]
  | append_singleton ops op ih =>
    rw [movesSinceReset_append_singleton]
    by_cases hr : resets op
    · simp [hr]
    · by_cases hm : movesRing op <;> simp [hr, hm, ih, or_imp, forall_and]

/-- A reading of the current generation says nothing new when the ring is as last known. -/
theorem clipNoteRing_current (d : DesiredState) (status : ClipStatus) (released : Bool) :
    d.clipNoteRing d.clip.ringGen status released = d ↔ ringHolds status = d.clip.ring := by
  rw [DesiredState.clipNoteRing, if_neg (not_not_intro rfl)]
  constructor
  · intro h
    have hr := congrArg (fun d => d.clip.ring) h
    simpa using hr
  · intro h
    simp [h, Bool.and_assoc]

theorem clipNoteRing_stale {d : DesiredState} {seen : Nat} (h : seen ≠ d.clip.ringGen)
    (status : ClipStatus) (released : Bool) : d.clipNoteRing seen status released = d := if_pos h

/-- A reading taken before `ops` is refused, or says nothing, unless a reset in `ops` is followed
by just as many moves as the reading had seen. -/
theorem stale_reading_ignored_iff (d : DesiredState) (ops : List DesiredOp) (status : ClipStatus)
    (released : Bool) (h : ∃ op ∈ ops, movesRing op ∨ resets op) :
    (d.performAll ops).clipNoteRing d.clip.ringGen status released = d.performAll ops ↔
      movesSinceReset ops ≠ some d.clip.ringGen ∨
        ringHolds status = (d.performAll ops).clip.ring := by
  have hgen := performAll_ringGen d ops
  by_cases hsame : d.clip.ringGen = (d.performAll ops).clip.ringGen
  · have hsince : movesSinceReset ops = some d.clip.ringGen := by
      cases hn : movesSinceReset ops with
      | some n => rw [hsame, hgen, hn, Option.getD_some]
      | none =>
        obtain ⟨op, hop, hmoves⟩ := h
        have hm : movesRing op :=
          hmoves.resolve_right (by simp [movesSinceReset_eq_none.mp hn op hop])
        have hpos : 0 < ops.countP movesRing := List.countP_pos_iff.mpr ⟨op, hop, hm⟩
        rw [hn, Option.getD_none] at hgen
        omega
    rw [hsame, clipNoteRing_current, ← hsame]
    simp [hsince]
  · have hsince : movesSinceReset ops ≠ some d.clip.ringGen := fun hn => by
      rw [hn, Option.getD_some] at hgen
      exact hsame hgen.symm
    exact iff_of_true (clipNoteRing_stale hsame status released) (.inl hsince)

/-- An append between the reading and its note. -/
theorem stale_reading_ignored_append :
    let d := DesiredState.default.performAll [.clipLoaded true]
    (d.performAll [.clipLoaded true]).clipNoteRing d.clip.ringGen .default true =
      d.performAll [.clipLoaded true] :=
  (stale_reading_ignored_iff _ [.clipLoaded true] .default true ⟨_, List.mem_cons_self, .inl rfl⟩).mpr
    (.inl (by decide))

/-- A reading of an empty ring, taken after the first append of a device, is noted after a reset
and a new append: the fresh clip is reported lost. -/
theorem reset_revives_reading :
    let d := DesiredState.default.performAll [.clipLoaded true]
    let later := d.performAll [.clear, .clipLoaded true]
    later.clip.loaded = true ∧ later.clip.lost = false ∧
      (later.clipNoteRing d.clip.ringGen .default true).clip.loaded = false ∧
      (later.clipNoteRing d.clip.ringGen .default true).clip.lost = true :=
  ⟨rfl, rfl, rfl, rfl⟩

end Medius.Clips
