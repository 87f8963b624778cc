import Medius.Link.Operation
import Medius.Locks.Host

/-! A lock whose frame was never sent leaves no trace. -/

namespace Medius.Locks

open Protocol Link

variable (d : DesiredState)

theorem restoreLock_eq (undo : LockUndo) :
    d.restoreLock undo =
      { d with locks := undo.rows.reverse.foldl BTreeMap.put d.locks, mediaOrder := undo.mediaOrder } := by
  unfold DesiredState.restoreLock
  congr 2
  funext m r
  obtain ⟨a, _ | row⟩ := r <;> rfl

/-- Rows recorded as they stood before they were changed. -/
theorem restoreLock_recorded {d d' : DesiredState} {u : LockUndo} (ks : List Address)
    (order : List UInt16) (hd : d' = { d with locks := d'.locks, mediaOrder := order })
    (h : ∀ a, a ∉ ks → d'.locks[a]? = d.locks[a]?) :
    d'.restoreLock { u with rows := u.rows ++ ks.map fun k => (k, d.locks[k]?) } =
      d.restoreLock u := by
  have hput : (ks.reverse.map fun k => (k, d.locks[k]?)).foldl BTreeMap.put d'.locks = d.locks :=
    BTreeMap.foldl_put_eq fun a ha => h a (by simpa using ha)
  rw [restoreLock_eq, restoreLock_eq, List.reverse_append, List.foldl_append, ← List.map_reverse,
    hput, hd]

/-- The row is recorded as it stood. -/
theorem undo_writeLockRow (class_ : UInt8) (id : UInt16) (dir : UInt8) (scale : Int16)
    (u : LockUndo) : (d.writeLockRow class_ id dir scale u).2 =
      { u with rows := u.rows ++ [((class_, id), d.locks[(class_, id)]?)] } := by
  unfold DesiredState.writeLockRow
  dsimp only
  split <;> rfl

theorem restoreLock_writeLockRow (class_ : UInt8) (id : UInt16) (dir : UInt8) (scale : Int16)
    (u : LockUndo) :
    (d.writeLockRow class_ id dir scale u).1.restoreLock (d.writeLockRow class_ id dir scale u).2 =
      d.restoreLock u := by
  obtain ⟨locks, order, hd⟩ := d.writeLockRow_frame class_ id dir scale u
  rw [undo_writeLockRow]
  refine restoreLock_recorded [(class_, id)] order (by rw [hd]) fun a ha => ?_
  rw [getElem?_writeLockRow, if_neg fun h => ha (by simp [h])]

theorem restoreLock_clearButtonRows (u : LockUndo) :
    (d.clearButtonRows u).1.restoreLock (d.clearButtonRows u).2 = d.restoreLock u := by
  refine restoreLock_recorded (d := d) d.buttonRowKeys d.mediaOrder rfl fun a ha => ?_
  rw [DesiredState.clearButtonRows, BTreeMap.getElem?_foldl_erase, if_neg ha]

theorem restoreLock_burstButtonBlanket (u : LockUndo) :
    (d.burstButtonBlanket u).1.restoreLock (d.burstButtonBlanket u).2 = d.restoreLock u := by
  unfold DesiredState.burstButtonBlanket
  dsimp only
  split
  · rfl
  next r hr =>
    set rows := d.buttonIds.map fun b => (lockClsBtn, b) with hrows
    have hvacant : ((rows.filter fun k => k ∉ d.locks).map fun k => (k, (none : Option Slots))) =
        (rows.filter fun k => k ∉ d.locks).map fun k => (k, d.locks[k]?) := by
      refine List.map_congr_left fun k hk => ?_
      have : k ∉ d.locks := by simpa using (List.mem_filter.mp hk).2
      rw [Std.ExtTreeMap.getElem?_eq_none this]
    have hks : u.rows ++ ((rows.filter fun k => k ∉ d.locks).map fun k => (k, none)) ++
        [(blanketAddress, some r)] =
        u.rows ++ ((rows.filter fun k => k ∉ d.locks) ++ [blanketAddress]).map
          fun k => (k, d.locks[k]?) := by
      rw [hvacant, List.map_append, List.map_cons, hr, List.append_assoc]
      rfl
    rw [hks]
    refine restoreLock_recorded (d := d) _ d.mediaOrder rfl fun a ha => ?_
    simp only [List.mem_append, List.mem_filter, decide_eq_true_eq, List.mem_singleton, not_or,
      not_and, not_not] at ha
    rw [BTreeMap.getElem?_erase, if_neg (Ne.symm ha.2), BTreeMap.getElem?_foldl_insertVacant]
    by_cases hm : a ∈ rows
    · obtain ⟨v, hv⟩ := (BTreeMap.mem_iff _ _).mp (ha.1 hm)
      simp [hv]
    · simp [hm]

/-- The rollback of a lock is exact. -/
theorem restoreLock_applyLock (key : LockKey) (scale : Int16) :
    (d.applyLock key scale).1.restoreLock (d.applyLock key scale).2 = d := by
  have hempty : d.restoreLock ⟨[], d.mediaOrder⟩ = d := rfl
  unfold DesiredState.applyLock
  dsimp only
  split_ifs
  · rw [restoreLock_writeLockRow, restoreLock_clearButtonRows, hempty]
  · rw [restoreLock_writeLockRow, restoreLock_burstButtonBlanket, hempty]
  · rw [restoreLock_writeLockRow, hempty]

end Medius.Locks
