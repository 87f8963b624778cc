import Medius.Locks.Overlay
import Medius.Replay.Frames
import Medius.Replay.Rows

/-! The frames of a re-send, one after another, over whatever the box's tables hold. -/

namespace Medius.Replay

open Protocol Link Mock Locks Device Medius.Types

theorem boxWf_setMouseAll (targets : List (Fin lockTgtCount)) (dir : UInt8) (scale : Int16)
    (t : LockTable) : BoxWf t → BoxWf (t.setMouseAll targets dir scale) := by
  induction targets generalizing t with
  | nil => exact id
  | cons target targets ih => exact fun h => ih (t.setMouse target dir scale) { h with }

theorem keyBlanket_lt {kb m : UInt8} (hkb : kb.toNat < 4) (hm : m.toNat < 4) (on : Prop)
    [Decidable on] : (if on then kb ||| m else kb &&& ~~~m).toNat < 4 := by
  by_cases h : on
  · rw [if_pos h, UInt8.toNat_or]
    exact Nat.or_lt_two_pow (n := 2) hkb hm
  · rw [if_neg h, UInt8.toNat_and]
    exact Nat.lt_of_le_of_lt Nat.and_le_left hkb

theorem boxWf_media {t : LockTable} (h : BoxWf t) {id : UInt16} (hall : id ≠ lockIdAll)
    (hid : id ≠ 0) (hnew : id ∉ t.media) :
    BoxWf { t with media := t.media.replace 0 id } := by
  by_cases hfree : 0 ∈ t.media
  · refine ⟨h.edge_bits, (SlotArray.length_take _ _ _).trans h.media_length,
      SlotArray.nodup_held_take h.media_nodup hfree hid hnew, fun hm => ?_⟩
    obtain hm | hm := (SlotArray.mem_take hfree hid (by decide)).mp hm
    · exact hall hm.symm
    · exact h.media_granular hm
  · rw [List.replace_of_not_mem hfree]
    exact h

/-- Whatever a command says, the table keeps the shape it has. -/
theorem boxWf_apply {t : LockTable} (h : BoxWf t) (class_ : UInt8) (id : UInt16) (dir : UInt8)
    (scale : Int16) (n : UInt8) : BoxWf (t.apply class_ id dir scale n) := by
  unfold LockTable.apply
  dsimp only
  split
  · exact h
  split
  · split
    · exact boxWf_setMouseAll _ _ _ _ h
    split
    · exact { h with }
    · exact h
  split
  · split
    · exact boxWf_setMouseAll _ _ _ _ h
    split
    · exact { h with }
    · exact h
  split
  · split
    · split
      · exact h
      · exact { h with edge_bits := keyBlanket_lt h.edge_bits (Nat.lt_of_le_of_lt
          (UInt8.toNat_and _ _ ▸ Nat.and_le_right) (by decide)) _ }
    split
    · exact h
    · exact { h with }
  split
  · split
    · exact { h with }
    next hall =>
      split
      next hid =>
        split
        · refine ⟨h.edge_bits, (SlotArray.length_release _ _ _).trans h.media_length,
            SlotArray.nodup_held_release h.media_nodup, fun hm => ?_⟩
          exact h.media_granular ((SlotArray.mem_release (by decide)).mp hm).1
        split
        next hnew => exact boxWf_media h hall hid hnew
        · exact h
      · exact h
  · exact h

theorem boxWf_applyLockFrame {t : LockTable} (h : BoxWf t) (cloneUp : Bool) (n : UInt8)
    (p : List UInt8) : BoxWf (t.applyLockFrame cloneUp n p) := by
  unfold LockTable.applyLockFrame
  split
  · split
    · exact boxWf_apply h _ _ _ _ _
    · exact h
  · exact h

/-- The two tables that take nothing while no clone is up. -/
structure Tables where
  locks : LockTable
  transforms : TransformTable
  wf : BoxWf locks

def Tables.empty : Tables := ⟨.default, .default, BoxWf.default⟩

variable (caps : Mock.Caps)

def Tables.apply (cloneUp : Bool) (t : Tables) (f : FrameType × List UInt8) : Tables :=
  match f.1 with
  | .lock => ⟨t.locks.applyLockFrame cloneUp caps.nButtons f.2, t.transforms,
      boxWf_applyLockFrame t.wf _ _ _⟩
  | .transform => { t with transforms := t.transforms.applyTransformFrame caps cloneUp f.2 }
  | _ => t

/-- The command a `LOCK` carries. -/
def lockOf : List UInt8 → Option Command
  | class_ :: idLo :: idHi :: dir :: lo :: hi :: _ =>
    some ((class_, fromLeBytes idLo idHi, dir), (fromLeBytes lo hi).toInt16)
  | _ => none

/-- The entry a `TRANSFORM` names. -/
def transformOf : List UInt8 → Option StoredTransform
  | op :: sclass :: sidLo :: sidHi :: dclass :: didLo :: didHi :: _ =>
    some ⟨op, sclass, fromLeBytes sidLo sidHi, dclass, fromLeBytes didLo didHi⟩
  | _ => none

/-- A frame for one of the tables finds the clone up, and room for what it carries. -/
structure Lands (cloneUp : Bool) (t : Tables) (f : FrameType × List UInt8) : Prop where
  cloned : f.1 = .lock ∨ f.1 = .transform → cloneUp = true
  lock : f.1 = .lock → ∀ c ∈ lockOf f.2, Room t.locks c
  transform : f.1 = .transform → ∀ x ∈ transformOf f.2,
    (∃ e ∈ t.transforms.transforms, e.key = x.key) ∨
      t.transforms.transforms.length < transformMaxEntries

instance (t : LockTable) (c : Command) : Decidable (Room t c) :=
  inferInstanceAs (Decidable (_ → _ → _ → _))

instance (cloneUp : Bool) (t : Tables) (f : FrameType × List UInt8) :
    Decidable (Lands cloneUp t f) :=
  have : Decidable (∀ c ∈ lockOf f.2, Room t.locks c) := Option.decidableForallMem _
  decidable_of_iff
    ((f.1 = .lock ∨ f.1 = .transform → cloneUp = true) ∧
      (f.1 = .lock → ∀ c ∈ lockOf f.2, Room t.locks c) ∧
      (f.1 = .transform → ∀ x ∈ transformOf f.2,
        (∃ e ∈ t.transforms.transforms, e.key = x.key) ∨
          t.transforms.transforms.length < transformMaxEntries))
    ⟨fun h => ⟨h.1, h.2.1, h.2.2⟩, fun h => ⟨h.cloned, h.lock, h.transform⟩⟩

def lockCommands (fs : List (FrameType × List UInt8)) : List Command :=
  (State.payloads .lock fs).filterMap lockOf

def transformEntries (fs : List (FrameType × List UInt8)) : List StoredTransform :=
  (State.payloads .transform fs).filterMap transformOf

theorem lockCommands_append (fs gs : List (FrameType × List UInt8)) :
    lockCommands (fs ++ gs) = lockCommands fs ++ lockCommands gs := by
  rw [lockCommands, State.payloads_append, List.filterMap_append]
  rfl

theorem transformEntries_append (fs gs : List (FrameType × List UInt8)) :
    transformEntries (fs ++ gs) = transformEntries fs ++ transformEntries gs := by
  rw [transformEntries, State.payloads_append, List.filterMap_append]
  rfl

theorem lockOf_lockPayload (c : Command) :
    lockOf (lockPayload c.1.1 c.1.2.1 c.1.2.2 c.2) = some c := by
  simp only [lockPayload, toLeBytes, List.cons_append, List.nil_append, lockOf,
    fromLeBytes_toLeBytes, Int16.toInt16_toUInt16]

theorem transformOf_frame (x : StoredTransform) : transformOf (Transforms.frame 1 x) = some x := by
  simp only [Transforms.frame, transformPayload, toLeBytes, List.cons_append, List.nil_append,
    transformOf, fromLeBytes_toLeBytes]

theorem lockCommands_reapplyFrames (d : DesiredState) :
    lockCommands (reapplyFrames d true) = d.heldLocks := by
  rw [lockCommands, payloads_lock_reapplyFrames, List.filterMap_map]
  have hid : (lockOf ∘ fun c : Command => lockPayload c.1.1 c.1.2.1 c.1.2.2 c.2) = some :=
    funext lockOf_lockPayload
  rw [hid, List.filterMap_some]

theorem transformEntries_reapplyFrames (d : DesiredState) :
    transformEntries (reapplyFrames d true) = d.heldTransforms := by
  rw [transformEntries, payloads_transform_reapplyFrames, List.filterMap_map]
  have hid : transformOf ∘ Transforms.frame 1 = some := funext transformOf_frame
  rw [hid, List.filterMap_some]

theorem roomed_concat {n : UInt8} {t : LockTable} {cs : List Command} {c : Command}
    (h : Roomed n t cs) (hc : Room (cs.foldl (applyCommand n) t) c) : Roomed n t (cs ++ [c]) := by
  induction cs generalizing t with
  | nil => exact ⟨hc, trivial⟩
  | cons b cs ih => exact ⟨h.1, ih h.2 hc⟩

/-- The tables after the frames sent so far, all of which landed. -/
structure Landed (fs : List (FrameType × List UInt8)) (t : Tables) : Prop where
  locks : ∃ t₀, BoxWf t₀ ∧ Roomed (min caps.nButtons maxButtons) t₀ (lockCommands fs) ∧
    t.locks = (lockCommands fs).foldl (applyCommand (min caps.nButtons maxButtons)) t₀
  transforms : ∀ x ∈ transformEntries fs, Transforms.boxed x ∈ t.transforms.transforms

variable {caps}

theorem Landed.nil (t : Tables) : Landed caps [] t :=
  ⟨⟨t.locks, t.wf, trivial, rfl⟩, nofun⟩

theorem applyLockFrame_lockOf (n : UInt8) (t : LockTable) (p : List UInt8) :
    t.applyLockFrame true n p = (lockOf p).elim t (applyCommand n t) := by
  rcases p with _ | ⟨class_, _ | ⟨idLo, _ | ⟨idHi, _ | ⟨dir, _ | ⟨lo, _ | ⟨hi, rest⟩⟩⟩⟩⟩⟩ <;> rfl

theorem Landed.lock {fs : List (FrameType × List UInt8)} {t : Tables} {p : List UInt8}
    (h : Landed caps fs t) (hland : Lands true t (.lock, p)) :
    Landed caps (fs ++ [(.lock, p)]) (t.apply caps true (.lock, p)) := by
  obtain ⟨t₀, hwf, hroom, ht⟩ := h.locks
  have hcs : lockCommands (fs ++ [(.lock, p)]) = lockCommands fs ++ (lockOf p).toList := by
    rw [lockCommands_append]
    cases hp : lockOf p <;> simp [lockCommands, State.payloads, hp]
  refine ⟨⟨t₀, hwf, ?_⟩, ?_⟩
  · rw [hcs]
    change _ ∧ t.locks.applyLockFrame true caps.nButtons p = _
    rw [applyLockFrame_lockOf]
    cases hp : lockOf p with
    | none =>
      rw [Option.toList_none, List.append_nil]
      exact ⟨hroom, ht⟩
    | some c =>
      have hc : Room t.locks c := hland.lock rfl c hp
      rw [Option.toList_some, List.foldl_append, ← ht]
      exact ⟨roomed_concat hroom (ht ▸ hc), applyCommand_min _ _ _⟩
  · rw [transformEntries_append]
    exact fun x hx => h.transforms x ((List.append_nil _ ▸ hx :))

/-- An entry set leaves those of other keys where they are. -/
theorem mem_set_of_ne {t : TransformTable} {r e : MockTransform} (he : e ∈ t.transforms)
    (hk : e.key ≠ r.key) : e ∈ (t.set r).transforms := by
  rw [Transforms.transforms_set]
  exact Keyed.mem_setWithin_of_ne _ _ he hk

theorem mem_set_self {t : TransformTable} {r : MockTransform}
    (hroom : (∃ e ∈ t.transforms, e.key = r.key) ∨ t.transforms.length < transformMaxEntries) :
    r ∈ (t.set r).transforms := by
  rw [Transforms.transforms_set]
  obtain hmem | hroom := hroom
  · rw [Keyed.setWithin_of_mem _ _ hmem]
    exact Keyed.mem_setInPlace_self _ _ _
  · rw [Keyed.setWithin_of_room _ _ (a := r) hroom]
    exact Keyed.mem_setInPlace_self _ _ _

theorem Landed.transform {fs : List (FrameType × List UInt8)} {t : Tables} {x : StoredTransform}
    (h : Landed caps fs t) (hx : Transforms.Admissible caps x)
    (hfresh : x.key ∉ (transformEntries fs).map StoredTransform.key)
    (hland : Lands true t (.transform, Transforms.frame 1 x)) :
    Landed caps (fs ++ [(.transform, Transforms.frame 1 x)])
      (t.apply caps true (.transform, Transforms.frame 1 x)) := by
  have hentries : transformEntries (fs ++ [(.transform, Transforms.frame 1 x)]) =
      transformEntries fs ++ [x] := by
    rw [transformEntries_append]
    simp [transformEntries, State.payloads, transformOf_frame]
  have hroom := hland.transform rfl x (transformOf_frame x)
  refine ⟨?_, ?_⟩
  · rw [lockCommands_append]
    exact (List.append_nil (lockCommands fs)).symm ▸ h.locks
  · rw [hentries]
    change ∀ y ∈ _, _ ∈ (t.transforms.applyTransformFrame caps true _).transforms
    rw [Transforms.applyTransformFrame_set _ hx]
    intro y hy
    obtain hy | hy := List.mem_append.mp hy
    · refine mem_set_of_ne (h.transforms y hy) fun hk => hfresh ?_
      exact List.mem_map.mpr ⟨y, hy, hk⟩
    · obtain rfl := List.mem_singleton.mp hy
      exact mem_set_self hroom

theorem Landed.other {fs : List (FrameType × List UInt8)} {t : Tables} {ty : FrameType}
    {p : List UInt8} (h : Landed caps fs t) (hlock : ty ≠ .lock) (htransform : ty ≠ .transform)
    (cloneUp : Bool) : Landed caps (fs ++ [(ty, p)]) (t.apply caps cloneUp (ty, p)) := by
  have ht : t.apply caps cloneUp (ty, p) = t := by
    cases ty <;> first | rfl | exact absurd rfl hlock | exact absurd rfl htransform
  rw [ht]
  refine ⟨?_, ?_⟩
  · rw [lockCommands_append]
    simpa [lockCommands, State.payloads, hlock] using h.locks
  · rw [transformEntries_append]
    simpa [transformEntries, State.payloads, htransform] using h.transforms

/-- One frame more of a re-send has landed. -/
theorem Landed.next {d : DesiredState} {done rest : List (FrameType × List UInt8)}
    {f : FrameType × List UInt8} {t : Tables} {cloneUp : Bool} (h : Landed caps done t)
    (hd : Reachable d) (hframes : done ++ f :: rest = reapplyFrames d true)
    (hdecl : Declared caps d) (hland : Lands cloneUp t f) :
    Landed caps (done ++ [f]) (t.apply caps cloneUp f) := by
  obtain ⟨ty, p⟩ := f
  by_cases hlock : ty = .lock
  · subst hlock
    obtain rfl : cloneUp = true := hland.cloned (.inl rfl)
    exact h.lock hland
  by_cases htransform : ty = .transform
  · subst htransform
    obtain rfl : cloneUp = true := hland.cloned (.inr rfl)
    have hmem : p ∈ d.heldTransforms.map (Transforms.frame 1) := by
      rw [← payloads_transform_reapplyFrames, ← hframes, State.payloads_append]
      simp [State.payloads]
    obtain ⟨x, hx, rfl⟩ := List.mem_map.mp hmem
    have hpaired := (heldWf_of_reachable hd).transforms x hx
    have hfresh : x.key ∉ (transformEntries done).map StoredTransform.key := by
      have hkeys : ((transformEntries done ++
          transformEntries ((.transform, Transforms.frame 1 x) :: rest)).map
            StoredTransform.key).Nodup := by
        rw [← transformEntries_append, hframes, transformEntries_reapplyFrames]
        exact hd.tablesKeyed.transforms
      intro hmem
      obtain ⟨y, hy, hkey⟩ := List.mem_map.mp hmem
      refine Keyed.ne_of_nodup_append _ hkeys hy ?_ hkey
      simp [transformEntries, State.payloads, transformOf_frame]
    exact h.transform ⟨hpaired.op, hpaired.pair, (hdecl x hx).1, (hdecl x hx).2⟩ hfresh hland
  · exact h.other hlock htransform cloneUp

/-- Every entry the host holds is at the box. -/
def HoldsTransforms (d : DesiredState) (t : TransformTable) : Prop :=
  ∀ x ∈ d.heldTransforms, Transforms.boxed x ∈ t.transforms

/-- Once the whole re-send has landed, nothing held is missing. -/
theorem Landed.holds {d : DesiredState} {t : Tables} (h : Landed caps (reapplyFrames d true) t)
    (hd : Reachable d) (hdecl : DeclaredLocks (min caps.nButtons maxButtons).toNat d) :
    HoldsLocks d t.locks ∧ HoldsTransforms d t.transforms := by
  obtain ⟨t₀, hwf, hroom, ht⟩ := h.locks
  rw [lockCommands_reapplyFrames] at hroom ht
  have hrowed := rowed_of_reachable hd
  refine ⟨?_, fun x hx => h.transforms x (by rwa [transformEntries_reapplyFrames])⟩
  rw [ht]
  exact hrowed.rows.overlay hrowed.count (min_maxButtons_le _) hdecl hwf hroom

end Medius.Replay
