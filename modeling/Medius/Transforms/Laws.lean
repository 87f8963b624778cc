import Medius.Device.Transform
import Medius.Lib.Bounded
import Medius.Mock.State

/-! The box's transform table as a bounded table: what one `TRANSFORM` frame does to it. -/

namespace Medius.Transforms

open Protocol Link Mock Medius.Types

def boxed (t : StoredTransform) : MockTransform where
  op := t.op
  sclass := t.sclass
  sid := t.sid
  dclass := t.dclass
  did := t.did

@[simp] theorem key_boxed (t : StoredTransform) : (boxed t).key = t.key := rfl

def frame (state : UInt8) (t : StoredTransform) : List UInt8 :=
  transformPayload t.op t.sclass t.sid t.dclass t.did state

def Room (rows : List MockTransform) (_ : MockTransform) : Prop :=
  rows.length < transformMaxEntries

instance (rows : List MockTransform) (r : MockTransform) : Decidable (Room rows r) :=
  inferInstanceAs (Decidable (_ < _))

/-- What the box asks of an entry it is to hold. -/
structure Admissible (caps : Caps) (t : StoredTransform) : Prop where
  op : t.op < tfOpCount
  pair : transformPairOk t.op t.sclass t.sid t.dclass t.did
  source : transformFieldPresent caps true t.sclass t.sid
  dest : transformFieldPresent caps true t.dclass t.did

theorem applyTransformFrame_set (t : TransformTable) {caps : Caps} {r : StoredTransform}
    (h : Admissible caps r) :
    t.applyTransformFrame caps true (frame 1 r) = t.set (boxed r) := by
  simp only [frame, transformPayload, toLeBytes, List.cons_append, List.nil_append,
    TransformTable.applyTransformFrame, fromLeBytes_toLeBytes]
  rw [if_neg (by simp), if_neg (by simp), if_neg]
  · rfl
  · rintro (hop | hpair | hs | hd)
    · exact UInt8.not_le.mpr h.op hop
    · exact hpair h.pair
    · exact hs h.source
    · exact hd h.dest

theorem applyTransformFrame_remove (t : TransformTable) (caps : Caps) (cloneUp : Bool)
    (r : StoredTransform) (h : r.sclass ≠ 0xFF) :
    t.applyTransformFrame caps cloneUp (frame 0 r) = t.remove r.key := by
  simp only [frame, transformPayload, toLeBytes, List.cons_append, List.nil_append,
    TransformTable.applyTransformFrame, fromLeBytes_toLeBytes]
  rw [if_neg (by simp [h]), if_pos trivial]
  rfl

theorem transforms_remove (t : TransformTable) (key : TransformWireKey) :
    (t.remove key).transforms = Keyed.remove MockTransform.key t.transforms key := by
  unfold TransformTable.remove Keyed.remove Keyed.position
  cases t.transforms.findIdx? fun e => e.key = key with
  | none => rfl
  | some i => rfl

theorem full_remove {t : TransformTable} (key : TransformWireKey) (h : t.full = false) :
    (t.remove key).full = false := by
  unfold TransformTable.remove
  split
  · rfl
  · exact h

/-- A held key takes the new op, which is all of the entry its key does not say. -/
theorem transforms_set (t : TransformTable) (r : MockTransform) :
    (t.set r).transforms = Keyed.setWithin MockTransform.key Room t.transforms r := by
  unfold TransformTable.set Keyed.setWithin
  cases hi : t.transforms.findIdx? fun e => e.key = r.key with
  | some i =>
    have hpos : Keyed.position MockTransform.key t.transforms r.key = some i := hi
    rw [hpos]
    refine Keyed.modify_position _ hpos fun e _ hk => ?_
    cases e
    cases r
    simp only [MockTransform.key, Prod.mk.injEq] at hk
    obtain ⟨rfl, rfl, rfl, rfl⟩ := hk
    rfl
  | none =>
    have hpos : Keyed.position MockTransform.key t.transforms r.key = none := hi
    rw [hpos]
    dsimp only
    split_ifs with hfull hroom hroom
    · exact absurd hroom (Nat.not_lt.mpr hfull)
    · rfl
    · rfl
    · exact absurd (Nat.not_le.mp hfull) hroom

theorem full_set {t : TransformTable} {r : MockTransform} (h : t.full = false)
    (hroom : (∃ e ∈ t.transforms, e.key = r.key) ∨ Room t.transforms r) :
    (t.set r).full = false := by
  unfold TransformTable.set
  cases hi : t.transforms.findIdx? fun e => e.key = r.key with
  | some i => exact h
  | none =>
    dsimp only
    rw [if_neg]
    · exact h
    · obtain ⟨e, he, hk⟩ | hroom := hroom
      · exact absurd hk ((Keyed.position_eq_none MockTransform.key _ _).mp hi e he)
      · exact Nat.not_le.mpr hroom

theorem boxed_setInPlace (held : List StoredTransform) (t : StoredTransform) :
    (Keyed.setInPlace StoredTransform.key held t).map boxed =
      Keyed.setInPlace MockTransform.key (held.map boxed) (boxed t) :=
  (Keyed.setInPlace_map MockTransform.key boxed held t).symm

/-- Room for an entry on the host is room for it on the box. -/
theorem room_boxed {held : List StoredTransform} {t : StoredTransform}
    (h : (∃ e ∈ held, e.key = t.key) ∨ held.length < transformMaxEntries) :
    (∃ e ∈ held.map boxed, e.key = (boxed t).key) ∨ Room (held.map boxed) (boxed t) := by
  obtain ⟨e, he, hk⟩ | hlt := h
  · exact .inl ⟨boxed e, List.mem_map_of_mem he, hk⟩
  · refine .inr ?_
    rw [Room, List.length_map]
    exact hlt

/-- With room for the entry, its frame sets it on the box as the host does. -/
theorem set_boxed {table : TransformTable} {held : List StoredTransform} {t : StoredTransform}
    (htable : table.transforms = held.map boxed) (hfull : table.full = false)
    (h : (∃ e ∈ held, e.key = t.key) ∨ held.length < transformMaxEntries) :
    (table.set (boxed t)).transforms = (Keyed.setInPlace StoredTransform.key held t).map boxed ∧
      (table.set (boxed t)).full = false := by
  have hroom := room_boxed h
  refine ⟨?_, full_set hfull (htable ▸ hroom)⟩
  rw [transforms_set, htable, boxed_setInPlace]
  obtain hmem | hroom := hroom
  · exact Keyed.setWithin_of_mem _ _ hmem
  · exact Keyed.setWithin_of_room _ _ hroom

/-- Entries sent one after another to a table that holds the ones before them. -/
theorem foldl_sets {caps : Caps} {post : List StoredTransform} (pre : List StoredTransform)
    (hkeyed : ((pre ++ post).map StoredTransform.key).Nodup)
    (hlen : (pre ++ post).length ≤ transformMaxEntries) (hheld : ∀ t ∈ post, Admissible caps t)
    {table : TransformTable} (htable : table.transforms = pre.map boxed)
    (hfull : table.full = false) :
    (post.map (frame 1)).foldl (fun t p => t.applyTransformFrame caps true p) table =
      ⟨(pre ++ post).map boxed, false⟩ := by
  induction post generalizing pre table with
  | nil =>
    rw [List.append_nil, ← htable, ← hfull]
    rfl
  | cons t post ih =>
    have hassoc : pre ++ t :: post = (pre ++ [t]) ++ post := by simp
    have hnew : ∀ b ∈ pre, b.key ≠ t.key := fun b hb =>
      Keyed.ne_of_nodup_append _ hkeyed hb (by simp)
    have hlt : pre.length < transformMaxEntries := by
      rw [List.length_append, List.length_cons] at hlen
      omega
    have hset := set_boxed (t := t) htable hfull (.inr hlt)
    rw [Keyed.setInPlace_of_not_mem _ hnew] at hset
    rw [List.map_cons, List.foldl_cons, applyTransformFrame_set _ (hheld t (by simp))]
    rw [hassoc] at hkeyed hlen ⊢
    exact ih (pre ++ [t]) hkeyed hlen (fun u hu => hheld u (by simp [hu])) hset.1 hset.2

/-- A held entry sent again changes nothing. -/
theorem set_held {held : List StoredTransform} {t : StoredTransform}
    (hkeyed : (held.map StoredTransform.key).Nodup) (ht : t ∈ held) {table : TransformTable}
    (htable : table.transforms = held.map boxed) (hfull : table.full = false) :
    table.set (boxed t) = table := by
  have hmem : ∃ e ∈ held, e.key = t.key := ⟨t, ht, rfl⟩
  obtain ⟨hset, hfull'⟩ := set_boxed htable hfull (.inl hmem)
  rw [Keyed.setInPlace_of_mem _ hkeyed ht, ← htable] at hset
  cases table
  exact congrArg₂ TransformTable.mk hset (hfull'.trans hfull.symm)

theorem foldl_held {caps : Caps} {held entries : List StoredTransform}
    (hkeyed : (held.map StoredTransform.key).Nodup) (hheld : ∀ t ∈ held, Admissible caps t)
    (hsub : ∀ t ∈ entries, t ∈ held) {table : TransformTable}
    (htable : table.transforms = held.map boxed) (hfull : table.full = false) :
    (entries.map (frame 1)).foldl (fun t p => t.applyTransformFrame caps true p) table = table := by
  induction entries with
  | nil => rfl
  | cons t entries ih =>
    rw [List.forall_mem_cons] at hsub
    rw [List.map_cons, List.foldl_cons, applyTransformFrame_set _ (hheld t hsub.1),
      set_held hkeyed hsub.1 htable hfull]
    exact ih hsub.2

theorem classId_injective {s d : LockTarget} (h : s.classId = d.classId) : s = d := by
  have := congrArg (fun p => LockTarget.fromClassId p.1 p.2) h
  simpa using this

/-- A pair the host lets through is one the box takes. -/
theorem transformPairOk_of_admits {op : TransformOp} {source dest : LockTarget}
    (h : op.admits source dest) : transformPairOk op.asU8 source.classId.1 source.classId.2
      dest.classId.1 dest.classId.2 := by
  unfold TransformOp.admits at h
  split at h
  · cases h
  next hne =>
    unfold transformPairOk
    rw [if_neg fun hid => hne (classId_injective (Prod.ext hid.1 hid.2))]
    split at h
    · rfl
    · cases h
    · rfl
    next s d =>
      obtain ⟨sclass, sid⟩ := s
      obtain ⟨dclass, did⟩ := d
      cases sclass with
      | button => cases dclass <;> rfl
      | key | media => cases h
    · cases h

end Medius.Transforms
