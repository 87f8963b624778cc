import Medius.Device.Rollback
import Medius.Locks.History
import Medius.Replay.Locks
import Medius.Rewrites.History
import Medius.Transforms.Laws

/-! What every reachable state holds of its tables, and so what a replay of them can meet. -/

namespace Medius.Replay

open Protocol Link Mock Locks Device Medius.Types

/-- A media row blocks on both edges; there is no other. -/
def MediaRows (d : DesiredState) : Prop :=
  ∀ id r, d.locks[((lockClsMedia, id) : Address)]? = some r →
    r = ![lockScaleBlock, lockScaleBlock, lockScalePass, lockScalePass]

theorem MediaRows.of_locks {d d' : DesiredState} (h : MediaRows d)
    (hl : ∀ id : UInt16, d'.locks[((lockClsMedia, id) : Address)]? =
      d.locks[((lockClsMedia, id) : Address)]?) : MediaRows d' :=
  fun id r hr => h id r (hl id ▸ hr)

theorem media_ne_button : lockClsMedia ≠ lockClsBtn := by decide

theorem MediaRows.clearButtonRows {d : DesiredState} (h : MediaRows d) (u : LockUndo) :
    MediaRows (d.clearButtonRows u).1 := by
  refine h.of_locks fun id => ?_
  rw [getElem?_clearButtonRows, if_neg fun hb => media_ne_button hb.1]

theorem MediaRows.burstButtonBlanket {d : DesiredState} (h : MediaRows d) (u : LockUndo) :
    MediaRows (d.burstButtonBlanket u).1 := by
  refine h.of_locks fun id => ?_
  unfold DesiredState.burstButtonBlanket
  dsimp only
  split
  · rfl
  · have hne : (lockClsBtn, lockIdAll) ≠ (lockClsMedia, id) := fun h =>
      media_ne_button (congrArg Prod.fst h).symm
    have hmem : (lockClsMedia, id) ∉ d.buttonIds.map fun b => (lockClsBtn, b) := by
      rw [List.mem_map]
      rintro ⟨b, -, hb⟩
      exact media_ne_button (congrArg Prod.fst hb).symm
    dsimp only
    rw [BTreeMap.getElem?_erase, if_neg hne, BTreeMap.getElem?_foldl_insertVacant, if_neg hmem,
      Option.or_none]

theorem MediaRows.writeLockRow {d : DesiredState} (h : MediaRows d) {class_ : UInt8} {id : UInt16}
    {dir : UInt8} {scale : Int16} (hdir : class_ = lockClsMedia → dir = lockDirBoth)
    (hscale : class_ = lockClsMedia → scale = lockScaleBlock ∨ scale = lockScalePass)
    (u : LockUndo) : MediaRows (d.writeLockRow class_ id dir scale u).1 := by
  intro m r hr
  rw [getElem?_writeLockRow] at hr
  split at hr
  next hkey =>
    have hclass : class_ = lockClsMedia := congrArg Prod.fst hkey
    rw [hdir hclass, Slots.write_both] at hr
    split at hr
    · cases hr
    next hclear =>
      obtain rfl := Option.some.inj hr
      obtain hs | hs := hscale hclass
      · rw [hs]
      · rw [hs] at hclear
        exact absurd (by decide) hclear
  next => exact h m r hr

theorem momentaryScale_media (scale : Int16) :
    momentaryScale lockClsMedia scale = lockScaleBlock ∨
      momentaryScale lockClsMedia scale = lockScalePass := by
  unfold momentaryScale
  rw [if_neg (by decide)]
  split
  · exact .inl rfl
  · exact .inr rfl

theorem MediaRows.applyLock {d : DesiredState} (h : MediaRows d) {class_ : UInt8} {id : UInt16}
    {direction : Direction} {given : Int16} {key : LockKey} {scale : Int16}
    (hc : lockCommand class_ id direction given = .ok (key, scale)) :
    MediaRows (d.applyLock key scale).1 := by
  obtain ⟨dir, hkey, -, hdir⟩ := lockCommand_ok hc
  obtain ⟨rfl, rfl⟩ := Prod.mk.inj hkey
  have hboth : class_ = lockClsMedia → dir.asU8 = lockDirBoth := fun hm => by rw [hdir hm]; rfl
  have hscale : class_ = lockClsMedia → momentaryScale class_ scale = lockScaleBlock ∨
      momentaryScale class_ scale = lockScalePass := fun hm => hm ▸ momentaryScale_media scale
  unfold DesiredState.applyLock
  dsimp only
  split_ifs
  · exact (h.clearButtonRows _).writeLockRow hboth hscale _
  · exact (h.burstButtonBlanket _).writeLockRow hboth hscale _
  · exact h.writeLockRow hboth hscale _

theorem mediaRows_recorded {d d' : DesiredState} (h : MediaRows d) (hr : Recorded d d') :
    MediaRows d' := by
  cases hr with
  | lock hc => exact h.applyLock hc
  | reset => exact fun id r hr => absurd hr (by simp [DesiredState.clear, DesiredState.setCatch])
  | apply usage action =>
    unfold DesiredState.apply
    split <;> exact h
  | setRewrite =>
    rw [DesiredState.applyRewrite_eq]
    exact h
  | removeRewrite key =>
    rw [DesiredState.removeRewrite_eq]
    exact h
  | setTransform =>
    rw [DesiredState.applyTransform_eq]
    exact h
  | removeTransform key =>
    rw [DesiredState.removeTransform_eq]
    exact h
  | bindPacket =>
    rw [DesiredState.clipPacketBind_eq]
    exact h
  | _ => exact h

theorem blocks_of_mediaRows {d : DesiredState} (h : MediaRows d) :
    ∀ c ∈ d.heldLocks, Blocks c := by
  intro c hc hclass hid
  obtain ⟨⟨cls, id⟩, r, hr, hcls, -, hcmd⟩ := (mem_heldLocks c).mp hc
  obtain rfl : cls = lockClsMedia := hcls.symm.trans hclass
  rw [h id r hr] at hcmd
  have hscale : c.2 = lockScaleBlock := by
    simpa [Slots.commands] using congrArg Prod.snd (List.mem_singleton.mp hcmd)
  rw [hscale]
  decide

/-- An entry the box takes on a clone with its fields. -/
structure Paired (t : StoredTransform) : Prop where
  op : t.op < tfOpCount
  pair : transformPairOk t.op t.sclass t.sid t.dclass t.did

/-- The held tables are ones the box has room for, entry by entry. -/
structure HeldWf (d : DesiredState) : Prop where
  media : MediaRows d
  rules : ∀ r ∈ d.rewrites, Rewrites.Valid r
  pool : (d.rewrites.map (·.payload.length)).sum ≤ rewritePayloadPool
  ruleCount : d.rewrites.length ≤ rewriteMaxEntries
  transforms : ∀ t ∈ d.transforms, Paired t
  transformCount : d.transforms.length ≤ transformMaxEntries

theorem HeldWf.default : HeldWf .default where
  media := fun _ _ h => absurd h (by simp [DesiredState.default])
  rules := fun _ h => absurd h List.not_mem_nil
  pool := Nat.zero_le _
  ruleCount := Nat.zero_le _
  transforms := fun _ h => absurd h List.not_mem_nil
  transformCount := Nat.zero_le _

/-- The rules kept are some of those held. -/
theorem HeldWf.of_sublist {d d' : DesiredState} (h : HeldWf d) (hmedia : MediaRows d')
    (hr : d'.rewrites.Sublist d.rewrites) (ht : d'.transforms.Sublist d.transforms) : HeldWf d' where
  media := hmedia
  rules := fun r hm => h.rules r (hr.mem hm)
  pool := ((hr.map _).sum_le_sum fun _ _ => Nat.zero_le _).trans h.pool
  ruleCount := hr.length_le.trans h.ruleCount
  transforms := fun t hm => h.transforms t (ht.mem hm)
  transformCount := ht.length_le.trans h.transformCount

theorem paired_stored {t : Transform} (h : validateTransform t = .ok ()) :
    Paired (storedTransform t) := by
  unfold validateTransform at h
  split at h
  · cases h
  next hadmits =>
    refine ⟨?_, Transforms.transformPairOk_of_admits (not_not.mp hadmits)⟩
    change t.op.asU8 < tfOpCount
    cases t.op <;> decide

theorem HeldWf.setRewrite {d : DesiredState} (h : HeldWf d) (hkeyed : d.TablesKeyed)
    {rule : RewriteRule} (hvalid : validateRule rule = .ok ())
    (hcap : rewriteCapacity d rule = .ok ()) : HeldWf (d.applyRewrite (toStored rule)).1 := by
  have hroom := Rewrites.room_of_capacity hcap h.pool
  rw [DesiredState.applyRewrite_eq]
  refine ⟨h.media, fun r hr => ?_, ?_, ?_, h.transforms, h.transformCount⟩
  · obtain rfl | hr := Keyed.mem_setLast _ hkeyed.rewrites hr
    · exact Rewrites.valid_of_validateRule hvalid
    · exact h.rules r hr
  · exact Rewrites.poolSum_setLast hkeyed.rewrites h.pool hroom
  · by_cases hmem : ∃ e ∈ d.rewrites, e.key = (toStored rule).key
    · exact (Keyed.length_setLast_of_mem _ hmem).trans_le h.ruleCount
    · have hnew : ∀ e ∈ d.rewrites, e.key ≠ (toStored rule).key := fun e he hk => hmem ⟨e, he, hk⟩
      exact (Keyed.length_setLast_le _ _ _).trans (hroom.2 hnew)

theorem HeldWf.setTransform {d : DesiredState} (h : HeldWf d) {t : Transform}
    (hvalid : validateTransform t = .ok ())
    (hroom : d.holdsTransform (storedTransform t).key = false →
      d.transformCount < transformMaxEntries) : HeldWf (d.applyTransform (storedTransform t)).1 := by
  rw [DesiredState.applyTransform_eq]
  refine ⟨h.media, h.rules, h.pool, h.ruleCount, fun u hu => ?_, ?_⟩
  · obtain rfl | hu := Keyed.mem_setInPlace _ hu
    · exact paired_stored hvalid
    · exact h.transforms u hu
  · by_cases hmem : ∃ e ∈ d.transforms, e.key = (storedTransform t).key
    · exact (Keyed.length_setInPlace_of_mem _ hmem).trans_le h.transformCount
    · have hnew : d.holdsTransform (storedTransform t).key = false := by
        simpa [DesiredState.holdsTransform] using hmem
      exact (Keyed.length_setInPlace_le _ _ _).trans (hroom hnew)

theorem HeldWf.recorded {d d' : DesiredState} (hkeyed : d.TablesKeyed) (h : HeldWf d)
    (hr : Recorded d d') : HeldWf d' := by
  have hmedia := mediaRows_recorded h.media hr
  cases hr with
  | setRewrite hvalid hcap => exact h.setRewrite hkeyed hvalid hcap
  | setTransform hvalid hroom => exact h.setTransform hvalid hroom
  | removeRewrite key =>
    rw [DesiredState.removeRewrite_eq] at hmedia ⊢
    exact h.of_sublist hmedia (Keyed.remove_sublist _ _ _) (List.Sublist.refl _)
  | removeTransform key =>
    rw [DesiredState.removeTransform_eq] at hmedia ⊢
    exact h.of_sublist hmedia (List.Sublist.refl _) (Keyed.remove_sublist _ _ _)
  | reset => exact h.of_sublist hmedia (List.nil_sublist _) (List.nil_sublist _)
  | clearRewrites | optOut =>
    exact h.of_sublist hmedia (List.nil_sublist _) (List.Sublist.refl _)
  | clearTransforms => exact h.of_sublist hmedia (List.Sublist.refl _) (List.nil_sublist _)
  | apply usage action =>
    unfold DesiredState.apply at hmedia ⊢
    split at hmedia <;> exact h.of_sublist hmedia (List.Sublist.refl _) (List.Sublist.refl _)
  | lock hc =>
    obtain ⟨locks, order, hd⟩ := d.applyLock_frame _ _
    rw [hd] at hmedia ⊢
    exact h.of_sublist hmedia (List.Sublist.refl _) (List.Sublist.refl _)
  | bindPacket =>
    rw [DesiredState.clipPacketBind_eq] at hmedia ⊢
    exact h.of_sublist hmedia (List.Sublist.refl _) (List.Sublist.refl _)
  | _ => exact h.of_sublist hmedia (List.Sublist.refl _) (List.Sublist.refl _)

theorem heldWf_of_reachable {d : DesiredState} (h : Reachable d) : HeldWf d :=
  h.invariant .default fun _ _ hkeyed hwf hr => hwf.recorded hkeyed hr

end Medius.Replay
