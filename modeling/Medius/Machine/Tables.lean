import Medius.Lib.Stocked
import Medius.Locks.BoxLaws
import Medius.Mock.Responder
import Medius.Packets.Runs
import Medius.Readback.Clip
import Medius.Readback.Patches
import Medius.Readback.Rewrites
import Medius.Transforms.Laws

/-! What the box's tables hold, whatever frames arrive. -/

namespace Medius.Machine

open Protocol Mock Medius.Types

section Locks

open Locks

variable {t : LockTable}

theorem media_wf (h : BoxWf t) {id : UInt16} (h0 : id ≠ 0) (hall : id ≠ lockIdAll) (on : Prop)
    [Decidable on] :
    BoxWf (if ¬on then { t with media := t.media.map fun s => if s = id then 0 else s }
      else if id ∉ t.media then { t with media := t.media.replace 0 id } else t) := by
  split
  · exact
      { edge_bits := h.edge_bits
        media_length := (SlotArray.length_release _ _ _).trans h.media_length
        media_nodup := SlotArray.nodup_held_release h.media_nodup
        media_granular := fun hm => h.media_granular ((SlotArray.mem_release (by decide)).mp hm).1 }
  · split
    next hid =>
      by_cases hfree : 0 ∈ t.media
      · refine
          { edge_bits := h.edge_bits
            media_length := (SlotArray.length_take _ _ _).trans h.media_length
            media_nodup := SlotArray.nodup_held_take h.media_nodup hfree h0 hid
            media_granular := fun hm => ?_ }
        obtain hm | hm := (SlotArray.mem_take hfree h0 (by decide)).mp hm
        · exact hall hm.symm
        · exact h.media_granular hm
      · rw [List.replace_of_not_mem hfree]
        exact h
    next => exact h

theorem blanket_lt {kb m : UInt8} (h : kb.toNat < 4) (on : Prop) [Decidable on] :
    (if on then kb ||| (m &&& 0x03) else kb &&& ~~~(m &&& 0x03)).toNat < 4 := by
  split
  · rw [UInt8.toNat_or, UInt8.toNat_and]
    exact Nat.or_lt_two_pow (n := 2) h (Nat.lt_succ_of_le Nat.and_le_right)
  · rw [UInt8.toNat_and]
    exact Nat.and_le_left.trans_lt h

/-- Whatever a frame asks, the table stays one the box can hold. -/
theorem apply_wf (h : BoxWf t) (class_ : UInt8) (id : UInt16) (dir : UInt8) (scale : Int16)
    (n : UInt8) : BoxWf (t.apply class_ id dir scale n) := by
  unfold LockTable.apply
  dsimp only
  split
  · exact h
  split
  · split
    · rw [setMouseAll_rest]
      exact { h with }
    · split <;> exact { h with }
  split
  · split
    · rw [setMouseAll_rest]
      exact { h with }
    · split <;> exact { h with }
  split
  · split
    · split
      · exact h
      · exact { h with edge_bits := blanket_lt h.edge_bits _ }
    · split
      · exact h
      · exact { h with }
  split
  · split
    · exact { h with }
    next hall =>
      by_cases h0 : id = 0
      · rw [if_neg (not_not.mpr h0)]
        exact h
      · rw [if_pos h0]
        exact media_wf h h0 hall _
  · exact h

theorem applyLockFrame_wf (h : BoxWf t) (cloneUp : Bool) (n : UInt8) (p : List UInt8) :
    BoxWf (t.applyLockFrame cloneUp n p) := by
  unfold LockTable.applyLockFrame
  split
  · split
    · exact apply_wf h _ _ _ _ _
    · exact h
  · exact h

theorem applyLockFrame_down (t : LockTable) (n : UInt8) (p : List UInt8) :
    t.applyLockFrame false n p = t := by
  unfold LockTable.applyLockFrame
  split
  · exact if_neg nofun
  · rfl

end Locks

section Rewrites

/-- A rule the box admits, short enough for its own read-back. -/
structure Rule (r : MockRewrite) : Prop where
  class_ : rewritable r.class_
  dir : r.dir ≤ lockDirNeg
  action : rewriteAdmissible r.class_ r.action r.offset r.payload
  matchLen : r.matchBytes.length ≤ rewriteMatchMax
  maskLen : r.mask.length = r.matchBytes.length
  fits : 11 + 2 * r.matchBytes.length + r.payload.length ≤ maxPayload

abbrev Rules (l : List MockRewrite) : Prop :=
  Keyed.Stocked MockRewrite.key (·.payload.length) rewriteMaxEntries rewritePayloadPool Rule l

theorem rules_set {t : Mock.RewriteTable} (h : Rules t.rewrites) {r : MockRewrite} (hr : Rule r) :
    Rules (t.set r).rewrites := by
  have hlast : (t.set r).rewrites = t.rewrites ∨
      ((t.rewrites.filter fun e => e.key ≠ r.key).map (·.payload.length)).sum + r.payload.length ≤
          rewritePayloadPool ∧
        ((∃ e ∈ t.rewrites, e.key = r.key) ∨ t.rewrites.length < rewriteMaxEntries) ∧
        (t.set r).rewrites = Keyed.remove MockRewrite.key t.rewrites r.key ++ [r] := by
    unfold RewriteTable.set Keyed.remove Keyed.position
    dsimp only
    split
    · exact .inl rfl
    split
    · exact .inl rfl
    next hroom =>
      refine .inr ⟨Nat.not_lt.mp fun hp => hroom (.inl hp), ?_, ?_⟩
      · by_cases hheld : ∃ e ∈ t.rewrites, e.key = r.key
        · exact .inl hheld
        · have hnone := (Keyed.position_eq_none MockRewrite.key t.rewrites r.key).mpr
            fun e he hk => hheld ⟨e, he, hk⟩
          refine .inr (Nat.not_le.mp fun hfull => hroom (.inr ⟨?_, hfull⟩))
          exact Option.isNone_iff_eq_none.mpr hnone
      · cases t.rewrites.findIdx? fun e => e.key = r.key <;> rfl
  obtain hsame | ⟨hcost, hplace, hlast⟩ := hlast
  · rw [hsame]
    exact h
  · rw [hlast]
    exact h.replaceLast hr hcost hplace

theorem rules_applyRule {t : Mock.RewriteTable} (h : Rules t.rewrites) (state : UInt8)
    {r : MockRewrite} (hmask : r.mask.length = r.matchBytes.length)
    (hfits : 11 + 2 * r.matchBytes.length + r.payload.length ≤ maxPayload) :
    Rules (t.applyRule state r).rewrites := by
  unfold RewriteTable.applyRule
  split
  · exact .nil
  split
  · exact h
  next hclass =>
    split
    · exact h
    next hlen =>
      split
      · exact h
      next haction =>
        split
        · exact h.sublist (Readback.remove_sublist t r)
        next hstate =>
          rw [not_or, not_not, gt_iff_lt, UInt8.not_lt] at hclass
          exact rules_set h
            { class_ := hclass.1
              dir := hclass.2
              action := not_not.mp fun ha => haction ⟨hstate, ha⟩
              matchLen := Nat.not_lt.mp hlen
              maskLen := hmask
              fits := hfits }

theorem rules_applyRewriteFrame {t : Mock.RewriteTable} (h : Rules t.rewrites) (allowed : Bool)
    (p : List UInt8) : Rules (t.applyRewriteFrame allowed p).rewrites := by
  unfold RewriteTable.applyRewriteFrame
  split
  next rest =>
    dsimp only
    split
    · exact h
    next hlen =>
      split
      · exact h
      · rw [not_or, Nat.not_lt, Nat.not_lt] at hlen
        refine rules_applyRule h _ ?_ ?_
        · simp only [List.length_take, List.length_drop]
          omega
        · simp only [List.length_take, List.length_drop]
          omega
  · exact h

end Rewrites

section Transforms

/-- A transform the box takes: its ends were fields of the clone's, so that they have names. -/
structure Pair (t : MockTransform) : Prop where
  op : t.op < tfOpCount
  pair : transformPairOk t.op t.sclass t.sid t.dclass t.did
  source : (LockTarget.fromClassId t.sclass t.sid).isSome
  dest : (LockTarget.fromClassId t.dclass t.did).isSome

abbrev Pairs (l : List MockTransform) : Prop :=
  Keyed.Stocked MockTransform.key (fun _ => 0) transformMaxEntries 0 Pair l

theorem named_of_present {caps : Caps} {cloneUp : Bool} {class_ : UInt8} {id : UInt16}
    (h : transformFieldPresent caps cloneUp class_ id) :
    (LockTarget.fromClassId class_ id).isSome := by
  unfold transformFieldPresent at h
  unfold LockTarget.fromClassId
  split at h
  · cases h
  split at h
  next haxis =>
    rw [if_pos haxis]
    split_ifs at h with h0 h1 h2 h3
    · subst h0
      rfl
    · subst h1
      rfl
    · subst h2
      rfl
    · subst h3
      rfl
  next haxis =>
    rw [if_neg haxis]
    split_ifs at h with h0 h1 h2
    · subst h0
      rfl
    · subst h1
      rfl
    · subst h2
      rfl

theorem pairs_applyTransformFrame {t : TransformTable} (h : Pairs t.transforms) (caps : Caps)
    (cloneUp : Bool) (p : List UInt8) :
    Pairs (t.applyTransformFrame caps cloneUp p).transforms := by
  unfold TransformTable.applyTransformFrame
  split
  · dsimp only
    split
    · exact .nil
    split
    · rw [Transforms.transforms_remove]
      exact h.sublist (Keyed.remove_sublist _ _ _)
    split
    · exact h
    next hok =>
      rw [not_or, not_or, not_or, ge_iff_le, UInt8.not_le, not_not, not_not, not_not] at hok
      rw [Transforms.transforms_set]
      exact h.setWithin
        ⟨hok.1, hok.2.1, named_of_present hok.2.2.1, named_of_present hok.2.2.2⟩ id
  · exact h

/-- A transform's fields are the clone's, so that none is taken while no clone is up. -/
theorem applyTransformFrame_down (caps : Caps) (p : List UInt8) :
    TransformTable.default.applyTransformFrame caps false p = .default := by
  unfold TransformTable.applyTransformFrame
  split
  · dsimp only
    split
    · rfl
    split
    · rfl
    · exact if_pos (.inr (.inr (.inl (by simp [transformFieldPresent]))))
  · rfl

end Transforms

section Patches

/-- A patch of a known section that is not empty. -/
structure Stored (q : MockPatch) : Prop where
  section_ : (PatchSection.fromU8 q.section_).isSome
  bytes : q.bytes ≠ []

abbrev Patches (l : List MockPatch) : Prop :=
  Keyed.Stocked MockPatch.key (·.bytes.length) patchMaxEntries patchPool Stored l

theorem patches_put {s : PatchStore} (h : Patches s.patches) {q : MockPatch}
    (hq : (PatchSection.fromU8 q.section_).isSome) : Patches (s.put q).patches := by
  unfold PatchStore.put
  dsimp only
  split
  · split
    · exact h.sublist (List.eraseIdx_sublist _ _)
    · exact h
  next hbytes =>
    split
    · exact h
    split
    · exact h
    next hroom =>
      have hplace : (∃ e ∈ s.patches, e.key = q.key) ∨ s.patches.length < patchMaxEntries := by
        by_cases hheld : ∃ e ∈ s.patches, e.key = q.key
        · exact .inl hheld
        · have hnone := (Keyed.position_eq_none MockPatch.key s.patches q.key).mpr
            fun e he hk => hheld ⟨e, he, hk⟩
          refine .inr (Nat.not_le.mp fun hfull => hroom (.inr ⟨?_, hfull⟩))
          exact Option.isNone_iff_eq_none.mpr hnone
      have hlast := h.replaceLast ⟨hq, by simpa using hbytes⟩
        (Nat.not_lt.mp fun hp => hroom (.inl hp)) hplace
      unfold Keyed.remove Keyed.position at hlast
      cases hpos : s.patches.findIdx? fun e => e.key = q.key with
      | none =>
        rw [hpos] at hlast
        exact hlast
      | some i =>
        rw [hpos] at hlast
        exact hlast

end Patches

section Packets

open PacketTriggers

/-- The row lets every packet it matches through. -/
def Spares (r : MockPacketTrigger) : Prop := r.flags &&& clipTrigFConsume = 0

theorem kept_spares {flags : UInt8} (h : flags &&& clipTrigFConsume = 0) :
    flags &&& (clipTrigFConsume ||| clipTrigFRun) &&& clipTrigFConsume = 0 := by
  rw [UInt8.and_assoc, UInt8.and_comm (clipTrigFConsume ||| clipTrigFRun), ← UInt8.and_assoc, h]
  exact UInt8.zero_and

theorem admissible_spares {class_ : UInt8} {id : UInt16} {dir action flags slen : UInt8}
    {mask : List UInt8} (h : admissible class_ id dir action flags slen mask false) :
    flags &&& clipTrigFConsume = 0 := by
  unfold admissible at h
  dsimp only at h
  split at h
  · cases h
  split at h
  · cases h
  next hno => exact not_not.mp fun hc => hno ⟨hc, .inr (by simp)⟩

theorem spares_set {rows rows' : Rows} (h : ∀ r ∈ rows, Spares r) {class_ : UInt8} {id : UInt16}
    {dir action flags slen : UInt8} {matchBytes mask : List UInt8} {i : Nat}
    (hs : PacketTriggers.set rows class_ id dir action flags slen matchBytes mask false =
      some (rows', i)) : ∀ r ∈ rows', Spares r := by
  unfold PacketTriggers.set at hs
  split at hs
  · cases hs
  dsimp only at hs
  split at hs
  · obtain ⟨j, -, heq⟩ := Option.map_eq_some_iff.mp hs
    cases heq
    exact fun r hr => h r (List.mem_of_mem_eraseIdx hr)
  split at hs
  · cases hs
  next hadm =>
    have hrow := kept_spares (admissible_spares (not_not.mp hadm))
    split at hs
    next j hj =>
      cases hs
      intro r hr
      obtain ⟨k, hk⟩ := List.mem_iff_getElem?.mp hr
      rw [List.getElem?_modify] at hk
      obtain ⟨old, hold, rfl⟩ := Option.map_eq_some_iff.mp hk
      have hspares := h old (List.mem_of_getElem? hold)
      split
      · unfold MockPacketTrigger.overwrite
        split
        · exact hrow
        · exact hspares
      · exact hspares
    next =>
      split at hs
      · cases hs
      · cases hs
        intro r hr
        rw [List.mem_append, List.mem_singleton] at hr
        obtain hr | rfl := hr
        · exact h r hr
        · exact hrow

/-- With the opt-in off no frame has the box consume a packet. -/
theorem spares_applyClipTriggerFrame {rows : Rows} (h : ∀ r ∈ rows, Spares r) (p : List UInt8) :
    ∀ r ∈ PacketTriggers.applyClipTriggerFrame rows false p, Spares r := by
  unfold PacketTriggers.applyClipTriggerFrame
  split
  · split
    · split
      · dsimp only
        split
        · exact h
        · cases hs : PacketTriggers.set rows _ _ _ _ _ _ _ _ false with
          | none => exact h
          | some s => exact spares_set h hs
      · exact h
    · split
      · exact fun r hr => absurd hr List.not_mem_nil
      · exact h
  · exact h

theorem spares_dropConsuming (rows : Rows) : ∀ r ∈ dropConsuming rows, Spares r :=
  fun _ hr => by simpa [Spares] using (List.mem_filter.mp hr).2

/-- The packet triggers the box can hold: the rows its checks let in, one under a key. -/
structure Triggers (rows : Rows) : Prop where
  holdable : Readback.Holdable rows
  keys : (rows.map MockPacketTrigger.key).Nodup

/-- The row as it was bound, whatever packets came since. -/
def bare (r : MockPacketTrigger) : MockPacketTrigger := { r with hits := 0, live := false }

variable {rows rows' : Rows}

theorem Triggers.nil : Triggers [] :=
  ⟨⟨Nat.zero_le _, Nat.zero_le _, fun _ h => absurd h List.not_mem_nil⟩, List.nodup_nil⟩

theorem Triggers.sublist (h : Triggers rows) (hsub : rows'.Sublist rows) : Triggers rows' :=
  ⟨h.holdable.sublist hsub, h.keys.sublist (hsub.map _)⟩

theorem Triggers.set (h : Triggers rows) {class_ : UInt8} {id : UInt16}
    {dir action flags slen : UInt8} {matchBytes mask : List UInt8} {imperfect : Bool} {i : Nat}
    (hs : PacketTriggers.set rows class_ id dir action flags slen matchBytes mask imperfect =
      some (rows', i)) : Triggers rows' := by
  refine ⟨h.holdable.set hs, ?_⟩
  have hall : Packets.setAll rows
      ⟨class_, id, dir, action, flags, slen, matchBytes, mask, imperfect⟩ = rows' := by
    rw [Packets.setAll, hs]
    rfl
  obtain hsame | hsets := Packets.set_cases rows
    ⟨class_, id, dir, action, flags, slen, matchBytes, mask, imperfect⟩
  · rw [← hall, hsame]
    exact h.keys
  · rw [← hall]
    exact hsets.nodup h.keys

theorem Triggers.applyClipTriggerFrame (h : Triggers rows) (imperfect : Bool) (p : List UInt8) :
    Triggers (PacketTriggers.applyClipTriggerFrame rows imperfect p) := by
  refine ⟨h.holdable.applyClipTriggerFrame imperfect p, ?_⟩
  unfold PacketTriggers.applyClipTriggerFrame
  split
  · split
    · split
      · dsimp only
        split
        · exact h.keys
        · cases hs : PacketTriggers.set rows _ _ _ _ _ _ _ _ imperfect with
          | none => exact h.keys
          | some s => exact (h.set hs).keys
      · exact h.keys
    · split
      · exact List.nodup_nil
      · exact h.keys
  · exact h.keys

theorem exists_bare (h : rows'.map bare = rows.map bare) {r : MockPacketTrigger} (hr : r ∈ rows') :
    ∃ old ∈ rows, bare old = bare r := by
  have hmem : bare r ∈ rows.map bare := h ▸ List.mem_map_of_mem hr
  exact List.mem_map.mp hmem

/-- What a packet changes of the rows is none of the box's checks' business. -/
theorem Triggers.of_bare (h : Triggers rows) (heq : rows'.map bare = rows.map bare) :
    Triggers rows' := by
  have hkeys : rows'.map MockPacketTrigger.key = rows.map MockPacketTrigger.key := by
    have h := congrArg (List.map MockPacketTrigger.key) heq
    rwa [List.map_map, List.map_map] at h
  have hused : matchUsed rows' = matchUsed rows := by
    have h := congrArg matchUsed heq
    rwa [matchUsed, matchUsed, List.map_map, List.map_map] at h
  refine ⟨⟨?_, hused ▸ h.holdable.pool, fun r hr => ?_⟩, hkeys ▸ h.keys⟩
  · have hlen := congrArg List.length heq
    rw [List.length_map, List.length_map] at hlen
    exact hlen.trans_le h.holdable.count
  · obtain ⟨old, hold, hbare⟩ := exists_bare heq hr
    have hadm : Readback.Admitted (bare old) :=
      ⟨(h.holdable.admitted old hold).address, (h.holdable.admitted old hold).fields⟩
    rw [hbare] at hadm
    exact ⟨hadm.address, hadm.fields⟩

theorem spares_of_bare (h : ∀ r ∈ rows, Spares r) (heq : rows'.map bare = rows.map bare) :
    ∀ r ∈ rows', Spares r := by
  intro r hr
  obtain ⟨old, hold, hbare⟩ := exists_bare heq hr
  have hspares : Spares (bare old) := h old hold
  rwa [hbare] at hspares

theorem serve_bare (rows : Rows) (p : Packets.Packet) :
    (Packets.serve rows p).1.map bare = rows.map bare := by
  have h := congrArg (List.map bare) (Packets.serve_unhit rows p)
  rw [List.map_map, List.map_map] at h
  refine Eq.trans h (List.map_congr_left fun r _ => ?_)
  simp only [Function.comp_apply, Packets.observeFor_eq]
  split <;> rfl

theorem modify_bare (rows : Rows) (i : Nat) (n : UInt32) :
    (rows.modify i fun r => { r with hits := n }).map bare = rows.map bare := by
  rw [Packets.map_modify (f := bare) (g := fun r => { r with hits := n }) (k := id) fun _ => rfl,
    List.modify_id]

theorem scriptTrigger_triggers (h : Triggers rows) (imperfect : Bool)
    (e : ClipPacketTriggerEntry) : Triggers (Box.scriptTrigger imperfect rows e) := by
  unfold Box.scriptTrigger
  dsimp only
  split
  next rows' i hs => exact (h.set hs).of_bare (modify_bare rows' i _)
  · exact h

theorem scriptTrigger_spares (h : ∀ r ∈ rows, Spares r) (e : ClipPacketTriggerEntry) :
    ∀ r ∈ Box.scriptTrigger false rows e, Spares r := by
  unfold Box.scriptTrigger
  dsimp only
  split
  next rows' i hs => exact spares_of_bare (spares_set h hs) (modify_bare rows' i _)
  · exact h

theorem foldl_triggers (h : Triggers rows) (imperfect : Bool)
    (entries : List ClipPacketTriggerEntry) :
    Triggers (entries.foldl (Box.scriptTrigger imperfect) rows) := by
  induction entries generalizing rows with
  | nil => exact h
  | cons e entries ih => exact ih (scriptTrigger_triggers h imperfect e)

theorem foldl_spares (h : ∀ r ∈ rows, Spares r) (entries : List ClipPacketTriggerEntry) :
    ∀ r ∈ entries.foldl (Box.scriptTrigger false) rows, Spares r := by
  induction entries generalizing rows with
  | nil => exact h
  | cons e entries ih => exact ih (scriptTrigger_spares h e)

end Packets

end Medius.Machine
