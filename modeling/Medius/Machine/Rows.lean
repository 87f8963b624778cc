import Medius.Decode.Clip
import Medius.Locks.Readback
import Medius.Machine.Tables
import Medius.Readback.Replies

/-! How the rows of the box's tables read back, one for one: whatever the box let in has a name. -/

namespace Medius.Machine

open Protocol Mock Medius.Types Checked Readback

section Rewrites

structure RuleRow (r : MockRewrite) (e : RewriteEntry) : Prop where
  class_ : e.class_.asU8 = r.class_
  id : e.id = r.id
  direction : e.direction.asU8 = r.dir
  action : e.action.asU8 = r.action
  matchLen : e.matchLen.toNat = r.matchBytes.length
  offset : e.offset = r.offset
  payloadLen : e.payloadLen.toNat = r.payload.length
  hits : e.hits = r.hits

theorem class_of_rewritable {v : UInt8} (h : rewritable v) : ∃ c : RewriteClass, c.asU8 = v := by
  rw [rewritable, decide_eq_true_eq] at h
  simp only [List.mem_cons, List.not_mem_nil, or_false] at h
  obtain rfl | rfl | rfl | rfl | rfl | rfl | rfl := h
  exacts [⟨.hidIn, rfl⟩, ⟨.hidOut, rfl⟩, ⟨.vendorInterrupt, rfl⟩, ⟨.vendorBulk, rfl⟩,
    ⟨.control, rfl⟩, ⟨.emit, rfl⟩, ⟨.any, rfl⟩]

theorem action_of_admissible {class_ action : UInt8} {offset : UInt16} {payload : List UInt8}
    (h : rewriteAdmissible class_ action offset payload) :
    ∃ a : RewriteAction, a.asU8 = action := by
  unfold rewriteAdmissible at h
  dsimp only at h
  rw [Bool.and_eq_true] at h
  have h := h.2
  split at h
  next ha =>
    obtain rfl | rfl | rfl := ha
    exacts [⟨.pass, rfl⟩, ⟨.patch, rfl⟩, ⟨.replace, rfl⟩]
  split at h
  next ha => exact ⟨.drop, ha.symm⟩
  split at h
  next ha =>
    obtain rfl | rfl | rfl | rfl | rfl := ha
    exacts [⟨.answer, rfl⟩, ⟨.stall, rfl⟩, ⟨.nak, rfl⟩, ⟨.replyPatch, rfl⟩, ⟨.replyReplace, rfl⟩]
  · cases h

theorem Rule.reads {r : MockRewrite} (h : Rule r) :
    ∃ e, RewriteEntry.readRow (rewriteBytes r) = .value (some e) ∧ RuleRow r e := by
  obtain ⟨class_, hclass⟩ := class_of_rewritable h.class_
  obtain ⟨direction, -, hdirection⟩ := direction_of_le h.dir
  obtain ⟨action, haction⟩ := action_of_admissible h.action
  have hfits := h.fits
  simp only [maxPayload] at hfits
  refine ⟨⟨class_, r.id, direction, action, UInt8.ofNat r.matchBytes.length, r.offset,
    UInt16.ofNat r.payload.length, r.hits⟩, ?_,
    ⟨hclass, rfl, hdirection, haction, ?_, rfl, ?_, rfl⟩⟩
  · simp only [RewriteEntry.readRow, rewriteBytes, toLeBytes, List.cons_append, List.nil_append,
      le16, index_cons_succ, index_cons_zero, Reading.value_bind, Reading.pure_eq, ← hclass,
      ← hdirection, ← haction, RewriteClass.fromU8_asU8, RewriteAction.fromU8_asU8,
      Direction.fromU8_asU8, fromLeBytes_toLeBytes]
  · rw [UInt8.toNat_ofNat']
    omega
  · rw [UInt16.toNat_ofNat']
    omega

theorem flag_reads (on : Bool) : decide (flag on 0x01 &&& 0x01 ≠ 0) = on := by cases on <;> rfl

/-- `RESP(REWRITE)` reads back rule for rule, in the table's order. -/
theorem rewrite_reads {t : Mock.RewriteTable} (h : Rules t.rewrites) :
    ∃ entries, Types.RewriteTable.fromPayload (rewriteRespPayload t) =
        .value ⟨t.full, t.gen, entries⟩ ∧ List.Forall₂ RuleRow t.rewrites entries := by
  obtain ⟨entries, hread, hrows⟩ := readRows_reads 12
    [qRewrite, flag t.full 0x01, t.gen, UInt8.ofNat t.rewrites.length] rfl
    (fun _ => rfl) fun r hr => (h.entries r hr).reads
  have hcount := toNat_count h.count (by decide)
  refine ⟨entries, ?_, hrows⟩
  rw [Types.RewriteTable.fromPayload, ite_length (by simp [rewriteRespPayload])]
  change readRows 12 RewriteEntry.readRow (rewriteRespPayload t) 4 _ = _ at hread
  change (do
    let entries ← readRows 12 RewriteEntry.readRow (rewriteRespPayload t) 4
      (UInt8.ofNat t.rewrites.length).toNat
    return (⟨_, t.gen, entries⟩ : Types.RewriteTable)) = _
  rw [hcount, hread, Reading.value_bind, flag_reads]
  rfl

theorem length_rewriteRespPayload {t : Mock.RewriteTable} (h : Rules t.rewrites) :
    (rewriteRespPayload t).length ≤ maxPayload := by
  have hrows : (t.rewrites.flatMap rewriteBytes).length = t.rewrites.length * 12 := by
    simp [rewriteBytes, toLeBytes, List.length_flatMap]
  have hcount := h.count
  simp only [rewriteRespPayload, List.length_cons, hrows, rewriteMaxEntries, maxPayload] at *
  omega

end Rewrites

section Patches

structure PatchRow (q : MockPatch) (e : PatchEntry) : Prop where
  section_ : e.section_.asU8 = q.section_
  cfg : e.cfg = q.cfg
  index : e.index = q.index
  offset : e.offset = q.offset
  len : e.len.toNat = q.bytes.length

theorem section_of_fromU8 {v : UInt8} (h : (PatchSection.fromU8 v).isSome) :
    ∃ s : PatchSection, s.asU8 = v := by
  unfold PatchSection.fromU8 at h
  split_ifs at h with h0 h1 h2 h3 h4
  exacts [⟨.device, h0.symm⟩, ⟨.config, h1.symm⟩, ⟨.report, h2.symm⟩, ⟨.string, h3.symm⟩,
    ⟨.bos, h4.symm⟩, Bool.noConfusion h]

theorem Stored.reads {q : MockPatch} (h : Stored q) (hlen : q.bytes.length ≤ patchPool) :
    ∃ e, PatchEntry.readRow (patchBytes q) = .value (some e) ∧ PatchRow q e := by
  obtain ⟨section_, hsection⟩ := section_of_fromU8 h.section_
  refine ⟨⟨section_, q.cfg, q.index, q.offset, UInt16.ofNat q.bytes.length⟩, ?_,
    ⟨hsection, rfl, rfl, rfl, ?_⟩⟩
  · simp only [PatchEntry.readRow, patchBytes, toLeBytes, List.cons_append, List.nil_append, le16,
      index_cons_succ, index_cons_zero, Reading.value_bind, Reading.pure_eq, ← hsection,
      PatchSection.fromU8_asU8, fromLeBytes_toLeBytes]
  · simp only [patchPool] at hlen
    rw [UInt16.toNat_ofNat']
    omega

theorem Patches.length_le {l : List MockPatch} (h : Patches l) {q : MockPatch} (hq : q ∈ l) :
    q.bytes.length ≤ patchPool :=
  (List.single_le_sum (fun _ _ => Nat.zero_le _) _ (List.mem_map_of_mem hq)).trans h.budget

/-- `RESP(PATCHES)` reads back patch for patch, with what the clone is presented with beside what
is stored. -/
theorem patches_read {patches : List MockPatch} (h : Patches patches) (presented : List MockPatch)
    (refused full : Bool) :
    ∃ entries, PatchSet.fromPayload (patchesRespPayload patches presented refused full) =
        .value ⟨!presented.isEmpty, decide (patches ≠ presented), refused, full, entries⟩ ∧
      List.Forall₂ PatchRow patches entries := by
  obtain ⟨entries, hread, hrows⟩ := readRows_reads 7
    [qPatches, flag (!presented.isEmpty) 0x01 ||| flag (decide (patches ≠ presented)) 0x02
      ||| flag refused 0x04 ||| flag full 0x08, UInt8.ofNat patches.length] rfl
    (fun _ => rfl) fun q hq => (h.entries q hq).reads (h.length_le hq)
  have hcount := toNat_count h.count (by decide)
  have hflags : ∀ a b c d : Bool, decide ((flag a 0x01 ||| flag b 0x02 ||| flag c 0x04 |||
      flag d 0x08) &&& 0x01 ≠ 0) = a ∧ decide ((flag a 0x01 ||| flag b 0x02 ||| flag c 0x04 |||
      flag d 0x08) &&& 0x02 ≠ 0) = b ∧ decide ((flag a 0x01 ||| flag b 0x02 ||| flag c 0x04 |||
      flag d 0x08) &&& 0x04 ≠ 0) = c ∧ decide ((flag a 0x01 ||| flag b 0x02 ||| flag c 0x04 |||
      flag d 0x08) &&& 0x08 ≠ 0) = d := by decide
  obtain ⟨happlied, hpending, hrefused, hfull⟩ :=
    hflags (!presented.isEmpty) (decide (patches ≠ presented)) refused full
  refine ⟨entries, ?_, hrows⟩
  rw [PatchSet.fromPayload, ite_length (by simp [patchesRespPayload])]
  change readRows 7 PatchEntry.readRow (patchesRespPayload patches presented refused full) 3 _ = _
    at hread
  change (do
    let entries ← readRows 7 PatchEntry.readRow (patchesRespPayload patches presented refused full)
      3 (UInt8.ofNat patches.length).toNat
    return (⟨_, _, _, _, entries⟩ : PatchSet)) = _
  rw [hcount, hread, Reading.value_bind, happlied, hpending, hrefused, hfull]
  rfl

theorem length_patchesRespPayload {patches : List MockPatch} (h : Patches patches)
    (presented : List MockPatch) (refused full : Bool) :
    (patchesRespPayload patches presented refused full).length ≤ maxPayload := by
  have hrows : (patches.flatMap patchBytes).length = patches.length * 7 := by
    simp [patchBytes, toLeBytes, List.length_flatMap]
  have hcount := h.count
  simp only [patchesRespPayload, List.length_cons, hrows, patchMaxEntries, maxPayload] at *
  omega

end Patches

section Transforms

structure PairRow (t : MockTransform) (e : Transform) : Prop where
  op : e.op.asU8 = t.op
  source : e.source.classId = (t.sclass, t.sid)
  dest : e.dest.classId = (t.dclass, t.did)

theorem op_of_lt {v : UInt8} (h : v < tfOpCount) : ∃ op : TransformOp, op.asU8 = v := by
  obtain ⟨k, hk, rfl⟩ := exists_ofNat (P := (· < 2)) (UInt8.lt_iff_toNat_lt.mp h)
  interval_cases k
  exacts [⟨.remap, rfl⟩, ⟨.swap, rfl⟩]

theorem target_of_fromClassId {class_ : UInt8} {id : UInt16}
    (h : (LockTarget.fromClassId class_ id).isSome) :
    ∃ t : LockTarget, t.classId = (class_, id) := by
  obtain ⟨t, ht⟩ := Option.isSome_iff_exists.mp h
  refine ⟨t, ?_⟩
  unfold LockTarget.fromClassId at ht
  split at ht
  next haxis =>
    subst haxis
    cases ha : Axis.fromU16 id with
    | none =>
      rw [ha] at ht
      cases ht
    | some a =>
      rw [ha] at ht
      cases ht
      refine Prod.ext rfl ?_
      unfold Axis.fromU16 at ha
      split_ifs at ha with h0 h1 h2 h3 <;> cases ha
      exacts [h0.symm, h1.symm, h2.symm, h3.symm]
  next =>
    cases hc : Class.fromU8 class_ with
    | none =>
      rw [hc] at ht
      cases ht
    | some c =>
      rw [hc] at ht
      cases ht
      refine Prod.ext ?_ rfl
      unfold Class.fromU8 at hc
      split_ifs at hc with h0 h1 h2 <;> cases hc
      exacts [h0.symm, h1.symm, h2.symm]

theorem Pair.reads {t : MockTransform} (h : Pair t) :
    ∃ e, Transform.readRow (transformBytes t) = .value (some e) ∧ PairRow t e := by
  obtain ⟨op, hop⟩ := op_of_lt h.op
  obtain ⟨source, hsource⟩ := target_of_fromClassId h.source
  obtain ⟨dest, hdest⟩ := target_of_fromClassId h.dest
  have hnamed : TransformOp.fromU8 op.asU8 = some op := by cases op <;> rfl
  have hsclass : source.classId.1 = t.sclass := congrArg Prod.fst hsource
  have hsid : source.classId.2 = t.sid := congrArg Prod.snd hsource
  have hdclass : dest.classId.1 = t.dclass := congrArg Prod.fst hdest
  have hdid : dest.classId.2 = t.did := congrArg Prod.snd hdest
  refine ⟨⟨op, source, dest⟩, ?_, ⟨hop, hsource, hdest⟩⟩
  simp only [Transform.readRow, transformBytes, toLeBytes, List.cons_append, List.nil_append, le16,
    index_cons_succ, index_cons_zero, Reading.value_bind, Reading.pure_eq, ← hop, ← hsclass,
    ← hsid, ← hdclass, ← hdid, hnamed, fromLeBytes_toLeBytes, LockTarget.fromClassId_classId]

/-- `RESP(TRANSFORMS)` reads back transform for transform, in the table's order. -/
theorem transforms_read {t : TransformTable} (h : Pairs t.transforms) :
    ∃ entries, Transforms.fromPayload (transformsRespPayload t) = .value ⟨t.full, entries⟩ ∧
      List.Forall₂ PairRow t.transforms entries := by
  obtain ⟨entries, hread, hrows⟩ := readRows_reads 7
    [qTransforms, flag t.full tfFFull, UInt8.ofNat t.transforms.length] rfl
    (fun _ => rfl) fun r hr => (h.entries r hr).reads
  have hcount := toNat_count h.count (by decide)
  refine ⟨entries, ?_, hrows⟩
  rw [Transforms.fromPayload, ite_length (by simp [transformsRespPayload])]
  change readRows 7 Transform.readRow (transformsRespPayload t) 3 _ = _ at hread
  change (do
    let entries ← readRows 7 Transform.readRow (transformsRespPayload t) 3
      (UInt8.ofNat t.transforms.length).toNat
    return (⟨_, entries⟩ : Transforms)) = _
  rw [hcount, hread, Reading.value_bind, flag_reads]
  rfl

theorem length_transformsRespPayload {t : TransformTable} (h : Pairs t.transforms) :
    (transformsRespPayload t).length ≤ maxPayload := by
  have hrows : (t.transforms.flatMap transformBytes).length = t.transforms.length * 7 := by
    simp [transformBytes, toLeBytes, List.length_flatMap]
  have hcount := h.count
  simp only [transformsRespPayload, List.length_cons, hrows, transformMaxEntries, maxPayload] at *
  omega

end Transforms

end Medius.Machine
