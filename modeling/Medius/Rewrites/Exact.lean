import Medius.Rewrites.History

/-! The host accepts a rewrite rule exactly if the box stores it. -/

namespace Medius.Rewrites

open Protocol Link Mock Medius.Types

/-- What an empty table takes of a rule with state 1. -/
theorem mem_applyRule_empty {gen : UInt8} {full : Bool} {r row : MockRewrite} :
    row ∈ (RewriteTable.applyRule ⟨[], gen, full⟩ 1 r).rewrites ↔
      Addressable (stored r) ∧ rewriteAdmissible r.class_ r.action r.offset r.payload ∧
        r.payload.length ≤ rewritePayloadPool ∧ row = r := by
  unfold RewriteTable.applyRule
  rw [if_neg (fun h => absurd h.1 (by decide))]
  split
  next haddr =>
    refine iff_of_false nofun fun h => ?_
    obtain hclass | hdir := haddr
    · exact hclass h.1.rewritable
    · exact UInt8.not_lt.mpr h.1.direction hdir
  next haddr =>
    rw [not_or, not_not, UInt8.not_lt] at haddr
    split
    next hlen => exact iff_of_false nofun fun h => absurd hlen (Nat.not_lt.mpr h.1.matchLen)
    next hlen =>
      split
      next hadm => exact iff_of_false nofun fun h => hadm.2 h.2.1
      next hadm =>
        have hadm : rewriteAdmissible r.class_ r.action r.offset r.payload :=
          not_not.mp fun h => hadm ⟨by decide, h⟩
        rw [if_neg (by decide)]
        unfold RewriteTable.set
        simp only [List.findIdx?_nil, Option.bind_none, Option.any_none, Bool.false_eq_true, if_false,
          List.filter_nil, List.map_nil, List.sum_nil, Nat.zero_add]
        split
        next hpool =>
          refine iff_of_false nofun fun h => ?_
          obtain hpool | hfull := hpool
          · exact absurd h.2.2.1 (Nat.not_le.mpr hpool)
          · exact absurd hfull.2 (by decide)
        next hpool =>
          rw [not_or, Nat.not_lt] at hpool
          rw [List.nil_append, List.mem_singleton]
          exact ⟨fun h => ⟨⟨haddr.1, haddr.2, Nat.not_lt.mp hlen⟩, hadm, hpool.1, h⟩, fun h => h.2.2.2⟩

/-- The row has the rule's match and mask only if the frame's one length tells both. -/
theorem mem_applyRewriteFrame {gen : UInt8} {full : Bool} {r : StoredRewrite} {row : MockRewrite} :
    (row ∈ (RewriteTable.applyRewriteFrame ⟨[], gen, full⟩ true (frame 1 r)).rewrites ∧
      row.matchBytes = r.matchBytes ∧ row.mask = r.mask) ↔ Valid r ∧ row = boxed r := by
  have hboxed (hmask : r.mask.length = r.matchBytes.length) (hlen : r.matchBytes.length < 256) :
      row ∈ (RewriteTable.applyRewriteFrame ⟨[], gen, full⟩ true (frame 1 r)).rewrites ↔
        Valid r ∧ row = boxed r := by
    rw [applyRewriteFrame_frame _ 1 hmask hlen]
    split
    next hover => exact iff_of_false nofun fun h => absurd hover (Nat.not_lt.mpr h.1.carried)
    next hcarried =>
      have hcarried := Nat.not_lt.mp hcarried
      rw [mem_applyRule_empty]
      constructor
      · rintro ⟨haddr, hadm, -, hrow⟩
        exact ⟨⟨hmask, haddr, hadm, hcarried⟩, hrow⟩
      · rintro ⟨h, hrow⟩
        refine ⟨h.address, h.admissible, ?_, hrow⟩
        change r.payload.length ≤ rewritePayloadPool
        simp only [maxPayload, rewritePayloadPool] at hcarried ⊢
        omega
  constructor
  · rintro ⟨hrow, hmatch, hmask⟩
    have hcut := hrow
    change row ∈ (RewriteTable.applyRewriteFrame _ true (r.class_ :: UInt8.ofNat r.id.toNat ::
      UInt8.ofNat (r.id.toNat / 256) :: r.direction :: 1 :: r.action ::
      UInt8.ofNat r.offset.toNat :: UInt8.ofNat (r.offset.toNat / 256) ::
      UInt8.ofNat r.matchBytes.length :: (r.matchBytes ++ r.mask ++ r.payload))).rewrites at hcut
    simp only [RewriteTable.applyRewriteFrame, not_true_eq_false, false_and, if_false] at hcut
    have hmlen := (UInt8.ofNat r.matchBytes.length).toNat_lt
    generalize (UInt8.ofNat r.matchBytes.length).toNat = mlen at hcut hmlen
    generalize r.matchBytes ++ r.mask ++ r.payload = rest at hcut
    split at hcut
    · cases hcut
    next hshort =>
      obtain ⟨-, -, -, hcut⟩ := mem_applyRule_empty.mp hcut
      rw [hcut] at hmatch hmask
      have hlen := congrArg List.length hmatch
      have hlen' := congrArg List.length hmask
      simp only [List.length_take, List.length_drop] at hlen hlen'
      exact (hboxed (by omega) (by omega)).mp hrow
  · rintro ⟨h, hrow⟩
    have hlen := h.address.matchLen
    refine ⟨(hboxed h.mask (by simp only [rewriteMatchMax, pktMatchMax] at hlen; omega)).mpr
      ⟨h, hrow⟩, ?_⟩
    rw [hrow]
    exact ⟨rfl, rfl⟩

theorem validateRule_iff (rule : RewriteRule) :
    Device.validateRule rule = .ok () ↔ Valid (Device.toStored rule) := by
  refine ⟨valid_of_validateRule, fun h => ?_⟩
  have hmask : rule.mask.length = rule.matchBytes.length := h.mask
  have hlen : rule.matchBytes.length ≤ rewriteMatchMax := h.address.matchLen
  have hcarried : 11 + 2 * rule.matchBytes.length + rule.payload.length ≤ maxPayload := h.carried
  have hadm : rewriteAdmissible rule.class_.asU8 rule.action.asU8 rule.offset rule.payload :=
    h.admissible
  rw [rewriteAdmissible_toStored, Bool.and_eq_true, Bool.not_eq_true'] at hadm
  have hrel := Direction.asU8_le_neg.mp h.address.direction
  have hroom : ¬rule.payload.length > maxPayload - Device.entryHdr - 2 * rule.matchBytes.length := by
    simp only [maxPayload, Device.entryHdr] at hcarried ⊢
    omega
  unfold Device.validateRule
  dsimp only
  rw [if_neg (not_not.mpr hmask.symm), if_neg (Nat.not_lt.mpr hlen),
    if_neg (Bool.eq_false_iff.mp hrel), if_neg (not_not.mpr hadm.2), if_neg hroom,
    if_neg (Bool.eq_false_iff.mp hadm.1)]

/-- Whatever the table's generation and whether it had been full. -/
theorem validateRule_exact (rule : RewriteRule) (gen : UInt8) (full : Bool) :
    let payload := rewritePayload rule.class_.asU8 rule.id rule.direction.asU8 1 rule.action.asU8
      rule.offset rule.matchBytes rule.mask rule.payload
    Device.validateRule rule = .ok () ↔ payload.length ≤ maxPayload ∧
      ∃ row ∈ (RewriteTable.applyRewriteFrame ⟨[], gen, full⟩ true payload).rewrites,
        row.class_ = rule.class_.asU8 ∧ row.id = rule.id ∧ row.dir = rule.direction.asU8 ∧
          row.action = rule.action.asU8 ∧ row.offset = rule.offset ∧
          row.matchBytes = rule.matchBytes ∧ row.mask = rule.mask ∧ row.payload = rule.payload := by
  change _ ↔ (frame 1 (Device.toStored rule)).length ≤ maxPayload ∧ ∃ row ∈
    (RewriteTable.applyRewriteFrame ⟨[], gen, full⟩ true (frame 1 (Device.toStored rule))).rewrites, _
  rw [validateRule_iff]
  constructor
  · intro h
    obtain ⟨hrow, -⟩ := (@mem_applyRewriteFrame gen full _ _).mpr ⟨h, rfl⟩
    refine ⟨?_, _, hrow, rfl, rfl, rfl, rfl, rfl, rfl, rfl, rfl⟩
    have hcarried := h.carried
    rw [length_frame 1 h.mask]
    omega
  · rintro ⟨-, row, hrow, -, -, -, -, -, hmatch, hmask, -⟩
    exact (mem_applyRewriteFrame.mp ⟨hrow, hmatch, hmask⟩).1

end Medius.Rewrites
