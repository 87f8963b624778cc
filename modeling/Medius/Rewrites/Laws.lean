import Medius.Device.Rewrite
import Medius.Link.Tables
import Medius.Mock.RewriteTable

/-! What a rewrite command does to the rules the host holds, and what its frame does to the
box's table: both lists are one keyed table. -/

namespace Medius.Rewrites

open Protocol Link Mock Medius.Types

def stored (r : MockRewrite) : StoredRewrite where
  class_ := r.class_
  id := r.id
  direction := r.dir
  action := r.action
  offset := r.offset
  matchBytes := r.matchBytes
  mask := r.mask
  payload := r.payload

/-- The row the box keeps of a rule, before any packet meets it. -/
def boxed (r : StoredRewrite) : MockRewrite where
  class_ := r.class_
  id := r.id
  dir := r.direction
  action := r.action
  offset := r.offset
  matchBytes := r.matchBytes
  mask := r.mask
  payload := r.payload
  hits := 0

@[simp] theorem stored_boxed (r : StoredRewrite) : stored (boxed r) = r := rfl

@[simp] theorem key_boxed (r : StoredRewrite) : (boxed r).key = r.key := rfl

theorem key_stored : StoredRewrite.key ∘ stored = MockRewrite.key := rfl

def boxRules (t : RewriteTable) : List StoredRewrite := t.rewrites.map stored

/-- What the table's other rules take of the pool. -/
def poolExcept (l : List StoredRewrite) (key : RewriteWireKey) : Nat :=
  ((l.filter fun r => r.key ≠ key).map (·.payload.length)).sum

def Room (l : List StoredRewrite) (r : StoredRewrite) : Prop :=
  poolExcept l r.key + r.payload.length ≤ rewritePayloadPool ∧
    ((∀ e ∈ l, e.key ≠ r.key) → l.length < rewriteMaxEntries)

theorem eq_of_key {r r' : StoredRewrite} (hk : r.key = r'.key) :
    r = r' ↔ r.action = r'.action ∧ r.offset = r'.offset ∧ r.payload = r'.payload := by
  obtain ⟨class_, id, direction, action, offset, matchBytes, mask, payload⟩ := r
  obtain ⟨class', id', direction', action', offset', matchBytes', mask', payload'⟩ := r'
  simp only [StoredRewrite.key, Prod.mk.injEq] at hk
  obtain ⟨rfl, rfl, rfl, rfl, rfl⟩ := hk
  simp

theorem rewrites_applyRewrite (d : DesiredState) (r : StoredRewrite) :
    (d.applyRewrite r).1.rewrites = Keyed.setLast StoredRewrite.key d.rewrites r :=
  congrArg DesiredState.rewrites (d.applyRewrite_eq r)

theorem rewrites_removeRewrite (d : DesiredState) (key : RewriteWireKey) :
    (d.removeRewrite key).1.rewrites = Keyed.remove StoredRewrite.key d.rewrites key :=
  congrArg DesiredState.rewrites (d.removeRewrite_eq key)

theorem boxRules_remove (t : RewriteTable) (r : StoredRewrite) :
    boxRules (t.remove (boxed r)) = Keyed.remove StoredRewrite.key (boxRules t) r.key := by
  rw [boxRules, boxRules, Keyed.remove_map, key_stored]
  unfold RewriteTable.remove Keyed.remove Keyed.position
  rw [key_boxed]
  cases t.rewrites.findIdx? fun e => e.key = r.key with
  | none => rfl
  | some i => rfl

theorem full_remove {t : RewriteTable} (r : MockRewrite) (h : t.full = false) :
    (t.remove r).full = false := by
  unfold RewriteTable.remove
  split
  · rfl
  · exact h

theorem set_eq {t : RewriteTable} {r : StoredRewrite} (hroom : Room (boxRules t) r) :
    t.set (boxed r) =
      match t.rewrites.findIdx? fun e => e.key = r.key with
      | some i =>
        if (boxRules t)[i]? = some r then t
        else ⟨t.rewrites.eraseIdx i ++ [boxed r], t.gen + 1, false⟩
      | none => ⟨t.rewrites ++ [boxed r], t.gen + 1, false⟩ := by
  have hpool : ((t.rewrites.filter fun e => e.key ≠ r.key).map (·.payload.length)).sum +
      r.payload.length ≤ rewritePayloadPool := by
    have h := hroom.1
    simp only [poolExcept, boxRules, List.filter_map, List.map_map] at h
    exact h
  have hlen : t.rewrites.findIdx? (fun e => e.key = r.key) = none →
      t.rewrites.length < rewriteMaxEntries := by
    intro h
    have := hroom.2 ((Keyed.position_eq_none _ _ _).mp (by rwa [boxRules, Keyed.position_map]))
    rwa [boxRules, List.length_map] at this
  have hno : ¬(((t.rewrites.filter fun e => e.key ≠ r.key).map (·.payload.length)).sum +
      r.payload.length > rewritePayloadPool ∨
        ((t.rewrites.findIdx? fun e => e.key = r.key).isNone ∧
          t.rewrites.length ≥ rewriteMaxEntries)) := by
    rintro (h | ⟨h, h'⟩)
    · exact absurd hpool (Nat.not_le.mpr h)
    · exact absurd (hlen (Option.isNone_iff_eq_none.mp h)) (Nat.not_lt.mpr h')
  unfold RewriteTable.set
  rw [key_boxed]
  simp only [show (boxed r).payload = r.payload from rfl, if_neg hno]
  cases hi : t.rewrites.findIdx? fun e => e.key = r.key with
  | none => rfl
  | some i =>
    obtain ⟨hlt, hkey, -⟩ := List.findIdx?_eq_some_iff_getElem.mp hi
    have hkey : (stored t.rewrites[i]).key = r.key := of_decide_eq_true hkey
    have hsame := eq_of_key hkey
    simp only [Option.bind_some, boxRules, List.getElem?_map, List.getElem?_eq_getElem hlt,
      Option.map_some, Option.some.injEq, hsame, Option.any_some, Bool.and_eq_true,
      decide_eq_true_eq, and_assoc]
    rfl

/-- With room for the rule, setting it on the box is setting it in the list. -/
theorem boxRules_set {t : RewriteTable} {r : StoredRewrite} (hroom : Room (boxRules t) r) :
    boxRules (t.set (boxed r)) = Keyed.setLast StoredRewrite.key (boxRules t) r := by
  rw [set_eq hroom, Keyed.setLast, boxRules, boxRules, Keyed.position_map]
  unfold Keyed.position
  rw [key_stored]
  cases t.rewrites.findIdx? fun e => e.key = r.key with
  | none => exact List.map_append
  | some i =>
    dsimp only
    split
    · rfl
    · rw [List.map_append, ← List.eraseIdx_map]
      rfl

theorem full_set {t : RewriteTable} {r : StoredRewrite} (hroom : Room (boxRules t) r)
    (h : t.full = false) : (t.set (boxed r)).full = false := by
  rw [set_eq hroom]
  split
  · split
    · exact h
    · rfl
  · rfl

/-- The bytes `REWRITE` carries for a rule. -/
def frame (state : UInt8) (r : StoredRewrite) : List UInt8 :=
  rewritePayload r.class_ r.id r.direction state r.action r.offset r.matchBytes r.mask r.payload

theorem length_frame (state : UInt8) {r : StoredRewrite}
    (hmask : r.mask.length = r.matchBytes.length) :
    (frame state r).length = 9 + 2 * r.matchBytes.length + r.payload.length := by
  simp only [frame, rewritePayload, List.length_append, List.length_cons, length_toLeBytes, hmask]
  omega

theorem toNat_framed {matchBytes : List UInt8} (h : matchBytes.length < 256) :
    (UInt8.ofNat matchBytes.length).toNat = matchBytes.length := by
  rw [UInt8.toNat_ofNat']
  omega

/-- A match, its mask and the payload are told apart by the one framed length. -/
theorem cut_framed {matchBytes mask : List UInt8} (payload : List UInt8)
    (hmask : mask.length = matchBytes.length) :
    (matchBytes ++ mask ++ payload).take matchBytes.length = matchBytes ∧
      ((matchBytes ++ mask ++ payload).drop matchBytes.length).take matchBytes.length = mask ∧
      (matchBytes ++ mask ++ payload).drop (2 * matchBytes.length) = payload := by
  refine ⟨?_, ?_, ?_⟩
  · rw [List.append_assoc, List.take_left]
  · rw [List.append_assoc, List.drop_left, ← hmask, List.take_left]
  · rw [List.drop_left']
    simp only [List.length_append, hmask]
    omega

theorem applyRewriteFrame_frame (t : RewriteTable) (state : UInt8) {r : StoredRewrite}
    (hmask : r.mask.length = r.matchBytes.length) (hlen : r.matchBytes.length < 256) :
    t.applyRewriteFrame true (frame state r) =
      if 11 + 2 * r.matchBytes.length + r.payload.length > maxPayload then t
      else t.applyRule state (boxed r) := by
  have hm := toNat_framed hlen
  obtain ⟨htake, hmid, hdrop⟩ := cut_framed r.payload hmask
  have hrest : (r.matchBytes ++ r.mask ++ r.payload).length =
      2 * r.matchBytes.length + r.payload.length := by
    simp only [List.length_append, hmask]
    omega
  change RewriteTable.applyRewriteFrame t true (r.class_ :: UInt8.ofNat r.id.toNat ::
    UInt8.ofNat (r.id.toNat / 256) :: r.direction :: state :: r.action ::
    UInt8.ofNat r.offset.toNat :: UInt8.ofNat (r.offset.toNat / 256) ::
    UInt8.ofNat r.matchBytes.length :: (r.matchBytes ++ r.mask ++ r.payload)) = _
  simp only [RewriteTable.applyRewriteFrame, hm, hrest, htake, hmid, hdrop, fromLeBytes_toLeBytes,
    not_true_eq_false, false_and, if_false]
  by_cases h : 11 + 2 * r.matchBytes.length + r.payload.length > maxPayload
  · rw [if_pos h, if_pos (.inr (by omega))]
  · rw [if_neg h, if_neg (by omega)]
    rfl

theorem asU8_eq_control (c : RewriteClass) : c.asU8 = catchClsControl ↔ c = .control :=
  RewriteClass.asU8_injective.eq_iff' rfl

theorem asU8_eq_any (c : RewriteClass) : c.asU8 = catchClsAny ↔ c = .any :=
  RewriteClass.asU8_injective.eq_iff' rfl

/-- The head caps and the action table are the box's. -/
theorem rewriteAdmissible_toStored (rule : RewriteRule) :
    rewriteAdmissible rule.class_.asU8 rule.action.asU8 rule.offset rule.payload =
      (!(Device.headCap rule).1 && rule.action.isValidFor rule.class_) := by
  obtain ⟨class_, id, direction, action, offset, matchBytes, mask, payload⟩ := rule
  have hle : ∀ a b : Nat, decide (a ≤ b) = !decide (a > b) := fun a b => by
    rw [← decide_not, decide_eq_decide, gt_iff_lt, Nat.not_lt]
  unfold rewriteAdmissible Device.headCap
  simp only [asU8_eq_control, asU8_eq_any, decide_eq_true_eq, hle]
  cases action with
  | pass | answer | stall | nak | replace | replyReplace | patch | replyPatch => rfl
  | drop => exact congrArg (!decide (class_ = .control) && ·) decide_not.symm
/-- What the box asks of a rule's address before it looks for one. -/
structure Addressable (r : StoredRewrite) : Prop where
  rewritable : rewritable r.class_
  direction : r.direction ≤ lockDirNeg
  matchLen : r.matchBytes.length ≤ rewriteMatchMax

theorem applyRule_set (t : RewriteTable) {r : StoredRewrite} (h : Addressable r)
    (hadm : rewriteAdmissible r.class_ r.action r.offset r.payload) :
    t.applyRule 1 (boxed r) = t.set (boxed r) := by
  have hdir : ¬(¬rewritable (boxed r).class_ ∨ (boxed r).dir > lockDirNeg) := by
    rintro (hr | hd)
    · exact hr h.rewritable
    · exact UInt8.not_lt.mpr h.direction hd
  have hlen : ¬(boxed r).matchBytes.length > rewriteMatchMax := Nat.not_lt.mpr h.matchLen
  have hok : ¬((1 : UInt8) ≠ 0 ∧
      ¬rewriteAdmissible (boxed r).class_ (boxed r).action (boxed r).offset (boxed r).payload) :=
    fun h => h.2 hadm
  unfold RewriteTable.applyRule
  rw [if_neg (fun h => absurd h.1 (by decide)), if_neg hdir, if_neg hlen, if_neg hok,
    if_neg (by decide)]

theorem boxRules_applyRule_remove {t : RewriteTable} {r : StoredRewrite}
    (hheld : ∀ e ∈ boxRules t, Addressable e) :
    boxRules (t.applyRule 0 (boxed r)) =
      if r.class_ = 0xFF ∧ r.id = 0xFFFF then []
      else Keyed.remove StoredRewrite.key (boxRules t) r.key := by
  have hmiss : ¬Addressable r → Keyed.remove StoredRewrite.key (boxRules t) r.key = boxRules t := by
    intro h
    refine Keyed.remove_of_not_mem _ fun e he hk => h ?_
    obtain ⟨hr, hd, hm⟩ := hheld e he
    simp only [StoredRewrite.key, Prod.mk.injEq] at hk
    obtain ⟨hc, -, hdir, hb, -⟩ := hk
    exact ⟨hc ▸ hr, hdir ▸ hd, hb ▸ hm⟩
  unfold RewriteTable.applyRule
  by_cases hclear : r.class_ = 0xFF ∧ r.id = 0xFFFF
  · rw [if_pos hclear, if_pos ⟨rfl, hclear⟩]
    rfl
  · rw [if_neg hclear, if_neg (fun h => hclear h.2)]
    split
    next h =>
      refine (hmiss fun hr => ?_).symm
      exact h.elim (· hr.rewritable) (UInt8.not_lt.mpr hr.direction)
    next =>
      split
      next h => exact (hmiss fun hr => Nat.not_lt.mpr hr.matchLen h).symm
      next =>
        rw [if_neg (fun h => h.1 rfl), if_pos rfl]
        exact boxRules_remove t r

theorem full_applyRule_remove {t : RewriteTable} (r : MockRewrite) (h : t.full = false) :
    (t.applyRule 0 r).full = false := by
  unfold RewriteTable.applyRule
  split
  · rfl
  · split
    · exact h
    · split
      · exact h
      · rw [if_neg (fun h => h.1 rfl), if_pos rfl]
        exact full_remove r h

end Medius.Rewrites
