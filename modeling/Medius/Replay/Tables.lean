import Medius.Packets.History
import Medius.Replay.Held

/-! A table built from nothing by the frames of what is held, and the same frames again. -/

namespace Medius.Replay

open Protocol Link Mock Locks Device Medius.Types

/-- Entries that share no key, within the box's room, each one the box takes. -/
structure Rebuildable (held : List StoredRewrite) : Prop where
  keyed : (held.map StoredRewrite.key).Nodup
  valid : ∀ r ∈ held, Rewrites.Valid r
  pool : (held.map (·.payload.length)).sum ≤ rewritePayloadPool
  count : held.length ≤ rewriteMaxEntries

theorem Rebuildable.sublist {held held' : List StoredRewrite} (h : Rebuildable held')
    (hsub : held.Sublist held') : Rebuildable held where
  keyed := h.keyed.sublist (hsub.map _)
  valid := fun r hr => h.valid r (hsub.mem hr)
  pool := ((hsub.map _).sum_le_sum fun _ _ => Nat.zero_le _).trans h.pool
  count := hsub.length_le.trans h.count

theorem boxRules_boxed {held : List StoredRewrite} {t : RewriteTable}
    (h : t.rewrites = held.map Rewrites.boxed) : Rewrites.boxRules t = held := by
  rw [Rewrites.boxRules, h, List.map_map]
  exact List.map_id held

/-- A rule of a new key goes to the end. -/
theorem set_new {pre : List StoredRewrite} {r : StoredRewrite} {t : RewriteTable}
    (htable : t.rewrites = pre.map Rewrites.boxed) (hnew : ∀ e ∈ pre, e.key ≠ r.key)
    (hroom : Rewrites.Room pre r) :
    t.set (Rewrites.boxed r) = ⟨(pre ++ [r]).map Rewrites.boxed, t.gen + 1, false⟩ := by
  have hrules := boxRules_boxed htable
  rw [Rewrites.set_eq (hrules.symm ▸ hroom)]
  have hnone : (t.rewrites.findIdx? fun e => e.key = r.key) = none := by
    refine (Keyed.position_eq_none MockRewrite.key _ _).mpr fun e he => ?_
    rw [htable] at he
    obtain ⟨b, hb, rfl⟩ := List.mem_map.mp he
    exact hnew b hb
  rw [hnone, htable, List.map_append]
  rfl

theorem poolExcept_add {held : List StoredRewrite} (h : (held.map StoredRewrite.key).Nodup)
    {r : StoredRewrite} (hr : r ∈ held) :
    Rewrites.poolExcept held r.key + r.payload.length =
      (held.map (·.payload.length)).sum := by
  have hperm := List.perm_cons_erase hr
  have herase : (held.filter fun e => e.key ≠ r.key) = held.erase r := by
    rw [(List.Nodup.of_map _ h).erase_eq_filter]
    refine List.filter_congr fun e he => ?_
    rw [Bool.eq_iff_iff, decide_eq_true_eq, bne_iff_ne, not_iff_not]
    exact ⟨fun hk => List.inj_on_of_nodup_map h he hr hk, fun heq => heq ▸ rfl⟩
  rw [Rewrites.poolExcept, herase, (hperm.map _).sum_eq, List.map_cons, List.sum_cons, Nat.add_comm]

/-- A held rule sent again changes nothing, its count and the generation with it. -/
theorem set_held {held : List StoredRewrite} (h : Rebuildable held) {r : StoredRewrite}
    (hr : r ∈ held) {t : RewriteTable} (htable : t.rewrites = held.map Rewrites.boxed) :
    t.set (Rewrites.boxed r) = t := by
  have hrules := boxRules_boxed htable
  have hroom : Rewrites.Room held r :=
    ⟨(poolExcept_add h.keyed hr).trans_le h.pool, fun hnew => absurd rfl (hnew r hr)⟩
  have hpos : (t.rewrites.findIdx? fun e => e.key = r.key) =
      Keyed.position StoredRewrite.key held r.key := by
    rw [htable]
    exact Keyed.position_map MockRewrite.key Rewrites.boxed held r.key
  rw [Rewrites.set_eq (hrules.symm ▸ hroom), hrules, hpos]
  cases hi : Keyed.position StoredRewrite.key held r.key with
  | none => exact absurd rfl ((Keyed.position_eq_none _ _ _).mp hi r hr)
  | some i => exact if_pos ((Keyed.getElem?_position _ h.keyed hi r rfl).mpr hr)

theorem foldl_rules {post : List StoredRewrite} (pre : List StoredRewrite)
    (h : Rebuildable (pre ++ post)) {t : RewriteTable}
    (htable : t.rewrites = pre.map Rewrites.boxed) (hfull : t.full = false) :
    ∃ gen, (post.map (Rewrites.frame 1)).foldl (fun t p => t.applyRewriteFrame true p) t =
      ⟨(pre ++ post).map Rewrites.boxed, gen, false⟩ := by
  induction post generalizing pre t with
  | nil =>
    refine ⟨t.gen, ?_⟩
    rw [List.append_nil, ← htable, ← hfull]
    rfl
  | cons r post ih =>
    have hassoc : pre ++ r :: post = (pre ++ [r]) ++ post := by simp
    have hroom : Rewrites.Room pre r := by
      have hpool := h.pool
      have hcount := h.count
      have hpre := Rewrites.poolExcept_le pre r.key
      simp only [List.map_append, List.map_cons, List.sum_append, List.sum_cons] at hpool
      simp only [List.length_append, List.length_cons] at hcount
      exact ⟨by omega, fun _ => by omega⟩
    have hnew : ∀ e ∈ pre, e.key ≠ r.key := fun e he =>
      Keyed.ne_of_nodup_append _ h.keyed he (by simp)
    rw [List.map_cons, List.foldl_cons,
      Rewrites.applyRewriteFrame_valid _ (h.valid r (by simp)),
      set_new htable hnew hroom]
    rw [hassoc] at h ⊢
    exact ih (pre ++ [r]) h rfl rfl

theorem foldl_held_rules {held rules : List StoredRewrite} (h : Rebuildable held)
    (hsub : ∀ r ∈ rules, r ∈ held) {t : RewriteTable}
    (htable : t.rewrites = held.map Rewrites.boxed) :
    (rules.map (Rewrites.frame 1)).foldl (fun t p => t.applyRewriteFrame true p) t = t := by
  induction rules with
  | nil => rfl
  | cons r rules ih =>
    rw [List.forall_mem_cons] at hsub
    rw [List.map_cons, List.foldl_cons,
      Rewrites.applyRewriteFrame_valid _ (h.valid r hsub.1),
      set_held h hsub.1 htable]
    exact ih hsub.2

theorem rewrites_twice {held : List StoredRewrite} (h : Rebuildable held) :
    let send := fun t => (held.map (Rewrites.frame 1)).foldl
      (fun t p => RewriteTable.applyRewriteFrame t true p) t
    send (send .default) = send .default := by
  obtain ⟨gen, hgen⟩ := @foldl_rules held [] h .default rfl rfl
  dsimp only
  rw [hgen]
  exact foldl_held_rules h (fun _ hr => hr) rfl

/-- A rebuilt transform table is the same table again. -/
theorem transforms_twice {caps : Caps} {held : List StoredTransform}
    (hkeyed : (held.map StoredTransform.key).Nodup) (hlen : held.length ≤ transformMaxEntries)
    (hheld : ∀ t ∈ held, Transforms.Admissible caps t) :
    let send := fun t => (held.map (Transforms.frame 1)).foldl
      (fun t p => TransformTable.applyTransformFrame t caps true p) t
    send (send .default) = send .default := by
  have hsets := @Transforms.foldl_sets caps held [] hkeyed hlen hheld .default rfl rfl
  dsimp only
  rw [hsets]
  exact Transforms.foldl_held hkeyed hheld (fun _ ht => ht) rfl rfl

/-- The frames that bind triggers, to one table or the other. -/
def Binds (p : List UInt8) : Prop := (∃ t, p = bindPayload t) ∨ ∃ t, p = bindPacketPayload t

open PacketTriggers in
/-- The rows such frames offer the box. -/
theorem foldl_binds_eq (imperfect : Bool) {ps : List (List UInt8)} (h : ∀ p ∈ ps, Binds p) :
    ∃ offers : List MockPacketTrigger, ∀ rows : PacketTriggers.Rows, (∀ r ∈ rows, Packets.Unmet r) →
      ps.foldl (fun rows p => applyClipTriggerFrame rows imperfect p) rows =
          offers.foldl (Keyed.setWithin MockPacketTrigger.key Packets.Room) rows ∧
        ∀ r ∈ offers.foldl (Keyed.setWithin MockPacketTrigger.key Packets.Room) rows,
          Packets.Unmet r := by
  induction ps with
  | nil => exact ⟨[], fun rows hrows => ⟨rfl, hrows⟩⟩
  | cons p ps ih =>
    rw [List.forall_mem_cons] at h
    obtain ⟨offers, ih⟩ := ih h.2
    obtain ⟨t, rfl⟩ | ⟨t, rfl⟩ := h.1
    · refine ⟨offers, fun rows hrows => ?_⟩
      rw [List.foldl_cons, Packets.applyClipTriggerFrame_input]
      exact ih rows hrows
    · cases hoffer : Packets.offered imperfect t with
      | none =>
        refine ⟨offers, fun rows hrows => ?_⟩
        rw [List.foldl_cons, Packets.applyClipTriggerFrame_bind hrows, hoffer]
        exact ih rows hrows
      | some r =>
        refine ⟨r :: offers, fun rows hrows => ?_⟩
        rw [List.foldl_cons, Packets.applyClipTriggerFrame_bind hrows, hoffer]
        refine ih _ fun e he => ?_
        obtain rfl | he := Keyed.mem_setWithin _ _ he
        · exact Packets.unmet_of_offered hoffer
        · exact hrows e he

open PacketTriggers in
theorem packets_twice (imperfect : Bool) {ps : List (List UInt8)} (h : ∀ p ∈ ps, Binds p) :
    let send := fun rows => ps.foldl
      (fun (rows : PacketTriggers.Rows) p => applyClipTriggerFrame rows imperfect p) rows
    send (send []) = send [] := by
  obtain ⟨offers, hsend⟩ := foldl_binds_eq imperfect h
  obtain ⟨hfirst, hunmet⟩ := hsend [] fun _ hr => absurd hr List.not_mem_nil
  dsimp only
  rw [hfirst, (hsend _ hunmet).1]
  exact Keyed.foldl_setWithin_twice Packets.room_antitone offers

end Medius.Replay
