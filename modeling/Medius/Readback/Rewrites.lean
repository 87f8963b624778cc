import Medius.Rewrites.History

/-! What the host reads back of the rules it set. -/

namespace Medius.Readback

open Protocol Link Mock Rewrites Medius.Types

/-- Each key once, and under it a rule that the API let through. -/
structure Ruled (sent : RewriteRule → Prop) (t : RewriteTable) : Prop where
  keyed : (t.rewrites.map MockRewrite.key).Nodup
  held : ∀ e ∈ t.rewrites, ∃ rule, sent rule ∧ Device.validateRule rule = .ok () ∧
    stored e = Device.toStored rule

theorem Ruled.default (sent : RewriteRule → Prop) : Ruled sent .default where
  keyed := List.nodup_nil
  held := fun _ h => absurd h List.not_mem_nil

theorem Ruled.sublist {sent : RewriteRule → Prop} {t t' : RewriteTable} (h : Ruled sent t)
    (hsub : t'.rewrites.Sublist t.rewrites) : Ruled sent t' where
  keyed := h.keyed.sublist (hsub.map _)
  held := fun e he => h.held e (hsub.mem he)

/-- A set leaves the rules alone, or puts one last. -/
theorem set_cases (t : RewriteTable) (r : MockRewrite) :
    (t.set r).rewrites = t.rewrites ∨
      (t.set r).rewrites = Keyed.remove MockRewrite.key t.rewrites r.key ++ [r] := by
  unfold RewriteTable.set Keyed.remove Keyed.position
  dsimp only
  split
  · exact .inl rfl
  · split
    · exact .inl rfl
    · refine .inr ?_
      cases t.rewrites.findIdx? fun e => e.key = r.key <;> rfl

theorem remove_sublist (t : RewriteTable) (r : MockRewrite) :
    (t.remove r).rewrites.Sublist t.rewrites := by
  unfold RewriteTable.remove
  split
  · exact List.eraseIdx_sublist _ _
  · exact .refl _

theorem applyRule_zero_sublist (t : RewriteTable) (r : MockRewrite) :
    (t.applyRule 0 r).rewrites.Sublist t.rewrites := by
  unfold RewriteTable.applyRule
  split
  · exact List.nil_sublist _
  · split
    · exact .refl _
    · split
      · exact .refl _
      · rw [if_neg (fun h => h.1 rfl), if_pos rfl]
        exact remove_sublist t r

theorem Ruled.set {sent : RewriteRule → Prop} {t : RewriteTable} (h : Ruled sent t)
    {rule : RewriteRule} (hsent : sent rule) (hvalid : Device.validateRule rule = .ok ()) :
    Ruled sent (t.set (boxed (Device.toStored rule))) := by
  obtain hsame | hlast := set_cases t (boxed (Device.toStored rule))
  · exact h.sublist (hsame ▸ .refl _)
  · have hrest := @Keyed.mem_remove _ _ _ MockRewrite.key _ h.keyed
      (boxed (Device.toStored rule)).key
    refine ⟨?_, fun e he => ?_⟩
    · rw [hlast]
      exact Keyed.append_nodup _ (Keyed.remove_nodup _ h.keyed _) fun e he => (hrest.mp he).2
    · rw [hlast, List.mem_append, List.mem_singleton] at he
      obtain he | rfl := he
      · exact h.held e (hrest.mp he).1
      · exact ⟨rule, hsent, hvalid, rfl⟩

theorem validateRule_of_next {s s' : Sides} {rule : RewriteRule}
    (hs : next s (.set rule) = some s') : Device.validateRule rule = .ok () := by
  unfold next Device.setRewrite at hs
  dsimp only at hs
  split at hs
  · cases hs
  next hvalid => exact hvalid

theorem Ruled.step {sent : RewriteRule → Prop} {s s' : Sides} {call : RewriteCall}
    (h : Ruled sent s.2) (hsent : ∀ rule, call = .set rule → sent rule)
    (hs : next s call = some s') : Ruled sent s'.2 := by
  cases call with
  | set rule =>
    have hvalid := validateRule_of_next hs
    obtain ⟨-, -, rfl⟩ := next_set hs
    exact applyRewriteFrame_valid s.2 (valid_of_validateRule hvalid) ▸ h.set (hsent rule rfl) hvalid
  | remove rule =>
    obtain ⟨hmask, hlen, rfl⟩ := next_remove hs
    have hlen : rule.matchBytes.length < 256 := by
      simp only [maxPayload] at hlen
      omega
    refine h.sublist ?_
    dsimp only
    rw [applyRewriteFrame_frame s.2 0 (r := removal rule) hmask hlen]
    split
    · exact .refl _
    · exact applyRule_zero_sublist _ _
  | clear =>
    obtain rfl := next_clear hs
    exact h.sublist (List.nil_sublist _)

theorem ruled_of_run {calls : List RewriteCall} {s : Sides}
    (hr : Steps.run next initial calls = some s) :
    Ruled (fun rule => .set rule ∈ calls) s.2 :=
  Steps.run_induction (I := fun s : Sides => Ruled (fun rule => .set rule ∈ calls) s.2)
    (fun _ call _ h (hc : call ∈ calls) hs => h.step (fun _ he => he ▸ hc) hs)
    (Ruled.default _) (.of_forall (fun _ hc _ => hc) _) hr

/-- The rules make the invariant, whatever the hits. -/
theorem Ruled.of_boxRules {sent : RewriteRule → Prop} {t t' : RewriteTable} (h : Ruled sent t)
    (heq : boxRules t' = boxRules t) : Ruled sent t' where
  keyed := by
    have hkeys : ∀ t : RewriteTable, t.rewrites.map MockRewrite.key =
        (boxRules t).map StoredRewrite.key := fun t => by
      rw [boxRules, List.map_map, key_stored]
    rw [hkeys, heq, ← hkeys]
    exact h.keyed
  held := fun e he => by
    have hmem : stored e ∈ boxRules t := heq ▸ List.mem_map_of_mem he
    obtain ⟨e', he', heq'⟩ := List.mem_map.mp hmem
    exact heq' ▸ h.held e' he'

/-- The same rule again keeps its place, its hits, the generation and the full flag. -/
theorem set_of_mem {t : RewriteTable} (hkeyed : (t.rewrites.map MockRewrite.key).Nodup)
    {e : MockRewrite} (he : e ∈ t.rewrites) : t.set (boxed (stored e)) = t := by
  have hkey : (boxed (stored e)).key = e.key := rfl
  unfold RewriteTable.set
  rw [hkey]
  cases hi : t.rewrites.findIdx? fun r => r.key = e.key with
  | none => exact absurd rfl ((Keyed.position_eq_none _ _ _).mp hi e he)
  | some i =>
    have hget := (Keyed.getElem?_position MockRewrite.key hkeyed hi e rfl).mpr he
    simp [hget, boxed, stored]

theorem rewriteEntryRespPayload_eq {t : RewriteTable} {index : UInt8} {e : MockRewrite}
    (he : t.rewrites[index.toNat]? = some e) :
    t.rewriteEntryRespPayload index = qRewriteEntry :: index :: frame 1 (stored e) := by
  unfold RewriteTable.rewriteEntryRespPayload
  rw [he]
  rfl

theorem rewriteEntryFromPayload_frame (index : UInt8) {rule : RewriteRule}
    (hmask : rule.mask.length = rule.matchBytes.length) (hlen : rule.matchBytes.length < 256) :
    rewriteEntryFromPayload (qRewriteEntry :: index :: frame 1 (Device.toStored rule)) =
      some rule := by
  have hm := toNat_framed hlen
  obtain ⟨htake, hmid, hdrop⟩ := cut_framed rule.payload hmask
  have hrest : ¬(rule.matchBytes ++ rule.mask ++ rule.payload).length <
      2 * rule.matchBytes.length := by
    simp only [List.length_append, hmask]
    omega
  change rewriteEntryFromPayload (qRewriteEntry :: index :: rule.class_.asU8 ::
    UInt8.ofNat rule.id.toNat :: UInt8.ofNat (rule.id.toNat / 256) :: rule.direction.asU8 :: 1 ::
    rule.action.asU8 :: UInt8.ofNat rule.offset.toNat :: UInt8.ofNat (rule.offset.toNat / 256) ::
    UInt8.ofNat rule.matchBytes.length :: (rule.matchBytes ++ rule.mask ++ rule.payload)) = _
  simp only [rewriteEntryFromPayload, RewriteClass.fromU8_asU8, Direction.fromU8_asU8,
    RewriteAction.fromU8_asU8, hm, htake, hmid, hdrop, if_neg hrest, fromLeBytes_toLeBytes]
  rfl

/-- The reply at `index` fits a frame and decodes to the rule, which sent again changes
nothing. -/
structure RuleReads (t : RewriteTable) (index : UInt8) (rule : RewriteRule) : Prop where
  fits : (t.rewriteEntryRespPayload index).length ≤ maxPayload
  decodes : rewriteEntryFromPayload (t.rewriteEntryRespPayload index) = some rule
  unchanged : t.applyRewriteFrame true (frame 1 (Device.toStored rule)) = t

/-- After any calls the API accepts, whatever the hits, the generation and the full flag, each
entry is read back as the rule that was set. -/
theorem rule_survives_readback (calls : List RewriteCall) (s : Sides)
    (hr : Steps.run next initial calls = some s) (t : RewriteTable)
    (ht : boxRules t = boxRules s.2) (index : UInt8) (e : MockRewrite)
    (he : t.rewrites[index.toNat]? = some e) :
    ∃ rule, RewriteCall.set rule ∈ calls ∧ stored e = Device.toStored rule ∧
      RuleReads t index rule := by
  have hruled := (ruled_of_run hr).of_boxRules ht
  have hmem := List.mem_of_getElem? he
  obtain ⟨rule, hsent, hvalid, hstored⟩ := hruled.held e hmem
  have hv := valid_of_validateRule hvalid
  have hlen : rule.matchBytes.length < 256 := Nat.lt_of_le_of_lt hv.address.matchLen (by decide)
  have hreply := rewriteEntryRespPayload_eq he
  rw [hstored] at hreply
  refine ⟨rule, hsent, hstored, ?_, ?_, ?_⟩
  · have hcarried := hv.carried
    rw [hreply, List.length_cons, List.length_cons, length_frame 1 hv.mask]
    omega
  · rw [hreply, rewriteEntryFromPayload_frame index hv.mask hlen]
  · rw [applyRewriteFrame_valid t (valid_of_validateRule hvalid), ← hstored, set_of_mem hruled.keyed hmem]

/-- Two rules, and the second read back. -/
theorem sparingCalls_survive_readback :
    ∃ s, Steps.run next initial [.set (reportRule 1 [1]), .set (reportRule 2 [7, 7])] = some s ∧
      ∃ e, s.2.rewrites[(1 : UInt8).toNat]? = some e ∧
        ∃ rule, RewriteCall.set rule ∈ [.set (reportRule 1 [1]), .set (reportRule 2 [7, 7])] ∧
          stored e = Device.toStored rule ∧ RuleReads s.2 1 rule :=
  ⟨_, rfl, _, rfl, rule_survives_readback _ _ rfl _ rfl 1 _ rfl⟩

end Medius.Readback
