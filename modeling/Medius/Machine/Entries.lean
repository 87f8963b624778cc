import Medius.Machine.Wire
import Medius.Readback.Patches
import Medius.Replay.Tables
import Medius.Rewrites.Exact

/-! What one query reads in any run: the clip's settings, and a table's entry at an index, from
which the table is built again. -/

namespace Medius.Machine

open Protocol Mock Device Medius.Types Readback

/-- Rows that all have a name are named together. -/
theorem exists_map_eq {α β γ : Type} {f : α → γ} {g : β → γ} {l : List β}
    (h : ∀ b ∈ l, ∃ a, f a = g b) : ∃ names : List α, names.map f = l.map g := by
  induction l with
  | nil => exact ⟨[], rfl⟩
  | cons b l ih =>
    rw [List.forall_mem_cons] at h
    obtain ⟨a, ha⟩ := h.1
    obtain ⟨names, hnames⟩ := ih h.2
    exact ⟨a :: names, by rw [List.map_cons, List.map_cons, ha, hnames]⟩

section Queries

variable {digest : List UInt8 → Vector UInt8 32} {b : Box}

/-- Nothing but the reply, and the hello that a boot still owes, comes out. -/
theorem onFrame_reply (hquiet : b.unsolicited = []) (hresponds : b.respond = true)
    {now : Nat} {p payload : List UInt8}
    (hreply : ((arrived b now).queryReply p).2 = some payload) (seq : UInt8) :
    (b.onFrame digest now ⟨.query, seq, p⟩).2 =
      (if b.pcSeen then [] else [b.helloFrame]) ++ [⟨.resp, seq, payload⟩] := by
  have hquiet : (arrived b now).unsolicited = [] := (unsolicited_arrived b now).trans hquiet
  rw [onFrame_query, reply_query, respond_arrived, hresponds, if_pos rfl, hreply]
  dsimp only
  rw [unsolicited_queryReply, hquiet, List.append_nil]
  rfl

end Queries

section Clip

/-- In every run the one reply on the clip, read by either decoder, is what the box holds: the
clip's progress as far as a reply has room for it, and its settings, with the packet triggers row
by row. -/
theorem clip_read_back {digest : List UInt8 → Vector UInt8 32} {ok : Box.Event → Prop} {t : Nat}
    {b : Box} (h : Box.Reachable digest ok t b) (hresponds : b.respond = true) (now : Nat)
    (seq : UInt8) (rest : List UInt8) :
    ∃ payload cfg,
      (b.onFrame digest now ⟨.query, seq, qClip :: rest⟩).2 =
          (if b.pcSeen then [] else [b.helloFrame]) ++ [⟨.resp, seq, payload⟩] ∧
        payload.length ≤ maxPayload ∧
        ClipStatus.readPayload payload = .value (saidClip (arrived b now).clip) ∧
        ClipSettings.readPayload payload = .value cfg ∧
        SettingsRead (saidSettings (arrived b now).clipSettings) (arrived b now).packetTriggers
          cfg := by
  have hholdable := ((sound_of_reachable h).arrived now).packets.holdable
  obtain ⟨cfg, hread, hsame⟩ :=
    settings_read (arrived b now).clip (arrived b now).clipSettings hholdable
  exact ⟨_, cfg, onFrame_reply (unsolicited_of_reachable h) hresponds rfl seq, length_clip _ _ hholdable,
    clip_reads _ _ hholdable, hread, hsame⟩

/-- A clip that holds a key, with an input trigger and a packet trigger met twice. -/
def clipped : Box :=
  run (fun _ => Vector.replicate 32 0) .default <|
    [.frame ⟨.option, 1, imperfectPayload true⟩, .script (.clipStatus playing),
      .script (.clipSettings looping),
      .frame ⟨.clipTrigger, 2, clipPacketTriggerPayload catchClsHidIn 1 1 clipOpStart
        (clipTrigFPresent ||| clipTrigFConsume) 0 [5] [0xFF]⟩,
      .packet .hidIn 1 .positive [5, 6], .packet .hidIn 1 .positive [5]].map (0, ·)

theorem clip_read_back_clipped :
    let b := clipped
    ((arrived b 2).clip.held.length = 1 ∧ (arrived b 2).clipSettings.triggers.length = 1 ∧
      (arrived b 2).packetTriggers.map (·.hits) = [2]) ∧
    ∃ payload cfg,
      (b.onFrame (fun _ => Vector.replicate 32 0) 2 ⟨.query, 7, [qClip]⟩).2 =
          (if b.pcSeen then [] else [b.helloFrame]) ++ [⟨.resp, 7, payload⟩] ∧
        payload.length ≤ maxPayload ∧
        ClipStatus.readPayload payload = .value (saidClip (arrived b 2).clip) ∧
        ClipSettings.readPayload payload = .value cfg ∧
        SettingsRead (saidSettings (arrived b 2).clipSettings) (arrived b 2).packetTriggers cfg :=
  ⟨by decide +kernel, clip_read_back
    (@reachable_run _ (fun _ => True) 0 _ .default _ fun _ _ => trivial) (by decide +kernel) 2 7 []⟩

end Clip

section Rewrites

theorem Rule.valid {r : MockRewrite} (h : Rule r) : Rewrites.Valid (Rewrites.stored r) where
  mask := h.maskLen
  address := ⟨h.class_, h.dir, h.matchLen⟩
  admissible := h.action
  carried := h.fits

/-- Whatever the box holds, the host has a rule for. -/
theorem Rule.named {r : MockRewrite} (h : Rule r) :
    ∃ rule, Device.toStored rule = Rewrites.stored r := by
  obtain ⟨class_, hclass⟩ := class_of_rewritable h.class_
  obtain ⟨direction, -, hdirection⟩ := direction_of_le h.dir
  obtain ⟨action, haction⟩ := action_of_admissible h.action
  exact ⟨⟨class_, r.id, direction, action, r.offset, r.matchBytes, r.mask, r.payload⟩, by
    rw [Device.toStored, Rewrites.stored, hclass, hdirection, haction]⟩

theorem rebuildable_of_rules {t : Mock.RewriteTable} (h : Rules t.rewrites) :
    Replay.Rebuildable (Rewrites.boxRules t) where
  keyed := by
    rw [Rewrites.boxRules, List.map_map, Rewrites.key_stored]
    exact h.keyed
  valid := fun r hr => by
    obtain ⟨row, hrow, rfl⟩ := List.mem_map.mp hr
    exact (h.entries row hrow).valid
  pool := by
    rw [Rewrites.boxRules, List.map_map]
    exact h.budget
  count := by
    rw [Rewrites.boxRules, List.length_map]
    exact h.count

/-- The reply at an index fits, and reads back as the rule there, if there is one. -/
theorem entry_reads {t : Mock.RewriteTable} (h : Rules t.rewrites) {rules : List RewriteRule}
    (hrules : rules.map Device.toStored = t.rewrites.map Rewrites.stored) (index : UInt8) :
    (t.rewriteEntryRespPayload index).length ≤ maxPayload ∧
      rewriteEntryFromPayload (t.rewriteEntryRespPayload index) = rules[index.toNat]? := by
  have hget : rules[index.toNat]?.map Device.toStored =
      t.rewrites[index.toNat]?.map Rewrites.stored := by
    rw [← List.getElem?_map, hrules, List.getElem?_map]
  cases hrow : t.rewrites[index.toNat]? with
  | none =>
    rw [hrow, Option.map_none, Option.map_eq_none_iff] at hget
    rw [Mock.RewriteTable.rewriteEntryRespPayload, hrow, hget]
    exact ⟨by simp [maxPayload], rfl⟩
  | some row =>
    rw [hrow, Option.map_some, Option.map_eq_some_iff] at hget
    obtain ⟨rule, hrule, hstored⟩ := hget
    have hvalid := (h.entries row (List.mem_of_getElem? hrow)).valid
    have hfits := hvalid.carried
    rw [rewriteEntryRespPayload_eq hrow, List.length_cons, List.length_cons,
      Rewrites.length_frame 1 hvalid.mask, hrule]
    rw [← hstored] at hvalid ⊢
    refine ⟨by rw [hstored]; omega, rewriteEntryFromPayload_frame index hvalid.mask ?_⟩
    exact Nat.lt_of_le_of_lt hvalid.address.matchLen (by decide)

/-- In every run the rewrite table reads back entry by entry, as rules each of which may be set
again; set in order in an empty table they make the table anew, with nothing hit yet. -/
theorem rules_copied {digest : List UInt8 → Vector UInt8 32} {ok : Box.Event → Prop} {t : Nat}
    {b : Box} (h : Box.Reachable digest ok t b) (hresponds : b.respond = true) (now : Nat) :
    ∃ rules : List RewriteRule,
      (∀ seq index, ∃ payload, (b.onFrame digest now ⟨.query, seq, [qRewriteEntry, index]⟩).2 =
          (if b.pcSeen then [] else [b.helloFrame]) ++ [⟨.resp, seq, payload⟩] ∧
        payload.length ≤ maxPayload ∧ rewriteEntryFromPayload payload = rules[index.toNat]?) ∧
      (∀ rule ∈ rules, Device.validateRule rule = .ok ()) ∧
      ((rules.map fun rule => Rewrites.frame 1 (Device.toStored rule)).foldl
          (fun (t : Mock.RewriteTable) p => t.applyRewriteFrame true p) .default).rewrites =
        (arrived b now).rewrites.rewrites.map fun r => { r with hits := 0 } := by
  have htable := ((sound_of_reachable h).arrived now).rules
  obtain ⟨rules, hrules⟩ := exists_map_eq fun r hr => (htable.entries r hr).named
  refine ⟨rules, fun seq index => ?_, fun rule hrule => ?_, ?_⟩
  · exact ⟨_, onFrame_reply (unsolicited_of_reachable h) hresponds rfl seq, entry_reads htable hrules index⟩
  · have hmem := List.mem_map_of_mem (f := Device.toStored) hrule
    rw [hrules] at hmem
    obtain ⟨row, hrow, hstored⟩ := List.mem_map.mp hmem
    exact (Rewrites.validateRule_iff rule).mpr (hstored ▸ (htable.entries row hrow).valid)
  · obtain ⟨gen, hsent⟩ := @Replay.foldl_rules (Rewrites.boxRules (arrived b now).rewrites) []
      (rebuildable_of_rules htable) .default rfl rfl
    have hframes : (rules.map fun rule => Rewrites.frame 1 (Device.toStored rule)) =
        (Rewrites.boxRules (arrived b now).rewrites).map (Rewrites.frame 1) := by
      rw [Rewrites.boxRules, ← hrules, List.map_map]
      rfl
    rw [hframes, hsent, List.nil_append, Rewrites.boxRules, List.map_map]
    rfl

theorem rules_copied_furnished :
    let b := furnished
    ((arrived b 2).rewrites.rewrites.map (·.action) = [rwReplace, rwAnswer]) ∧
    ∃ rules : List RewriteRule,
      (∀ seq index, ∃ payload,
        (b.onFrame (fun _ => Vector.replicate 32 0) 2 ⟨.query, seq, [qRewriteEntry, index]⟩).2 =
          (if b.pcSeen then [] else [b.helloFrame]) ++ [⟨.resp, seq, payload⟩] ∧
        payload.length ≤ maxPayload ∧ rewriteEntryFromPayload payload = rules[index.toNat]?) ∧
      (∀ rule ∈ rules, Device.validateRule rule = .ok ()) ∧
      ((rules.map fun rule => Rewrites.frame 1 (Device.toStored rule)).foldl
          (fun (t : Mock.RewriteTable) p => t.applyRewriteFrame true p) .default).rewrites =
        (arrived b 2).rewrites.rewrites.map fun r => { r with hits := 0 } :=
  ⟨by decide +kernel, rules_copied (@reachable_furnished (fun _ => True) fun _ => trivial)
    (by decide +kernel) 2⟩

end Rewrites

section Patches

theorem Stored.named {q : MockPatch} (h : Stored q) : ∃ p, boxedPatch p = id q := by
  obtain ⟨section_, hsection⟩ := section_of_fromU8 h.section_
  exact ⟨⟨section_, q.cfg, q.index, q.offset, q.bytes⟩, by rw [boxedPatch, hsection, id]⟩

theorem patchEntry_reads {s : PatchStore} {patches : List Patch}
    (hpatches : patches.map boxedPatch = s.patches) (index : UInt8) :
    patchEntryFromPayload (s.patchEntryRespPayload index) = patches[index.toNat]? ∧
      ((s.patchEntryRespPayload index).length ≤ maxPayload ↔
        ∀ p ∈ patches[index.toNat]?, p.bytes.length ≤ patchReplyRoom) := by
  have hget : s.patches[index.toNat]? = patches[index.toNat]?.map boxedPatch := by
    rw [← hpatches, List.getElem?_map]
  cases hrow : patches[index.toNat]? with
  | none =>
    rw [hrow, Option.map_none] at hget
    rw [PatchStore.patchEntryRespPayload, hget]
    exact ⟨rfl, by simp [maxPayload]⟩
  | some p =>
    rw [hrow, Option.map_some] at hget
    rw [patchEntryRespPayload_eq hget, patchEntryFromPayload_patchFrame, List.length_cons,
      List.length_cons, length_patchFrame]
    refine ⟨rfl, ?_⟩
    simp only [Option.mem_def, Option.some.injEq, forall_eq', maxPayload, patchReplyRoom]
    omega

end Patches

section Conveys

/-- What a reply says of the box; to a query for one entry, the rule or the patch in its place. -/
inductive Conveys (b : Box) : List UInt8 → List UInt8 → Prop
  | answered {p payload : List UInt8} : isEntryQuery p = false → Answered b p payload →
      Conveys b p payload
  | rewriteEntry {rest payload : List UInt8} : payload.length ≤ maxPayload →
      (rewriteEntryFromPayload payload).map Device.toStored =
        b.rewrites.rewrites[(rest.headD 0).toNat]?.map Rewrites.stored →
      Conveys b (qRewriteEntry :: rest) payload
  | patchEntry {rest payload : List UInt8} :
      (patchEntryFromPayload payload).map boxedPatch = b.patches[(rest.headD 0).toNat]? →
      Conveys b (qPatchEntry :: rest) payload

variable {b : Box} {p payload : List UInt8}

theorem Sound.conveys (h : Sound b) (hq : (b.queryReply p).2 = some payload) :
    Conveys b p payload := by
  cases hentry : isEntryQuery p with
  | false => exact .answered hentry (answered_query h hentry hq)
  | true =>
    rw [isEntryQuery, Bool.or_eq_true, decide_eq_true_eq, decide_eq_true_eq] at hentry
    obtain hhead | hhead := hentry
    · obtain ⟨rest, rfl⟩ := List.head?_eq_some_iff.mp hhead
      cases hq
      obtain ⟨rules, hrules⟩ := exists_map_eq fun r hr => (h.rules.entries r hr).named
      obtain ⟨hlen, hread⟩ := entry_reads h.rules hrules (rest.headD 0)
      refine .rewriteEntry hlen ?_
      rw [hread, ← List.getElem?_map, hrules, List.getElem?_map]
    · obtain ⟨rest, rfl⟩ := List.head?_eq_some_iff.mp hhead
      cases hq
      obtain ⟨patches, hpatches⟩ := exists_map_eq fun q hq => (h.patches.entries q hq).named
      rw [List.map_id] at hpatches
      have hread := (patchEntry_reads (s := b.store) hpatches (rest.headD 0)).1
      refine .patchEntry ?_
      rw [hread, ← List.getElem?_map, hpatches]

/-- The reply, if there is one, leads with the selector. -/
def Leads (what : UInt8) (reply : Option (List UInt8)) : Prop :=
  ∀ payload ∈ reply, payload.head? = some what

theorem leads_none (what : UInt8) : Leads what none := fun _ h => (Option.not_mem_none _ h).elim

theorem leads_cons {what selector : UInt8} {rest : List UInt8} (h : what = selector) :
    Leads what (some (selector :: rest)) := by
  intro payload hpayload
  cases hpayload
  exact congrArg some h.symm

theorem leads_ite {α : Type} {what : UInt8} {c : Prop} [Decidable c]
    {x y : α × Option (List UInt8)} (hx : c → Leads what x.2) (hy : Leads what y.2) :
    Leads what (if c then x else y).2 := by
  split
  next hc => exact hx hc
  · exact hy

theorem leads_optionReply (b : Box) (id : UInt8) : Leads qOptions (b.optionReply id) := by
  unfold Box.optionReply
  iterate 6
    split
    · exact leads_cons rfl
  exact leads_none _

theorem leads_firmwareReply (b : Box) : Leads qFirmware b.firmwareReply.2 := by
  unfold Box.firmwareReply
  split
  · exact leads_none _
  · exact leads_cons rfl

theorem leads_rewriteEntry (t : Mock.RewriteTable) (index : UInt8) :
    Leads qRewriteEntry (some (t.rewriteEntryRespPayload index)) := by
  unfold Mock.RewriteTable.rewriteEntryRespPayload
  split <;> exact leads_cons rfl

theorem leads_patchEntry (s : PatchStore) (index : UInt8) :
    Leads qPatchEntry (some (s.patchEntryRespPayload index)) := by
  unfold PatchStore.patchEntryRespPayload
  split <;> exact leads_cons rfl

theorem leads_queryReply (b : Box) (what : UInt8) (rest : List UInt8) :
    Leads what (b.queryReply (what :: rest)).2 := by
  unfold Box.queryReply
  refine leads_ite leads_cons <| leads_ite leads_cons <| leads_ite leads_cons <|
    leads_ite leads_cons <| leads_ite leads_cons <| leads_ite leads_cons <|
    leads_ite leads_cons <| leads_ite leads_cons <| leads_ite (fun hwhat => ?_) <|
    leads_ite (fun hwhat => hwhat ▸ leads_firmwareReply b) <| leads_ite leads_cons <|
    leads_ite leads_cons <| leads_ite (fun hwhat => hwhat ▸ leads_rewriteEntry _ _) <|
    leads_ite leads_cons <| leads_ite (fun hwhat => hwhat ▸ leads_patchEntry _ _) <|
    leads_ite leads_cons (leads_none _)
  intro payload hpayload
  obtain ⟨id, -, hoption⟩ := Option.bind_eq_some_iff.mp hpayload
  exact hwhat ▸ leads_optionReply b id payload hoption

end Conveys

end Medius.Machine
