import Medius.Link.Reconnect
import Medius.Replay.Tables

/-! The frames of a reapply, sent twice in a row. -/

namespace Medius.Replay

open Protocol Link Mock Locks Device Medius.Types

variable (d : DesiredState)

theorem payloads_clipConfigFrames_other {ty : FrameType} (hset : ty ≠ .clipSet)
    (htrigger : ty ≠ .clipTrigger) : State.payloads ty d.clipConfigFrames = [] := by
  rw [DesiredState.clipConfigFrames, clipSetPayloads, State.payloads_append, State.payloads_append,
    State.payloads_map ty .clipSet, State.payloads_map ty .clipTrigger,
    State.payloads_map ty .clipTrigger, if_neg hset.symm, if_neg htrigger.symm,
    if_neg htrigger.symm]
  rfl

/-- The payloads of one type among everything a reapply sends. -/
theorem payloads_reapplyFrames (ty : FrameType) :
    State.payloads ty (reapplyFrames d true) =
      (if .inject = ty then
          d.held.map fun h => injectPayload h.1.classId.1 h.1.classId.2 h.2.asU8 else []) ++
        (if .lock = ty then
          d.heldLocks.map fun c => lockPayload c.1.1 c.1.2.1 c.1.2.2 c.2 else []) ++
        (if .catch_ = ty then d.catch_.values.map (catchFrame 1) else []) ++
        (if .rewrite = ty then d.heldRewrites.map (Rewrites.frame 1) else []) ++
        (if .transform = ty then d.heldTransforms.map (Transforms.frame 1) else []) ++
        State.payloads ty d.clipConfigFrames := by
  rw [reapplyFrames, if_pos rfl]
  simp only [State.payloads_append]
  rw [State.payloads_map ty .inject, State.payloads_map ty .lock, State.payloads_map ty .catch_,
    State.payloads_map ty .rewrite, State.payloads_map ty .transform]
  rfl

theorem payloads_lock_reapplyFrames :
    State.payloads .lock (reapplyFrames d true) =
      d.heldLocks.map fun c => lockPayload c.1.1 c.1.2.1 c.1.2.2 c.2 := by
  rw [payloads_reapplyFrames, payloads_clipConfigFrames_other d (by decide) (by decide)]
  simp only [reduceCtorEq, if_false, if_true, List.nil_append, List.append_nil]

theorem payloads_rewrite_reapplyFrames :
    State.payloads .rewrite (reapplyFrames d true) = d.heldRewrites.map (Rewrites.frame 1) := by
  rw [payloads_reapplyFrames, payloads_clipConfigFrames_other d (by decide) (by decide)]
  simp only [reduceCtorEq, if_false, if_true, List.nil_append, List.append_nil]

theorem payloads_transform_reapplyFrames :
    State.payloads .transform (reapplyFrames d true) =
      d.heldTransforms.map (Transforms.frame 1) := by
  rw [payloads_reapplyFrames, payloads_clipConfigFrames_other d (by decide) (by decide)]
  simp only [reduceCtorEq, if_false, if_true, List.nil_append, List.append_nil]

theorem prefix_reapply (withClip : Bool) : reapply d withClip <+: reapplyFrames d withClip :=
  List.takeWhile_prefix _

theorem no_option_reapply : ∀ f ∈ reapply d true, f.1 ≠ .option := by
  intro f hf hopt
  have hmem : f.2 ∈ State.payloads .option (reapplyFrames d true) :=
    List.mem_filterMap.mpr ⟨f, (prefix_reapply d true).subset hf, if_pos hopt⟩
  rw [payloads_reapplyFrames, payloads_clipConfigFrames_other d (by decide) (by decide)] at hmem
  simp at hmem

theorem applyLockFrame_lockPayload (n : UInt8) (t : LockTable) (c : Command) :
    t.applyLockFrame true n (lockPayload c.1.1 c.1.2.1 c.1.2.2 c.2) = applyCommand n t c := by
  simp only [lockPayload, toLeBytes, List.cons_append, List.nil_append, LockTable.applyLockFrame,
    fromLeBytes_toLeBytes, if_true, applyCommand, Int16.toInt16_toUInt16]

variable {d}

theorem locks_twice (h : HeldWf d) (n : UInt8) :
    let send := fun t => (State.payloads .lock (reapply d true)).foldl
      (fun t p => LockTable.applyLockFrame t true n p) t
    send (send .default) = send .default := by
  have hpre := State.prefix_payloads (prefix_reapply d true) .lock
  rw [payloads_lock_reapplyFrames] at hpre
  obtain ⟨cs, hcs, hsent⟩ := List.prefix_map_iff.mp hpre
  have hblocks : ∀ c ∈ cs, Blocks c := fun c hc => blocks_of_mediaRows h.media c (hcs.subset hc)
  dsimp only
  rw [hsent]
  simp only [List.foldl_map, applyLockFrame_lockPayload]
  exact applyCommand_twice n hblocks .default

theorem rewrites_reapply_twice (h : HeldWf d) (hkeyed : d.TablesKeyed) :
    let send := fun t => (State.payloads .rewrite (reapply d true)).foldl
      (fun t p => RewriteTable.applyRewriteFrame t true p) t
    send (send .default) = send .default := by
  have hpre := State.prefix_payloads (prefix_reapply d true) .rewrite
  rw [payloads_rewrite_reapplyFrames] at hpre
  obtain ⟨rules, hrules, hsent⟩ := List.prefix_map_iff.mp hpre
  have hheld : Rebuildable d.rewrites := ⟨hkeyed.rewrites, h.rules, h.pool, h.ruleCount⟩
  rw [hsent]
  exact rewrites_twice (hheld.sublist hrules.sublist)

/-- The clone declares every field a held transform names. -/
def Declared (caps : Caps) (d : DesiredState) : Prop :=
  ∀ t ∈ d.heldTransforms, transformFieldPresent caps true t.sclass t.sid ∧
    transformFieldPresent caps true t.dclass t.did

theorem transforms_reapply_twice (h : HeldWf d) (hkeyed : d.TablesKeyed) {caps : Caps}
    (hdecl : Declared caps d) :
    let send := fun t => (State.payloads .transform (reapply d true)).foldl
      (fun t p => TransformTable.applyTransformFrame t caps true p) t
    send (send .default) = send .default := by
  have hpre := State.prefix_payloads (prefix_reapply d true) .transform
  rw [payloads_transform_reapplyFrames] at hpre
  obtain ⟨entries, hentries, hsent⟩ := List.prefix_map_iff.mp hpre
  rw [hsent]
  refine transforms_twice (hkeyed.transforms.sublist (hentries.sublist.map _))
    (hentries.length_le.trans h.transformCount) fun t ht => ?_
  have hmem := hentries.subset ht
  exact ⟨(h.transforms t hmem).op, (h.transforms t hmem).pair, (hdecl t hmem).1, (hdecl t hmem).2⟩

theorem packets_reapply_twice (d : DesiredState) :
    let send := fun rows => (State.payloads .clipTrigger (reapply d true)).foldl
      (fun (rows : PacketTriggers.Rows) p =>
        PacketTriggers.applyClipTriggerFrame rows true p) rows
    send (send []) = send [] := by
  refine packets_twice true fun p hp => ?_
  have hmem := (State.prefix_payloads (prefix_reapply d true) .clipTrigger).subset hp
  rw [payloads_reapplyFrames, Packets.payloads_clipConfigFrames] at hmem
  simp only [reduceCtorEq, if_false, List.nil_append, List.mem_append, List.mem_map] at hmem
  obtain ⟨t, -, rfl⟩ | ⟨t, -, rfl⟩ := hmem
  · exact .inl ⟨t, rfl⟩
  · exact .inr ⟨t, rfl⟩

/-- Everything held, sent twice to a box that holds nothing, leaves it as sending it once does. -/
theorem reapply_twice (h : Reachable d) (caps : Caps) (hdecl : Declared caps d) :
    ((State.empty true caps true).applyFrames (reapply d true)).applyFrames (reapply d true) =
      (State.empty true caps true).applyFrames (reapply d true) := by
  have hwf := heldWf_of_reachable h
  have hkeyed := h.tablesKeyed
  have hlocks := locks_twice hwf caps.nButtons
  have hrewrites := rewrites_reapply_twice hwf hkeyed
  have htransforms := transforms_reapply_twice hwf hkeyed hdecl
  have hpackets := packets_reapply_twice d
  dsimp only at hlocks hrewrites htransforms hpackets
  rw [State.applyFrames_eq (no_option_reapply d), State.applyFrames_eq (no_option_reapply d)]
  simp only [State.empty]
  rw [hlocks, hrewrites, htransforms, hpackets]

/-- A state with something in each of the four tables. -/
def holdingCalls : List DeviceCall :=
  [.scale (.target (.axis .x)) .both 50, .scale (.target (.usage ⟨.media, 0xE9⟩)) .both 0,
    .setRewrite true (Rewrites.reportRule 1 [1, 2]), .transform ⟨.swap, .axis .x, .axis .y⟩,
    .bindPacket (Packets.reportTrigger 1 true)]

def holding : DesiredState :=
  holdingCalls.foldl (fun d c => (call (fun _ _ => .ok ()) d c).1) .default

theorem reachable_holding : Reachable holding :=
  .call _ _ (.call _ _ (.call _ _ (.call _ _ (.call _ _ .default))))

theorem reapply_holding_twice : Reachable holding ∧ Declared Packets.bareClone holding ∧
    ((State.empty true Packets.bareClone true).applyFrames (reapply holding true)).applyFrames
        (reapply holding true) =
      (State.empty true Packets.bareClone true).applyFrames (reapply holding true) := by
  have hdecl : Declared Packets.bareClone holding := by
    unfold Declared
    decide
  exact ⟨reachable_holding, hdecl, reapply_twice reachable_holding Packets.bareClone hdecl⟩

end Medius.Replay
