import Medius.Device.Api
import Medius.Link.Tables
import Medius.Locks.Undo

/-! What a call leaves in the desired state: the change it makes when its frame is sent, and
what it undoes when it is not. -/

namespace Medius.Device

open Protocol Link Medius.Types

/-- The consuming packet triggers bound again, behind the others. -/
def reboundConsuming (held : List ClipPacketTrigger) : List ClipPacketTrigger :=
  (held.filter fun t => t.consume).foldl (Keyed.setInPlace clipPacketKey)
    (held.filter fun t => !t.consume)

/-- Every state a call can leave behind, with what it checked. -/
inductive Recorded (d : DesiredState) : DesiredState → Prop
  | same : Recorded d d
  | apply (usage : Usage) (action : Action) : Recorded d (d.apply usage action)
  | reset : Recorded d (d.clear.setCatch ∅)
  | lock {class_ : UInt8} {id : UInt16} {direction : Direction} {given : Int16} {key : LockKey}
      {scale : Int16} : lockCommand class_ id direction given = .ok (key, scale) →
        Recorded d (d.applyLock key scale).1
  | setRewrite {rule : RewriteRule} : validateRule rule = .ok () → rewriteCapacity d rule = .ok () →
      Recorded d (d.applyRewrite (toStored rule)).1
  | removeRewrite (key : RewriteWireKey) : Recorded d (d.removeRewrite key).1
  | clearRewrites : Recorded d d.clearRewrites
  | setTransform {t : Transform} : validateTransform t = .ok () →
      (d.holdsTransform (storedTransform t).key = false →
        d.transformCount < transformMaxEntries) →
      Recorded d (d.applyTransform (storedTransform t)).1
  | removeTransform (key : TransformWireKey) : Recorded d (d.removeTransform key).1
  | clearTransforms : Recorded d d.clearTransforms
  | optOut : Recorded d d.clearRewrites.clipPacketDropConsuming.1
  | optOutUndone : Recorded d { d with clip := { d.clip with
      packetTriggers := reboundConsuming d.clip.packetTriggers } }
  | clip {clip : ClipHeld} : clip.packetTriggers = d.clip.packetTriggers →
      Recorded d { d with clip := clip }
  | bindPacket {trigger : ClipPacketTrigger} : validatePacketTrigger trigger = .ok () →
      Recorded d (d.clipPacketBind trigger)
  | unbindPacket (key : ClipPacketKey) : Recorded d (d.clipPacketUnbind key)
  | clearTriggers : Recorded d d.clipTriggersClear
  | caps (nButtons : UInt8) : Recorded d (d.noteDeclaredButtons nButtons)
  | catch_ (effective : FilterSet) : Recorded d (d.setCatch effective)
  | adopt (status : ClipStatus) (settings : ClipSettings) : Recorded d (d.clipAdopt status settings)

theorem Recorded.undone {d d' undone : DesiredState} (h : Recorded d d') (hu : Recorded d undone)
    (sent : Except Error Unit) : Recorded d (recorded d' undone sent).1 := by
  cases sent with
  | ok r => exact h
  | error e => exact hu

theorem Recorded.of_eq {d d' : DesiredState} (h : d' = d) : Recorded d d' := h ▸ .same

theorem Recorded.sent {d d' : DesiredState} (h : Recorded d d') (sent : Except Error Unit) :
    Recorded d (sentThen d d' sent).1 := by
  cases sent with
  | ok r => exact h
  | error e => exact .same

section Undone

variable {d : DesiredState} (h : d.TablesKeyed)
include h

theorem clearRewrites_undone :
    d.heldRewrites.foldl (fun d r => (d.applyRewrite r).1) d.clearRewrites = d := by
  rw [DesiredState.foldl_applyRewrite]
  simp [DesiredState.clearRewrites, DesiredState.heldRewrites,
    Keyed.foldl_setLast_of_nodup StoredRewrite.key (l := []) h.rewrites]

theorem clearTransforms_undone :
    d.heldTransforms.foldl (fun d t => (d.applyTransform t).1) d.clearTransforms = d := by
  rw [DesiredState.foldl_applyTransform]
  simp [DesiredState.clearTransforms, DesiredState.heldTransforms,
    Keyed.foldl_setInPlace_of_nodup StoredTransform.key (l := []) h.transforms]

theorem optOut_undone :
    d.clearRewrites.clipPacketDropConsuming.2.foldl DesiredState.clipPacketBind
      (d.heldRewrites.foldl (fun d r => (d.applyRewrite r).1)
        d.clearRewrites.clipPacketDropConsuming.1) =
      { d with clip := { d.clip with
          packetTriggers := reboundConsuming d.clip.packetTriggers } } := by
  rw [DesiredState.foldl_applyRewrite, DesiredState.foldl_clipPacketBind]
  simp [DesiredState.clearRewrites, DesiredState.heldRewrites,
    DesiredState.clipPacketDropConsuming, reboundConsuming,
    Keyed.foldl_setLast_of_nodup StoredRewrite.key (l := []) h.rewrites]

end Undone

variable {send : FrameType → List UInt8 → Except Error Unit}

theorem clipAppend_recorded (d : DesiredState) (chunks : List (List UInt8)) :
    ∃ clip : ClipHeld, clip.packetTriggers = d.clip.packetTriggers ∧
      (clipAppend send d chunks).1 = { d with clip := clip } := by
  induction chunks generalizing d with
  | nil => exact ⟨d.clip, rfl, rfl⟩
  | cons chunk chunks ih =>
    unfold clipAppend
    split
    · exact ⟨d.clip, rfl, rfl⟩
    · obtain ⟨clip, hp, hd⟩ := ih (d.clipLoaded true)
      exact ⟨clip, hp, hd⟩

theorem clipNoteRing_frame (d : DesiredState) (seen : Nat) (status : ClipStatus)
    (released : Bool) : ∃ clip : ClipHeld, clip.packetTriggers = d.clip.packetTriggers ∧
      d.clipNoteRing seen status released = { d with clip := clip } := by
  unfold DesiredState.clipNoteRing
  dsimp only
  split_ifs
  · exact ⟨d.clip, rfl, rfl⟩
  · refine ⟨_, ?_, rfl⟩
    rfl
  · refine ⟨_, ?_, rfl⟩
    rfl

/-- The one place a call is taken apart. -/
theorem call_recorded {d : DesiredState} (h : d.TablesKeyed) (c : DeviceCall) :
    Recorded d (call send d c).1 := by
  cases c with
  | inject usage action => exact .apply usage action
  | reset flags => exact .reset
  | scale scope direction scale =>
    simp only [call, sendLock]
    split
    · exact .same
    next hc => exact (Recorded.lock hc).undone (.of_eq (Locks.restoreLock_applyLock d _ _)) _
  | setRewrite allowed rule =>
    simp only [call, setRewrite]
    split
    · exact .same
    next hvalid =>
      split
      · exact .same
      · simp only [setRewriteChecked]
        split
        · exact .same
        next hcap =>
          exact (Recorded.setRewrite hvalid hcap).undone
            (.of_eq (DesiredState.restoreRewrite_applyRewrite h.rewrites _)) _
  | removeRewrite rule =>
    simp only [call, removeRewrite]
    split
    · exact .same
    · exact (Recorded.removeRewrite _).undone
        (.of_eq (DesiredState.restoreRewrite_removeRewrite h.rewrites _)) _
  | clearRewrite => exact Recorded.clearRewrites.undone (.of_eq (clearRewrites_undone h)) _
  | transform t =>
    simp only [call, transform]
    split
    · exact .same
    next hvalid =>
      split
      · exact .same
      next hroom =>
        refine (Recorded.setTransform hvalid fun hnew => ?_).undone
          (.of_eq (DesiredState.restoreTransform_applyTransform d _)) _
        exact Nat.not_le.mp fun hfull => hroom ⟨by simp [hnew], hfull⟩
  | untransform t =>
    exact (Recorded.removeTransform _).undone
      (.of_eq (DesiredState.restoreTransform_removeTransform h.transforms _)) _
  | clearTransforms =>
    exact Recorded.clearTransforms.undone (.of_eq (clearTransforms_undone h)) _
  | allowImperfectClones allow =>
    cases allow with
    | true => exact .same
    | false =>
      have hundone := optOut_undone h
      exact Recorded.optOut.undone (hundone ▸ .optOutUndone) _
  | clipAppend chunks =>
    obtain ⟨clip, hp, hd⟩ := @clipAppend_recorded send d chunks
    rw [call, hd]
    exact .clip hp
  | clipClear =>
    have hc : Recorded d (d.clipLoaded false) := .clip rfl
    exact hc.sent _
  | clipSet id value =>
    have hc : Recorded d (d.clipSetting id value) := .clip rfl
    exact hc.sent _
  | bind trigger =>
    have hc : Recorded d (d.clipBind trigger) := .clip rfl
    exact hc.sent _
  | unbind usage edge =>
    have hc : Recorded d (d.clipUnbind (usage.classId.1, usage.classId.2, edge.asU8)) := .clip rfl
    exact hc.sent _
  | bindPacket trigger =>
    simp only [call, bindPacket]
    split
    · exact .same
    next hvalid => exact (Recorded.bindPacket hvalid).sent _
  | unbindPacket trigger =>
    simp only [call, unbindPacket]
    split
    · exact .same
    · exact (Recorded.unbindPacket _).sent _
  | clearTriggers => exact Recorded.clearTriggers.sent _
  | caps nButtons => exact .caps nButtons
  | catch_ effective => exact .catch_ effective
  | noteRing seen status released =>
    obtain ⟨clip, hp, hd⟩ := clipNoteRing_frame d seen status released
    rw [call, hd]
    exact .clip hp
  | adopt status settings => exact .adopt status settings

theorem Recorded.tablesKeyed {d d' : DesiredState} (h : d.TablesKeyed) (hr : Recorded d d') :
    d'.TablesKeyed := by
  cases hr with
  | apply usage action =>
    unfold DesiredState.apply
    split <;> exact ⟨h.rewrites, h.transforms⟩
  | reset => exact ⟨List.nodup_nil, List.nodup_nil⟩
  | lock hc =>
    obtain ⟨locks, order, hd⟩ := d.applyLock_frame _ _
    rw [hd]
    exact ⟨h.rewrites, h.transforms⟩
  | setRewrite => exact h.applyRewrite _
  | removeRewrite key => exact h.removeRewrite key
  | setTransform => exact h.applyTransform _
  | removeTransform key => exact h.removeTransform key
  | clearRewrites | optOut => exact ⟨List.nodup_nil, h.transforms⟩
  | clearTransforms => exact ⟨h.rewrites, List.nodup_nil⟩
  | bindPacket =>
    rw [DesiredState.clipPacketBind_eq]
    exact ⟨h.rewrites, h.transforms⟩
  | _ => exact ⟨h.rewrites, h.transforms⟩

theorem Reachable.tablesKeyed {d : DesiredState} (h : Reachable d) : d.TablesKeyed := by
  induction h with
  | default => exact ⟨List.nodup_nil, List.nodup_nil⟩
  | call send c _ ih => exact (call_recorded ih c).tablesKeyed ih

/-- What every recorded change keeps, every reachable state has. -/
theorem Reachable.invariant {P : DesiredState → Prop} (start : P .default)
    (step : ∀ d d', d.TablesKeyed → P d → Recorded d d' → P d') {d : DesiredState}
    (h : Reachable d) : P d := by
  induction h with
  | default => exact start
  | call send c hd ih => exact step _ _ hd.tablesKeyed ih (call_recorded hd.tablesKeyed c)

/-- Every consuming trigger stands after every kept one, under a key no trigger before it has. -/
def Restorable (held : List ClipPacketTrigger) : Prop :=
  held.Pairwise fun a b =>
    (a.consume → b.consume) ∧ (b.consume → clipPacketKey a ≠ clipPacketKey b)

instance (held : List ClipPacketTrigger) : Decidable (Restorable held) :=
  inferInstanceAs (Decidable (held.Pairwise _))

theorem filter_not_append_filter {α : Type} {p : α → Bool} {l : List α}
    (h : l.Pairwise fun a b => p a → p b) : (l.filter fun a => !p a) ++ l.filter p = l := by
  induction l with
  | nil => rfl
  | cons a l ih =>
    obtain ⟨ha, hl⟩ := List.pairwise_cons.mp h
    by_cases hp : p a
    · have hall : ∀ b ∈ l, p b := fun b hb => ha b hb hp
      rw [List.filter_cons_of_pos hp, List.filter_cons_of_neg (by simp [hp]),
        List.filter_eq_self.mpr hall, List.filter_eq_nil_iff.mpr (by simpa using hall),
        List.nil_append]
    · rw [List.filter_cons_of_neg hp, List.filter_cons_of_pos (by simp [hp]), List.cons_append,
        ih hl]

theorem reboundConsuming_eq_iff (held : List ClipPacketTrigger) :
    reboundConsuming held = held ↔ Restorable held := by
  have hlen : (held.filter fun t => !t.consume).length + (held.filter fun t => t.consume).length =
      held.length := by
    simpa [Nat.add_comm] using held.length_eq_length_filter_add (fun t => t.consume) |>.symm
  constructor
  · intro h
    have hrebound : (reboundConsuming held).length =
        (held.filter fun t => !t.consume).length + (held.filter fun t => t.consume).length :=
      (congrArg List.length h).trans hlen.symm
    obtain ⟨hpair, hfresh⟩ := Keyed.fresh_of_length_foldl_setInPlace clipPacketKey hrebound
    rw [reboundConsuming, Keyed.foldl_setInPlace_of_fresh clipPacketKey hpair hfresh] at h
    rw [← h, Restorable, List.pairwise_append]
    refine ⟨?_, ?_, ?_⟩
    · refine List.pairwise_of_forall_mem_list fun a ha b hb => ?_
      rw [List.mem_filter] at ha hb
      simp_all
    · refine hpair.imp_of_mem fun ha hb hne => ?_
      rw [List.mem_filter] at ha hb
      exact ⟨fun _ => hb.2, fun _ => hne⟩
    · intro a ha b hb
      exact ⟨fun _ => (List.mem_filter.mp hb).2, fun _ => hfresh b hb a ha⟩
  · intro h
    have hsplit := filter_not_append_filter (h.imp And.left)
    have hparts : Restorable _ := hsplit.symm ▸ h
    obtain ⟨-, hpair, hcross⟩ := List.pairwise_append.mp hparts
    rw [reboundConsuming, Keyed.foldl_setInPlace_of_fresh clipPacketKey, hsplit]
    · exact hpair.imp_of_mem fun ha hb hne => hne.2 (List.mem_filter.mp hb).2
    · intro a ha b hb
      exact (hcross b hb a ha).2 (List.mem_filter.mp ha).2

/-- A frame that cannot be sent leaves the tables as they were, up to the packet triggers an
opt-out drops: these are bound again behind the others. -/
theorem unsent_unchanged_iff {d : DesiredState} (h : Reachable d) (e : Error) :
    (clearRewrite (fun _ _ => (.error e : Except Error Unit)) d).1 = d ∧
      (clearTransforms (fun _ _ => (.error e : Except Error Unit)) d).1 = d ∧
      ((allowImperfectClones (fun _ _ => (.error e : Except Error Unit)) d false).1 = d ↔
        Restorable d.clip.packetTriggers) := by
  have hkeyed := h.tablesKeyed
  refine ⟨clearRewrites_undone hkeyed, clearTransforms_undone hkeyed, ?_⟩
  have hundone :
      (allowImperfectClones (fun _ _ => (.error e : Except Error Unit)) d false).1 = _ :=
    optOut_undone hkeyed
  rw [hundone, ← reboundConsuming_eq_iff]
  constructor
  · intro hd
    exact congrArg (fun d => d.clip.packetTriggers) hd
  · intro hp
    rw [hp]

def bindSent (d : DesiredState) (t : ClipPacketTrigger) : DesiredState :=
  (call (fun _ _ => .ok ()) d (.bindPacket t)).1

def consumingTrigger : ClipPacketTrigger where
  class_ := .hidIn
  id := packetAnyId
  direction := .positive
  action := .start
  matchBytes := [1]
  mask := [0xFF]
  consume := true
  oncePerRun := false
  selectorLen := 0

def observingTrigger : ClipPacketTrigger :=
  { consumingTrigger with matchBytes := [2], consume := false }

theorem reachable_observing_consuming :
    Reachable (bindSent (bindSent .default observingTrigger) consumingTrigger) :=
  .call _ _ (.call _ _ .default)

theorem unsent_unchanged_observing_consuming :
    Reachable (bindSent (bindSent .default observingTrigger) consumingTrigger) ∧
      (allowImperfectClones (fun _ _ => (.error .disconnected : Except Error Unit))
        (bindSent (bindSent .default observingTrigger) consumingTrigger) false).1 =
          bindSent (bindSent .default observingTrigger) consumingTrigger :=
  ⟨reachable_observing_consuming,
    (unsent_unchanged_iff reachable_observing_consuming .disconnected).2.2.mpr (by decide)⟩

/-- A trigger bound after a consuming one is ahead of it once an opt-out could not be sent. -/
theorem unsent_opt_out_reorders :
    ¬∀ d : DesiredState, Reachable d →
      (allowImperfectClones (fun _ _ => (.error .disconnected : Except Error Unit)) d false).1 = d := by
  intro h
  have hd := h (bindSent (bindSent (call (fun _ _ => .ok ()) .default
    (.allowImperfectClones true)).1 consumingTrigger) observingTrigger)
    (.call _ _ (.call _ _ (.call _ _ .default)))
  have horder := congrArg (fun d => d.clip.packetTriggers) hd
  revert horder
  decide

end Medius.Device
