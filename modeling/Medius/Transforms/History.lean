import Medius.Device.Delivery
import Medius.Lib.Steps
import Medius.Link.Tables
import Medius.Transforms.Laws

/-! A `TRANSFORM` history: each call the API accepts changes the host's held transforms, and its
frame the box's table. -/

namespace Medius.Transforms

open Protocol Link Mock Medius.Types

inductive TransformCall
  | transform (t : Transform)
  | untransform (t : Transform)
  | clear
  deriving DecidableEq

abbrev Sides := DesiredState × State

def initial (imperfect : Bool) (caps : Caps) : Sides := (.default, .empty imperfect caps true)

def next (s : Sides) : TransformCall → Option Sides
  | .transform t => Device.accepted (Device.transform (Device.deliver s.2) s.1 t)
  | .untransform t => Device.accepted (Device.untransform (Device.deliver s.2) s.1 t)
  | .clear => Device.accepted (Device.clearTransforms (Device.deliver s.2) s.1)

/-- The clone declares the fields a transform names. -/
def Declared (s : Sides) : TransformCall → Prop
  | .transform t =>
    transformFieldPresent s.2.caps true t.source.classId.1 t.source.classId.2 ∧
      transformFieldPresent s.2.caps true t.dest.classId.1 t.dest.classId.2
  | _ => True

instance (s : Sides) : DecidablePred (Declared s) := fun c => by
  unfold Declared
  split <;> infer_instance

/-- The frames a replay sends for the held transforms. -/
def transformFrames (d : DesiredState) : List (FrameType × List UInt8) :=
  d.heldTransforms.map fun t => (.transform, frame 1 t)

structure InStep (s : Sides) : Prop where
  table : s.2.transforms.transforms = s.1.heldTransforms.map boxed
  full : s.2.transforms.full = false
  /-- An empty table of the same clone comes to hold them all, in order. -/
  replay : ∀ box : State, box.transforms = .default → box.caps = s.2.caps → box.cloneUp = true →
    (box.applyFrames (transformFrames s.1)).transforms = s.2.transforms

/-- The box's table is the host's entries, each one the box takes, within its room. -/
structure Mirrored (s : Sides) : Prop where
  cloneUp : s.2.cloneUp = true
  table : s.2.transforms.transforms = s.1.transforms.map boxed
  full : s.2.transforms.full = false
  keyed : (s.1.transforms.map StoredTransform.key).Nodup
  held : ∀ t ∈ s.1.transforms, Admissible s.2.caps t
  room : s.1.transforms.length ≤ transformMaxEntries

theorem Mirrored.initial (imperfect : Bool) (caps : Caps) : Mirrored (initial imperfect caps) where
  cloneUp := rfl
  table := rfl
  full := rfl
  keyed := List.nodup_nil
  held := fun _ h => absurd h List.not_mem_nil
  room := Nat.zero_le _

theorem applyTableFrame_transform (box : State) (p : List UInt8) :
    box.applyTableFrame .transform p =
      { box with transforms := box.transforms.applyTransformFrame box.caps box.cloneUp p } := rfl

theorem Mirrored.inStep {s : Sides} (h : Mirrored s) : InStep s where
  table := h.table
  full := h.full
  replay := by
    intro box hempty hcaps hup
    have hframes : ∀ f ∈ transformFrames s.1, f.1 ≠ .option := by
      intro f hf
      obtain ⟨t, -, rfl⟩ := List.mem_map.mp hf
      nofun
    rw [State.applyFrames_eq hframes, transformFrames, State.payloads_map .transform .transform,
      if_pos rfl, hempty, hcaps, hup]
    have hsets := @foldl_sets s.2.caps s.1.transforms [] h.keyed h.room h.held .default rfl rfl
    refine hsets.trans ?_
    rw [List.nil_append, ← h.table, ← h.full]

theorem next_transform {s s' : Sides} {t : Transform} (hs : next s (.transform t) = some s') :
    t.op.admits t.source t.dest ∧
      ((∃ e ∈ s.1.transforms, e.key = (Device.storedTransform t).key) ∨
        s.1.transforms.length < transformMaxEntries) ∧
      s' = ((s.1.applyTransform (Device.storedTransform t)).1,
        s.2.applyTableFrame .transform (frame 1 (Device.storedTransform t))) := by
  unfold next Device.transform Device.validateTransform at hs
  dsimp only at hs
  split at hs
  · cases hs
  next hvalid =>
    split at hs
    · cases hs
    next hroom =>
      unfold Device.transformSendLocked at hs
      dsimp only at hs
      rw [if_pos rfl] at hs
      refine ⟨?_, ?_, Device.accepted_recorded hs⟩
      · split at hvalid
        · cases hvalid
        next hadmits => exact not_not.mp hadmits
      · rw [not_and_or, not_not, Nat.not_le] at hroom
        refine hroom.imp_left fun hheld => ?_
        simpa [DesiredState.holdsTransform] using hheld

theorem next_untransform {s s' : Sides} {t : Transform} (hs : next s (.untransform t) = some s') :
    s' = ((s.1.removeTransform (Device.storedTransform t).key).1,
      s.2.applyTableFrame .transform (frame 0 (Device.storedTransform t))) := by
  unfold next Device.untransform Device.transformSendLocked at hs
  dsimp only at hs
  rw [if_neg (by decide)] at hs
  exact Device.accepted_recorded hs

theorem next_clear {s s' : Sides} (hs : next s .clear = some s') :
    s' = (s.1.clearTransforms, { s.2 with transforms := .default }) := by
  unfold next Device.clearTransforms at hs
  exact Device.accepted_recorded hs

theorem admissible_stored {caps : Caps} {t : Transform} (h : t.op.admits t.source t.dest)
    (hs : transformFieldPresent caps true t.source.classId.1 t.source.classId.2)
    (hd : transformFieldPresent caps true t.dest.classId.1 t.dest.classId.2) :
    Admissible caps (Device.storedTransform t) where
  op := by
    change t.op.asU8 < tfOpCount
    cases t.op <;> decide
  pair := transformPairOk_of_admits h
  source := hs
  dest := hd

theorem class_ne_clear (target : LockTarget) : target.classId.1 ≠ 0xFF := by
  cases target with
  | axis a => exact show lockClsAxis ≠ 0xFF by decide
  | usage u =>
    obtain ⟨class_, id⟩ := u
    change class_.asU8 ≠ 0xFF
    cases class_ <;> decide

theorem Mirrored.transform {s s' : Sides} (h : Mirrored s) {t : Transform}
    (hdecl : Declared s (.transform t)) (hs : next s (.transform t) = some s') : Mirrored s' := by
  obtain ⟨hadmits, hroom, rfl⟩ := next_transform hs
  have hadm := admissible_stored hadmits hdecl.1 hdecl.2
  have hset := set_boxed h.table h.full hroom
  have hheld := congrArg DesiredState.transforms
    (s.1.applyTransform_eq (Device.storedTransform t))
  have hbox := applyTransformFrame_set s.2.transforms hadm
  rw [← h.cloneUp] at hbox
  refine ⟨h.cloneUp, ?_, ?_, ?_, ?_, ?_⟩
  · rw [hheld, ← hset.1, ← hbox]
    rfl
  · rw [← hset.2, ← hbox]
    rfl
  · rw [hheld]
    exact Keyed.setInPlace_nodup _ h.keyed _
  · rw [hheld]
    intro u hu
    obtain rfl | hu := Keyed.mem_setInPlace _ hu
    · exact hadm
    · exact h.held u hu
  · rw [hheld]
    obtain hmem | hlt := hroom
    · exact (Keyed.length_setInPlace_of_mem _ hmem).trans_le h.room
    · exact (Keyed.length_setInPlace_le _ _ _).trans hlt

theorem Mirrored.untransform {s s' : Sides} (h : Mirrored s) {t : Transform}
    (hs : next s (.untransform t) = some s') : Mirrored s' := by
  obtain rfl := next_untransform hs
  have hheld := congrArg DesiredState.transforms
    (s.1.removeTransform_eq (Device.storedTransform t).key)
  have hbox := applyTransformFrame_remove s.2.transforms s.2.caps s.2.cloneUp
    (Device.storedTransform t) (class_ne_clear t.source)
  have hsub : (Keyed.remove StoredTransform.key s.1.transforms
      (Device.storedTransform t).key).Sublist s.1.transforms := Keyed.remove_sublist _ _ _
  refine ⟨h.cloneUp, ?_, ?_, ?_, ?_, ?_⟩
  · rw [applyTableFrame_transform, hbox, transforms_remove, h.table, hheld, Keyed.remove_map]
    rfl
  · rw [applyTableFrame_transform, hbox]
    exact full_remove _ h.full
  · rw [hheld]
    exact Keyed.remove_nodup _ h.keyed _
  · rw [hheld]
    exact fun u hu => h.held u (hsub.mem hu)
  · rw [hheld]
    exact hsub.length_le.trans h.room

theorem Mirrored.step {s s' : Sides} {call : TransformCall} (h : Mirrored s)
    (hdecl : Declared s call) (hs : next s call = some s') : Mirrored s' := by
  cases call with
  | transform t => exact h.transform hdecl hs
  | untransform t => exact h.untransform hs
  | clear =>
    obtain rfl := next_clear hs
    exact ⟨h.cloneUp, rfl, rfl, List.nodup_nil, fun _ h => absurd h List.not_mem_nil,
      Nat.zero_le _⟩

/-- After any calls that name declared fields, the held transforms are the box's table and rebuild
it; and the box holds the entry of every transform the API accepts from there. -/
theorem held_transforms_in_step (imperfect : Bool) (caps : Caps) (calls : List TransformCall)
    (s : Sides) (hdecl : Steps.Guarded next Declared (initial imperfect caps) calls)
    (hrun : Steps.run next (initial imperfect caps) calls = some s) :
    InStep s ∧ ∀ t s', Declared s (.transform t) → next s (.transform t) = some s' →
      boxed (Device.storedTransform t) ∈ s'.2.transforms.transforms ∧
        s'.2.transforms.full = false := by
  have h : Mirrored s :=
    Steps.run_induction (fun _ _ _ h hok hs => h.step hok hs) (Mirrored.initial ..) hdecl hrun
  refine ⟨h.inStep, fun t s' hd hs => ?_⟩
  have h' := h.transform hd hs
  refine ⟨?_, h'.full⟩
  rw [h'.table]
  refine List.mem_map_of_mem ?_
  obtain ⟨-, -, rfl⟩ := next_transform hs
  rw [DesiredState.applyTransform_eq]
  exact Keyed.mem_setInPlace_self _ _ _

def mouse : Caps where
  hasX := true
  hasY := true
  hasWheel := true
  pan := false
  nButtons := 5
  nKeys := 0
  hasConsumer := false

def wheelFromX (op : TransformOp) : Transform := ⟨op, .axis .x, .axis .wheel⟩

/-- Two transforms, the first overwritten in its place, and the second removed. -/
def mouseCalls : List TransformCall :=
  [.transform (wheelFromX .remap), .transform ⟨.swap, .axis .y, .axis .x⟩,
    .transform (wheelFromX .swap), .untransform ⟨.remap, .axis .y, .axis .x⟩]

theorem mouseCalls_in_step : ∃ s, Steps.run next (initial false mouse) mouseCalls = some s ∧
    InStep s :=
  ⟨_, rfl, (held_transforms_in_step false mouse mouseCalls _ (by decide) rfl).1⟩

end Medius.Transforms
