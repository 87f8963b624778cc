import Medius.Locks.Reached
import Medius.Mock.LocksReply

/-! What `RESP(LOCKS)` says of a table, row by row, and the table its entries rebuild. -/

namespace Medius.Locks

open Protocol Link Mock Medius.Types

def Field.scope : Field → LockScope
  | .axis id => .target (.axis (![.x, .y, .wheel, .pan] id))
  | .button b => .target (.usage ⟨.button, UInt16.ofNat b⟩)
  | .keys => .blanket .key
  | .key u => .target (.usage ⟨.key, u.toUInt16⟩)
  | .mediaAll => .blanket .media
  | .media id => .target (.usage ⟨.media, id.val⟩)

/-- Each slot goes out under its own direction, a media row whole. -/
def fieldCommands (t : LockTable) : Field → List (Direction × Int16)
  | .mediaAll => if boxRow t .mediaAll 0 = lockScalePass then [] else [(.both, lockScaleBlock)]
  | .media m => if boxRow t (.media m) 0 = lockScalePass then [] else [(.both, lockScaleBlock)]
  | f => ((List.finRange 4).filter fun i => boxRow t f i ≠ lockScalePass).map fun i =>
      (slotDirections i, boxRow t f i)

def fieldEntries (t : LockTable) (f : Field) : List LockEntry :=
  (fieldCommands t f).map fun c => ⟨f.scope, c.1, c.2⟩

def mouseFields : List Field := (List.finRange 4).map .axis ++ (List.finRange 16).map .button

def keyFields : List Field := (List.range 256).map fun u => .key (UInt8.ofNat u)

variable {t : LockTable}

theorem BoxWf.granular (h : BoxWf t) :
    ∀ m ∈ t.media.filter fun id => id ≠ 0, m ≠ 0 ∧ m ≠ lockIdAll := by
  intro m hm
  obtain ⟨hmem, h0⟩ := List.mem_filter.mp hm
  exact ⟨of_decide_eq_true h0, fun hall => h.media_granular (hall ▸ hmem)⟩

def mediaFields (h : BoxWf t) : List Field :=
  (t.media.filter fun id => id ≠ 0).pmap (fun m hm => .media ⟨m, hm⟩) h.granular

def fields (h : BoxWf t) : List Field :=
  mouseFields ++ [.keys, .mediaAll] ++ mediaFields h ++ keyFields

theorem Field.classId_scope (f : Field) : f.scope.classId = f.address := by
  cases f with
  | axis a =>
    revert a
    decide
  | button | keys | key | mediaAll | media => rfl

theorem Field.scope_spelled (f : Field) : f.scope.Spelled := by
  have hblanket : ∀ b : Fin 16, UInt16.ofNat b ≠ lockIdAll := by decide
  cases f with
  | axis | keys | mediaAll => trivial
  | button b => exact hblanket b
  | key u =>
    intro h
    have hkey : Field.address (.key u) = Field.address .keys := Prod.ext rfl h
    cases Field.address_injective hkey
  | media id => exact id.property.2

theorem mouseEntries_axis (t : LockTable) (a : Fin 4) :
    t.mouseEntries false (axisTarget a) = fieldEntries t (.axis a) := by
  have hscope : targetScope (axisTarget a) = Field.scope (.axis a) := by
    revert a
    decide
  simp only [LockTable.mouseEntries, fieldEntries, fieldCommands, List.map_map, hscope,
    LockTable.reported]
  rfl

theorem mouseEntries_button (t : LockTable) (b : Fin 16) :
    t.mouseEntries false (buttonTarget b) = fieldEntries t (.button b) := by
  have hscope : targetScope (buttonTarget b) = Field.scope (.button b) := by
    revert b
    decide
  simp only [LockTable.mouseEntries, fieldEntries, fieldCommands, List.map_map, hscope,
    LockTable.reported]
  rfl

theorem flatMap_mouseEntries (t : LockTable) :
    (List.finRange lockTgtCount).flatMap (t.mouseEntries false) =
      mouseFields.flatMap (fieldEntries t) := by
  have htargets : List.finRange lockTgtCount =
      (List.finRange 4).map axisTarget ++ (List.finRange 16).map buttonTarget := by decide
  rw [htargets, mouseFields, List.flatMap_append, List.flatMap_append, List.flatMap_map,
    List.flatMap_map, List.flatMap_map, List.flatMap_map]
  congr 1
  · exact List.flatMap_congr fun a _ => mouseEntries_axis t a
  · exact List.flatMap_congr fun b _ => mouseEntries_button t b

theorem keyBlanketEntries_eq (h : BoxWf t) : t.keyBlanketEntries = fieldEntries t .keys := by
  obtain ⟨k, hk⟩ : ∃ k : Fin 4, t.keyBlanket = UInt8.ofNat k :=
    ⟨⟨t.keyBlanket.toNat, h.edge_bits⟩, by simp⟩
  simp only [LockTable.keyBlanketEntries, fieldEntries, fieldCommands, boxRow, hk]
  clear hk
  revert k
  decide

theorem mediaBlanketEntries_eq (t : LockTable) :
    t.mediaBlanketEntries = fieldEntries t .mediaAll := by
  simp only [LockTable.mediaBlanketEntries, fieldEntries, fieldCommands, boxRow]
  by_cases hb : t.mediaBlanket
  · simp only [hb]
    rfl
  · simp only [hb]
    rfl

theorem mediaEntries_eq (h : BoxWf t) :
    t.mediaEntries = (mediaFields h).flatMap (fieldEntries t) := by
  have hone : ∀ f ∈ mediaFields h,
      fieldEntries t f = [⟨f.scope, .both, lockScaleBlock⟩] := by
    intro f hf
    obtain ⟨m, hm, rfl⟩ := List.mem_pmap.mp hf
    have hmem := (List.mem_filter.mp hm).1
    simp only [fieldEntries, fieldCommands, boxRow, List.contains_eq_mem, hmem, decide_true]
    rfl
  rw [List.flatMap_congr hone, ← List.map_eq_flatMap, mediaFields, List.map_pmap]
  exact (List.pmap_eq_map ..).symm

theorem edges_commands (press release : Bool) :
    (((List.finRange 4).filter fun i => edges press release i ≠ lockScalePass).map fun i =>
      (slotDirections i, edges press release i)) =
      (if press then [(Direction.positive, lockScaleBlock)] else []) ++
        (if release then [(Direction.negative, lockScaleBlock)] else []) := by
  cases press <;> cases release <;> decide

theorem keyEntries_eq (t : LockTable) (u : UInt8) : t.keyEntries u = fieldEntries t (.key u) := by
  have hcommands : fieldCommands t (.key u) = _ := edges_commands (t.keyPress u) (t.keyRelease u)
  rw [fieldEntries, hcommands, List.map_append, LockTable.keyEntries]
  congr 1
  · split <;> rfl
  · split <;> rfl

/-- The reply goes through the rows one by one. -/
theorem offered_eq (h : BoxWf t) : t.offered false = (fields h).flatMap (fieldEntries t) := by
  have hkeys : ((List.range 256).flatMap fun u => t.keyEntries (UInt8.ofNat u)) =
      keyFields.flatMap (fieldEntries t) := by
    rw [keyFields, List.flatMap_map]
    exact List.flatMap_congr fun u _ => keyEntries_eq t _
  simp only [LockTable.offered, fields, List.flatMap_append, flatMap_mouseEntries,
    keyBlanketEntries_eq h, mediaBlanketEntries_eq, mediaEntries_eq h, hkeys, List.flatMap_cons,
    List.flatMap_nil, List.append_nil, List.append_assoc]

theorem mem_keyFields (u : UInt8) : Field.key u ∈ keyFields :=
  List.mem_map.mpr ⟨u.toNat, List.mem_range.mpr u.toNat_lt, by rw [UInt8.ofNat_toNat]⟩

theorem mem_mediaFields (h : BoxWf t) (m : MediaId) : Field.media m ∈ mediaFields h ↔ m.val ∈ t.media := by
  rw [mediaFields, List.mem_pmap]
  constructor
  · rintro ⟨id, hid, he⟩
    cases he
    exact (List.mem_filter.mp hid).1
  · exact fun hm => ⟨m.val, List.mem_filter.mpr ⟨hm, decide_eq_true m.property.1⟩, rfl⟩

/-- Every row that is not at pass is gone through. -/
theorem mem_fields (h : BoxWf t) {f : Field} (hf : boxRow t f ≠ Slots.default) : f ∈ fields h := by
  simp only [fields, List.mem_append]
  cases f with
  | axis a => exact .inl (.inl (.inl (by simp [mouseFields])))
  | button b => exact .inl (.inl (.inl (by simp [mouseFields])))
  | keys => exact .inl (.inl (.inr List.mem_cons_self))
  | mediaAll => exact .inl (.inl (.inr (List.mem_cons_of_mem _ List.mem_cons_self)))
  | key u => exact .inr (mem_keyFields u)
  | media m =>
    refine .inl (.inr ((mem_mediaFields h m).mpr ?_))
    by_contra hm
    refine hf ?_
    simp only [boxRow, List.contains_eq_mem, hm, decide_false]
    decide

theorem mem_mouseFields {f : Field} (h : f ∈ mouseFields) :
    (∃ a, f = .axis a) ∨ ∃ b, f = .button b := by
  obtain h | h := List.mem_append.mp h
  · obtain ⟨a, -, rfl⟩ := List.mem_map.mp h
    exact .inl ⟨a, rfl⟩
  · obtain ⟨b, -, rfl⟩ := List.mem_map.mp h
    exact .inr ⟨b, rfl⟩

theorem keyFields_nodup : keyFields.Nodup := by
  refine List.Nodup.map_on (fun u hu v hv h => ?_) List.nodup_range
  have hu := List.mem_range.mp hu
  have hv := List.mem_range.mp hv
  have huv := congrArg UInt8.toNat (Field.key.inj h)
  simp only [UInt8.toNat_ofNat'] at huv
  omega

theorem mediaFields_nodup (h : BoxWf t) : (mediaFields h).Nodup :=
  h.media_nodup.pmap fun _ _ _ _ he => Subtype.mk.inj (Field.media.inj he)

theorem mouseFields_nodup : mouseFields.Nodup := by
  refine List.Nodup.append ((List.nodup_finRange 4).map fun _ _ => Field.axis.inj)
    ((List.nodup_finRange 16).map fun _ _ => Field.button.inj) fun f ha hb => ?_
  obtain ⟨a, -, rfl⟩ := List.mem_map.mp ha
  obtain ⟨b, -, hb⟩ := List.mem_map.mp hb
  cases hb

theorem fields_nodup (h : BoxWf t) : (fields h).Nodup := by
  have hmedia : ∀ f ∈ mediaFields h, ∃ m, f = .media m := by
    intro f hf
    obtain ⟨m, hm, rfl⟩ := List.mem_pmap.mp hf
    exact ⟨_, rfl⟩
  have hkey : ∀ f ∈ keyFields, ∃ u, f = .key u := by
    intro f hf
    obtain ⟨u, -, rfl⟩ := List.mem_map.mp hf
    exact ⟨_, rfl⟩
  refine List.Nodup.append (List.Nodup.append (List.Nodup.append mouseFields_nodup (by decide) ?_)
    (mediaFields_nodup h) ?_) keyFields_nodup ?_
  · intro f hf hb
    obtain ⟨a, rfl⟩ | ⟨b, rfl⟩ := mem_mouseFields hf
    · simp at hb
    · simp at hb
  · intro f hf hm
    obtain ⟨m, rfl⟩ := hmedia f hm
    obtain hf | hf := List.mem_append.mp hf
    · obtain ⟨a, h⟩ | ⟨b, h⟩ := mem_mouseFields hf <;> cases h
    · simp at hf
  · intro f hf hk
    obtain ⟨u, rfl⟩ := hkey f hk
    obtain hf | hf := List.mem_append.mp hf
    · obtain hf | hf := List.mem_append.mp hf
      · obtain ⟨a, h⟩ | ⟨b, h⟩ := mem_mouseFields hf <;> cases h
      · simp at hf
    · obtain ⟨m, h⟩ := hmedia _ hf
      cases h

end Medius.Locks
