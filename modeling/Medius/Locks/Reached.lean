import Medius.Locks.History

/-! The tables a box comes to hold, whatever the host was let send: any class byte, any id, a
blanket over the axes, a usage there is no slot left for. -/

namespace Medius.Locks

open Protocol Link Mock Medius.Types

structure LockRequest where
  class_ : UInt8
  id : UInt16
  direction : Direction
  scale : Int16
  deriving DecidableEq

def LockRequest.command (r : LockRequest) : Except Error Command :=
  Device.lockCommand r.class_ r.id r.direction r.scale

/-- A request `sendLock` refuses is no step. -/
def receive (n : UInt8) (t : LockTable) (r : LockRequest) : Option LockTable :=
  match r.command with
  | .error _ => none
  | .ok c => some (applyCommand n t c)

def InScale (scale : Int16) : Prop := lockScaleMin ≤ scale ∧ scale ≤ lockScaleMax

structure TableWf (n : Nat) (t : LockTable) : Prop where
  box : BoxWf t
  shape : ∀ f : Field, RowShape f.address (boxRow t f)
  declared : ∀ f : Field, boxRow t f ≠ Slots.default → f.Declared n
  in_scale : ∀ (f : Field) i, InScale (boxRow t f i)

variable {n : UInt8} {t : LockTable} {c : Command}

theorem exists_agree (t : LockTable) : ∃ W : Rows, Agree W t :=
  ⟨Function.extend Field.address (boxRow t) Rows.clear, fun f =>
    (Field.address_injective.extend_apply _ _ f).symm⟩

theorem InScale.pass : InScale lockScalePass := ⟨by decide, by decide⟩

theorem InScale.block : InScale lockScaleBlock := ⟨by decide, by decide⟩

theorem InScale.momentaryScale {scale : Int16} (h : InScale scale) (class_ : UInt8) :
    InScale (momentaryScale class_ scale) := by
  by_cases hc : class_ = lockClsAxis
  · rwa [Link.momentaryScale, if_pos hc]
  · obtain hs | hs := momentaryScale_one_bit hc scale
    · exact hs ▸ InScale.block
    · exact hs ▸ InScale.pass

theorem InScale.write {r : Slots} (hr : ∀ i, InScale (r i)) {scale : Int16} (hs : InScale scale)
    (dir : UInt8) (i : Fin 4) : InScale (r.write dir scale i) := by
  unfold Slots.write
  split
  · fin_cases i
    · exact hs
    · exact hs
    · exact InScale.pass
    · exact InScale.pass
  · change InScale (if slotDirs i = dir then scale else r i)
    split
    · exact hs
    · exact hr i

/-- A row a command writes is of the command's class, and one the commands may name. -/
theorem boxRow_applyCommand (hn : n ≤ maxButtons) (hwf : BoxWf t) (hc : Accepted n.toNat c)
    (hroom : Room t c) (f : Field) :
    boxRow (applyCommand n t c) f = boxRow t f ∨
      (c.1.1 = f.address.1 ∧ f.Declared n.toNat ∧ boxRow (applyCommand n t c) f =
        (boxRow t f).write c.1.2.2 (momentaryScale c.1.1 c.2)) := by
  have hn16 := UInt8.le_iff_toNat_le.mp hn
  obtain ⟨W, hW⟩ := exists_agree t
  rw [hW.apply hn hwf hc hroom f, hW f]
  by_cases hb : c.1.1 = lockClsBtn ∧ c.1.2.1 = lockIdAll
  · rw [writeAll_rowWrites_blanket hn16 _ _ hb]
    split
    next hm =>
      obtain ⟨b, hbn, hba⟩ := List.mem_map.mp hm
      have hbn := List.mem_range.mp hbn
      have hf : f = .button ⟨b, Nat.lt_of_lt_of_le hbn hn16⟩ := Field.address_injective hba.symm
      subst hf
      exact .inr ⟨hb.1, hbn, rfl⟩
    next => exact .inl rfl
  · rw [writeAll_rowWrites_single _ _ _ hb]
    split
    next hf =>
      refine .inr ⟨congrArg Prod.fst hf.symm, ?_, rfl⟩
      obtain ha | ⟨g, hg, ha⟩ := hc.addressable
      · exact absurd (Prod.mk.inj ha) hb
      · rwa [Field.address_injective (hf.trans ha)]
    next => exact .inl rfl

theorem TableWf.default (n : Nat) : TableWf n .default where
  box := BoxWf.default
  shape f := by
    rw [Agree.clear f]
    exact RowShape.default _
  declared f h := absurd (Agree.clear f) h
  in_scale f i := by
    rw [Agree.clear f]
    exact InScale.pass

theorem TableWf.apply (h : TableWf n.toNat t) (hn : n ≤ maxButtons) (hc : Accepted n.toNat c)
    (hroom : Room t c) (hs : InScale c.2) : TableWf n.toNat (applyCommand n t c) where
  box := h.box.apply hn hc hroom
  shape f := by
    obtain hf | ⟨hcls, -, hf⟩ := boxRow_applyCommand hn h.box hc hroom f
    · exact hf ▸ h.shape f
    · rw [hf]
      exact (hc.shape ((h.shape f).of_class hcls.symm)).of_class hcls
  declared f := by
    obtain hf | ⟨-, hd, -⟩ := boxRow_applyCommand hn h.box hc hroom f
    · exact hf ▸ h.declared f
    · exact fun _ => hd
  in_scale f := by
    obtain hf | ⟨-, -, hf⟩ := boxRow_applyCommand hn h.box hc hroom f
    · exact hf ▸ h.in_scale f
    · rw [hf]
      exact InScale.write (h.in_scale f) (hs.momentaryScale _) _

theorem min_maxButtons_le (n : UInt8) : min n maxButtons ≤ maxButtons := by
  by_cases hn : n ≤ maxButtons
  · rwa [show min n maxButtons = n from if_pos hn]
  · rw [show min n maxButtons = maxButtons from if_neg hn]
    exact UInt8.le_refl _

/-- A box has no more buttons than it has rows for. -/
theorem applyCommand_min (n : UInt8) (t : LockTable) (c : Command) :
    applyCommand n t c = applyCommand (min n maxButtons) t c := by
  have hmin : min (min n maxButtons) maxButtons = min n maxButtons := if_pos (min_maxButtons_le n)
  simp only [applyCommand, LockTable.apply, hmin]

theorem lockCommand_inScale {class_ : UInt8} {id : UInt16} {d : Direction} {scale : Int16}
    (h : Device.lockCommand class_ id d scale = .ok c) : InScale scale := by
  unfold Device.lockCommand at h
  split at h
  next => cases h
  next hr => exact Classical.not_not.mp hr

theorem lockCommand_axis {scale : Int16} (hs : InScale scale) (id : UInt16) (d : Direction) :
    Device.lockCommand lockClsAxis id d scale = .ok ((lockClsAxis, id, d.asU8), scale) := by
  unfold InScale at hs
  rw [Device.lockCommand, if_neg (not_not.mpr hs), if_neg (fun h => h.2 rfl)]
  rfl

theorem lockCommand_momentary {class_ : UInt8} {d : Direction} {scale : Int16} (hs : InScale scale)
    (haxis : class_ ≠ lockClsAxis) (h0 : 0 ≤ scale) (hd : d.isRelative = false)
    (hm : class_ = lockClsMedia → d = .both) (id : UInt16) :
    Device.lockCommand class_ id d scale = .ok ((class_, id, d.asU8), scale) := by
  have hdir : Device.lockDirection class_ d = .ok d := by
    rw [Device.lockDirection, if_neg haxis, if_neg (by simp [hd])]
    split
    next hmedia => rw [hm hmedia]
    next => rfl
  unfold InScale at hs
  rw [Device.lockCommand, if_neg (not_not.mpr hs), if_neg (fun h => absurd h.1 (Int16.not_lt.mpr h0)),
    hdir]
  rfl

theorem apply_axes (d : Direction) (scale : Int16) :
    t.apply lockClsAxis lockIdAll d.asU8 scale n =
      ((List.finRange 4).map fun a : Fin 4 => ((lockClsAxis, UInt16.ofNat a, d.asU8), scale)).foldl
        (applyCommand n) t := by
  have hall : ∀ (as : List (Fin 4)) (t : LockTable),
      (as.map fun a : Fin 4 => ((lockClsAxis, UInt16.ofNat a, d.asU8), scale)).foldl
        (applyCommand n) t = t.setMouseAll (as.map axisTarget) d.asU8 scale := by
    intro as
    induction as with
    | nil => exact fun _ => rfl
    | cons a as ih =>
      intro t
      rw [List.map_cons, List.foldl_cons, ih, List.map_cons, LockTable.setMouseAll,
        LockTable.setMouseAll, List.foldl_cons, applyCommand, apply_axis]
  rw [hall]
  unfold LockTable.apply
  rw [if_neg (fun h => h.2 rfl), if_pos rfl, if_pos rfl]

theorem TableWf.axes (h : TableWf n.toNat t) (hn : n ≤ maxButtons) (d : Direction) {scale : Int16}
    (hs : InScale scale) : TableWf n.toNat (t.apply lockClsAxis lockIdAll d.asU8 scale n) := by
  rw [apply_axes]
  generalize List.finRange 4 = as
  induction as generalizing t with
  | nil => exact h
  | cons a as ih =>
    refine ih (h.apply hn (.axis a d scale) (fun hcls => ?_) hs)
    exact absurd (show lockClsAxis = lockClsMedia from hcls) (by decide)

section momentary

variable {id : UInt16} {d : Direction} {scale : Int16}

theorem TableWf.axisId (h : TableWf n.toNat t) (hn : n ≤ maxButtons) (hs : InScale scale) :
    TableWf n.toNat (applyCommand n t ((lockClsAxis, id, d.asU8), scale)) := by
  by_cases hall : id = lockIdAll
  · subst hall
    rw [applyCommand]
    exact h.axes hn d hs
  · by_cases hpan : id ≤ lockAxisPan
    · have hlt : id.toNat < 4 := Nat.lt_succ_of_le (UInt16.le_iff_toNat_le.mp hpan)
      have hacc := Accepted.axis (n := n.toNat) ⟨id.toNat, hlt⟩ d scale
      rw [show UInt16.ofNat (⟨id.toNat, hlt⟩ : Fin 4).val = id from UInt16.ofNat_toNat] at hacc
      refine h.apply hn hacc (fun hcls => ?_) hs
      exact absurd (show lockClsAxis = lockClsMedia from hcls) (by decide)
    · have hsame : applyCommand n t ((lockClsAxis, id, d.asU8), scale) = t := by
        unfold applyCommand LockTable.apply
        rw [if_neg (fun h => h.2 rfl)]
        simp only [if_true, if_neg hall, dif_neg hpan]
      rwa [hsame]

theorem TableWf.buttonId (h : TableWf n.toNat t) (hn : n ≤ maxButtons) (hs : InScale scale)
    (hd : d.isRelative = false) (h0 : 0 ≤ scale) :
    TableWf n.toNat (applyCommand n t ((lockClsBtn, id, d.asU8), scale)) := by
  have hroom : ∀ id, Room t ((lockClsBtn, id, d.asU8), scale) := fun _ hcls =>
    absurd (show lockClsBtn = lockClsMedia from hcls) (by decide)
  by_cases hall : id = lockIdAll
  · subst hall
    have hacc : Accepted n.toNat ((lockClsBtn, lockIdAll, d.asU8), scale) := .buttons hd h0
    exact h.apply hn hacc (hroom _) hs
  · have hmin : min n maxButtons = n := if_pos hn
    by_cases hlt : id.toNat < n.toNat
    · have h16 : id.toNat < 16 := Nat.lt_of_lt_of_le hlt (UInt8.le_iff_toNat_le.mp hn)
      have hacc := Accepted.button (b := ⟨id.toNat, h16⟩) hlt hd h0
      rw [show UInt16.ofNat (⟨id.toNat, h16⟩ : Fin 16).val = id from UInt16.ofNat_toNat] at hacc
      exact h.apply hn hacc (hroom _) hs
    · have hsame : applyCommand n t ((lockClsBtn, id, d.asU8), scale) = t := by
        unfold applyCommand LockTable.apply
        rw [if_neg (fun h => absurd h.1 (Int16.not_lt.mpr h0))]
        simp only [show lockClsBtn ≠ lockClsAxis by decide, if_true, if_false, if_neg hall, hmin,
          dif_neg (fun h => hlt (And.left h))]
      rwa [hsame]

/-- The box reads the low byte of a key's id. -/
theorem TableWf.keyId (h : TableWf n.toNat t) (hn : n ≤ maxButtons) (hs : InScale scale)
    (hd : d.isRelative = false) (h0 : 0 ≤ scale) :
    TableWf n.toNat (applyCommand n t ((lockClsKey, id, d.asU8), scale)) := by
  have hroom : ∀ id, Room t ((lockClsKey, id, d.asU8), scale) := fun _ hcls =>
    absurd (show lockClsKey = lockClsMedia from hcls) (by decide)
  by_cases hall : id = lockIdAll
  · subst hall
    have hacc : Accepted n.toNat ((lockClsKey, lockIdAll, d.asU8), scale) := .keys hd h0
    exact h.apply hn hacc (hroom _) hs
  · by_cases hu : id.toUInt8 < 0x04
    · have hsame : applyCommand n t ((lockClsKey, id, d.asU8), scale) = t := by
        unfold applyCommand LockTable.apply
        rw [if_neg (fun h => absurd h.1 (Int16.not_lt.mpr h0))]
        simp only [show lockClsKey ≠ lockClsAxis by decide, show lockClsKey ≠ lockClsBtn by decide,
          if_true, if_false, if_neg hall, if_pos hu]
      rwa [hsame]
    · have hlow : applyCommand n t ((lockClsKey, id, d.asU8), scale) =
          applyCommand n t ((lockClsKey, id.toUInt8.toUInt16, d.asU8), scale) := by
        have hkey : id.toUInt8.toUInt16 ≠ lockIdAll := by
          intro he
          have := congrArg UInt16.toNat he
          rw [UInt8.toNat_toUInt16] at this
          have h256 : id.toUInt8.toNat < 256 := id.toUInt8.toNat_lt
          have h65535 : lockIdAll.toNat = 65535 := rfl
          omega
        have hneg : ¬scale < 0 := Int16.not_lt.mpr h0
        unfold applyCommand LockTable.apply
        simp only [hneg, false_and, show lockClsKey ≠ lockClsAxis by decide,
          show lockClsKey ≠ lockClsBtn by decide, if_true, if_false, if_neg hall, if_neg hkey,
          UInt8.toUInt8_toUInt16]
      rw [hlow]
      have hacc : Accepted n.toNat ((lockClsKey, id.toUInt8.toUInt16, d.asU8), scale) :=
        .key (UInt8.not_lt.mp hu) hd h0
      exact h.apply hn hacc (hroom _) hs

/-- A usage no slot is left for is dropped. -/
theorem apply_media_full (id : MediaId) (h0 : 0 ≤ scale) (hon : scale < lockScalePass)
    (hid : id.val ∉ t.media) (hfull : 0 ∉ t.media) :
    applyCommand n t ((lockClsMedia, id.val, d.asU8), scale) = t := by
  rw [applyCommand, apply_media id h0, if_pos hon, if_neg hid, SlotArray.take, List.replace_of_not_mem hfull]

theorem TableWf.mediaId (h : TableWf n.toNat t) (hn : n ≤ maxButtons) (hs : InScale scale)
    (h0 : 0 ≤ scale) :
    TableWf n.toNat (applyCommand n t ((lockClsMedia, id, Direction.both.asU8), scale)) := by
  by_cases hall : id = lockIdAll
  · subst hall
    have hacc : Accepted n.toNat ((lockClsMedia, lockIdAll, Direction.both.asU8), scale) :=
      .mediaAll h0
    exact h.apply hn hacc (fun _ hid => absurd rfl hid) hs
  · by_cases hid : id = 0
    · have hsame : applyCommand n t ((lockClsMedia, id, Direction.both.asU8), scale) = t := by
        unfold applyCommand LockTable.apply
        rw [if_neg (fun h => absurd h.1 (Int16.not_lt.mpr h0))]
        simp only [show lockClsMedia ≠ lockClsAxis by decide,
          show lockClsMedia ≠ lockClsBtn by decide, show lockClsMedia ≠ lockClsKey by decide,
          if_true, if_false, if_neg hall, if_neg (not_not.mpr hid)]
      rwa [hsame]
    · have hacc : Accepted n.toNat ((lockClsMedia, id, Direction.both.asU8), scale) :=
        @Accepted.media _ ⟨id, hid, hall⟩ _ h0
      by_cases hroom : Room t ((lockClsMedia, id, Direction.both.asU8), scale)
      · exact h.apply hn hacc hroom hs
      · simp only [Room, ne_eq, hall, not_false_eq_true, true_imp_iff, Classical.not_imp,
          not_or] at hroom
        obtain ⟨hon, hmem, hfull⟩ := hroom
        rwa [apply_media_full ⟨id, hid, hall⟩ h0 hon hmem hfull]

end momentary

theorem apply_unknown {class_ : UInt8} (haxis : class_ ≠ lockClsAxis) (hbtn : class_ ≠ lockClsBtn)
    (hkey : class_ ≠ lockClsKey) (hmedia : class_ ≠ lockClsMedia) (id : UInt16) (dir : UInt8)
    (scale : Int16) : applyCommand n t ((class_, id, dir), scale) = t := by
  unfold applyCommand LockTable.apply
  simp only [if_neg haxis, if_neg hbtn, if_neg hkey, if_neg hmedia, ite_self]

/-- Whatever `sendLock` accepts keeps the table well formed. -/
theorem TableWf.receive {r : LockRequest} {t' : LockTable}
    (h : TableWf (min n maxButtons).toNat t) (hr : receive n t r = some t') :
    TableWf (min n maxButtons).toNat t' := by
  have hn := min_maxButtons_le n
  unfold Locks.receive at hr
  split at hr
  · cases hr
  next c hc =>
    cases hr
    have hs := lockCommand_inScale hc
    obtain ⟨class_, id, direction, scale⟩ := r
    obtain ⟨d, rfl, hmom, hmedia⟩ := lockCommand_ok hc
    rw [applyCommand_min]
    by_cases haxis : class_ = lockClsAxis
    · subst haxis
      exact h.axisId hn hs
    · obtain ⟨hd, h0⟩ := hmom haxis
      by_cases hbtn : class_ = lockClsBtn
      · subst hbtn
        exact h.buttonId hn hs hd h0
      · by_cases hkey : class_ = lockClsKey
        · subst hkey
          exact h.keyId hn hs hd h0
        · by_cases hmed : class_ = lockClsMedia
          · subst hmed
            obtain rfl := hmedia rfl
            exact h.mediaId hn hs h0
          · rwa [apply_unknown haxis hbtn hkey hmed]

theorem TableWf.run {rs : List LockRequest} {t' : LockTable}
    (h : TableWf (min n maxButtons).toNat t) (hr : Steps.run (Locks.receive n) t rs = some t') :
    TableWf (min n maxButtons).toNat t' :=
  Steps.run_induction (fun _ _ _ h _ hs => TableWf.receive h hs) h
    (Steps.Guarded.of_forall (fun _ _ _ => trivial) _ :
      Steps.Guarded (Locks.receive n) (fun _ _ => True) t rs) hr

end Medius.Locks
