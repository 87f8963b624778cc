import Medius.Locks.Box

namespace Medius.Locks

open Protocol Link Mock

variable {n : UInt8} {t : LockTable} {d : Types.Direction} {scale : Int16}

/-- What a write of a momentary class leaves in a row of edges. -/
theorem edges_write (hd : d.isRelative = false) (on p r : Bool) :
    (edges p r).write d.asU8 (if on then lockScaleBlock else lockScalePass) =
      edges (if d = .negative then p else on) (if d = .positive then r else on) := by
  cases d with
  | both | positive | negative => cases on <;> cases p <;> cases r <;> decide
  | with_ | against => cases hd

theorem momentaryScale_eq_edge {class_ : UInt8} (hc : class_ ≠ lockClsAxis) (scale : Int16) :
    momentaryScale class_ scale =
      if decide (scale < lockScalePass) then lockScaleBlock else lockScalePass := by
  simp [momentaryScale, hc]

theorem apply_axis (a : Fin 4) :
    t.apply lockClsAxis (UInt16.ofNat a) d.asU8 scale n = t.setMouse (axisTarget a) d.asU8 scale := by
  have hall : UInt16.ofNat a ≠ lockIdAll := by revert a; decide
  have hpan : UInt16.ofNat a ≤ lockAxisPan := by revert a; decide
  have hval : (⟨(UInt16.ofNat a).toNat, Nat.lt_succ_of_le hpan⟩ : Fin lockTgtBtnBase) = a := by
    revert a; decide
  unfold LockTable.apply
  rw [if_neg (fun h => h.2 rfl)]
  simp only [if_true, if_neg hall, dif_pos hpan, hval]

theorem apply_button {b : Fin 16} (hb : b.val < n.toNat) (hn : n ≤ maxButtons) (hs : 0 ≤ scale) :
    t.apply lockClsBtn (UInt16.ofNat b) d.asU8 scale n =
      t.setMouse (buttonTarget b) d.asU8 scale := by
  have hall : UInt16.ofNat b ≠ lockIdAll := by clear hb; revert b; decide
  have hval : (UInt16.ofNat b).toNat = b.val := by
    have := b.isLt
    simp only [UInt16.toNat_ofNat']
    omega
  have hmin : min n maxButtons = n := if_pos hn
  have hlt : b.val < (min n maxButtons).toNat ∧ b.val < maxButtons.toNat := by
    rw [hmin]
    exact ⟨hb, b.isLt⟩
  unfold LockTable.apply
  rw [if_neg (fun h => absurd h.1 (Int16.not_lt.mpr hs))]
  simp only [show lockClsBtn ≠ lockClsAxis by decide, if_true, if_false, if_neg hall, hval,
    dif_pos hlt]
  rfl

theorem apply_buttons (hn : n ≤ maxButtons) (hs : 0 ≤ scale) :
    t.apply lockClsBtn lockIdAll d.asU8 scale n =
      t.setMouseAll (((List.finRange 16).filter fun b => b.val < n.toNat).map buttonTarget)
        d.asU8 scale := by
  have hmin : min n maxButtons = n := if_pos hn
  unfold LockTable.apply
  rw [if_neg (fun h => absurd h.1 (Int16.not_lt.mpr hs))]
  simp only [show lockClsBtn ≠ lockClsAxis by decide, if_true, if_false, hmin]
  rfl

theorem apply_keys (hs : 0 ≤ scale) (hd : d.isRelative = false) :
    t.apply lockClsKey lockIdAll d.asU8 scale n =
      { t with keyBlanket := if scale < lockScalePass
          then t.keyBlanket ||| (slotMask d.asU8 &&& 0x03)
          else t.keyBlanket &&& ~~~(slotMask d.asU8 &&& 0x03) } := by
  have hm : slotMask d.asU8 &&& 0x03 ≠ 0 := by
    cases d with
    | both | positive | negative => decide
    | with_ | against => cases hd
  unfold LockTable.apply
  rw [if_neg (fun h => absurd h.1 (Int16.not_lt.mpr hs))]
  simp only [show lockClsKey ≠ lockClsAxis by decide, show lockClsKey ≠ lockClsBtn by decide,
    if_true, if_false, if_neg hm]

theorem apply_key {u : UInt8} (hu : 0x04 ≤ u) (hs : 0 ≤ scale) (hd : d.isRelative = false) :
    t.apply lockClsKey u.toUInt16 d.asU8 scale n =
      { t with
        keyPress := if d = .negative then t.keyPress
          else Function.update t.keyPress u (decide (scale < lockScalePass))
        keyRelease := if d = .positive then t.keyRelease
          else Function.update t.keyRelease u (decide (scale < lockScalePass)) } := by
  have hall : u.toUInt16 ≠ lockIdAll := by
    intro h
    have hkey : Field.address (.key u) = Field.address .keys := Prod.ext rfl h
    cases Field.address_injective hkey
  have hu' : ¬u < 0x04 := UInt8.not_lt.mpr hu
  unfold LockTable.apply
  rw [if_neg (fun h => absurd h.1 (Int16.not_lt.mpr hs))]
  simp only [show lockClsKey ≠ lockClsAxis by decide, show lockClsKey ≠ lockClsBtn by decide,
    if_true, if_false, if_neg hall, UInt8.toUInt8_toUInt16, if_neg hu']
  cases d with
  | both | positive | negative => rfl
  | with_ | against => cases hd

theorem apply_mediaAll (hs : 0 ≤ scale) :
    t.apply lockClsMedia lockIdAll d.asU8 scale n =
      { t with mediaBlanket := decide (scale < lockScalePass) } := by
  unfold LockTable.apply
  rw [if_neg (fun h => absurd h.1 (Int16.not_lt.mpr hs))]
  simp only [show lockClsMedia ≠ lockClsAxis by decide, show lockClsMedia ≠ lockClsBtn by decide,
    show lockClsMedia ≠ lockClsKey by decide, if_true, if_false]

theorem apply_media (id : MediaId) (hs : 0 ≤ scale) :
    t.apply lockClsMedia id.val d.asU8 scale n =
      { t with media := if scale < lockScalePass
          then (if id.val ∈ t.media then t.media else SlotArray.take 0 id.val t.media)
          else SlotArray.release 0 id.val t.media } := by
  unfold LockTable.apply
  rw [if_neg (fun h => absurd h.1 (Int16.not_lt.mpr hs))]
  simp only [show lockClsMedia ≠ lockClsAxis by decide, show lockClsMedia ≠ lockClsBtn by decide,
    show lockClsMedia ≠ lockClsKey by decide, if_true, if_false, if_neg id.property.2,
    if_pos id.property.1]
  by_cases hon : scale < lockScalePass
  · by_cases hid : id.val ∈ t.media
    · simp only [hon, hid, not_true, if_false, if_true]
    · simp only [hon, hid, not_true, if_false, if_true, not_false_eq_true]
      rfl
  · simp only [hon, not_false_eq_true, if_true, if_false]
    rfl

theorem Field.address_ne_blanket (f : Field) :
    ¬(f.address.1 = lockClsBtn ∧ f.address.2 = lockIdAll) := by
  rintro ⟨hc, hi⟩
  cases f with
  | button b =>
    have := congrArg UInt16.toNat hi
    simp only [Field.address, UInt16.toNat_ofNat'] at this
    have : b.val % 65536 = 65535 := this
    omega
  | axis => exact absurd (show lockClsAxis = lockClsBtn from hc) (by decide)
  | keys | key => exact absurd (show lockClsKey = lockClsBtn from hc) (by decide)
  | mediaAll | media => exact absurd (show lockClsMedia = lockClsBtn from hc) (by decide)

theorem setMouse_axis (a : Fin 4) (g : Field) :
    boxRow (t.setMouse (axisTarget a) d.asU8 scale) g =
      if g = .axis a then (boxRow t g).write d.asU8 scale else boxRow t g := by
  cases g with
  | axis b =>
    by_cases h : b = a
    · subst h
      simp only [boxRow, LockTable.setMouse, Function.update_self, if_true, slotValue_axis]
    · simp [boxRow, LockTable.setMouse, axisTarget_injective.ne h, h]
  | button b => simp [boxRow, LockTable.setMouse, (axisTarget_ne_buttonTarget a b).symm]
  | keys | key | mediaAll | media => rfl

theorem setMouse_button (hd : d.isRelative = false) (b : Fin 16) (g : Field) :
    boxRow (t.setMouse (buttonTarget b) d.asU8 scale) g =
      if g = .button b then (boxRow t g).write d.asU8 (momentaryScale lockClsBtn scale)
      else boxRow t g := by
  cases g with
  | axis a => simp [boxRow, LockTable.setMouse, axisTarget_ne_buttonTarget]
  | button a =>
    by_cases h : a = b
    · subst h
      simp only [boxRow, LockTable.setMouse, Function.update_self, if_true, slotValue_button a d hd]
    · simp [boxRow, LockTable.setMouse, buttonTarget_injective.ne h, h]
  | keys | key | mediaAll | media => rfl

theorem setMouseAll_buttons (hd : d.isRelative = false) (g : Field) :
    boxRow (t.setMouseAll (((List.finRange 16).filter fun b => b.val < n.toNat).map buttonTarget)
        d.asU8 scale) g =
      if ∃ b : Fin 16, g = .button b ∧ b.val < n.toNat then
        (boxRow t g).write d.asU8 (momentaryScale lockClsBtn scale)
      else boxRow t g := by
  have hn : (((List.finRange 16).filter fun b => b.val < n.toNat).map buttonTarget).Nodup :=
    ((List.nodup_finRange 16).filter _).map buttonTarget_injective
  cases g with
  | axis a => simp [boxRow, setMouseAll_mouse _ hn, (axisTarget_ne_buttonTarget a _).symm]
  | button b =>
    by_cases hb : b.val < n.toNat
    · simp only [boxRow, setMouseAll_mouse _ hn, slotValue_button b d hd]
      simp [buttonTarget_injective.eq_iff, hb]
    · simp [boxRow, setMouseAll_mouse _ hn, buttonTarget_injective.eq_iff, hb]
  | keys | key | mediaAll | media => rw [setMouseAll_rest]; simp [boxRow]

theorem blanket_bits {kb : UInt8} (hkb : kb.toNat < 4) (hd : d.isRelative = false) (on : Bool) :
    let kb' := if on then kb ||| (slotMask d.asU8 &&& 0x03) else kb &&& ~~~(slotMask d.asU8 &&& 0x03)
    kb'.toNat < 4 ∧
      kb'.toNat.testBit 0 = (if d = .negative then kb.toNat.testBit 0 else on) ∧
      kb'.toNat.testBit 1 = (if d = .positive then kb.toNat.testBit 1 else on) := by
  obtain ⟨k, rfl⟩ : ∃ k : Fin 4, kb = UInt8.ofNat k := ⟨⟨kb.toNat, hkb⟩, by simp⟩
  clear hkb
  revert k on
  cases d with
  | both | positive | negative => decide
  | with_ | against => cases hd

theorem boxRow_keys (hkb : t.keyBlanket.toNat < 4) (hd : d.isRelative = false) (hs : 0 ≤ scale)
    (g : Field) :
    boxRow (t.apply lockClsKey lockIdAll d.asU8 scale n) g =
      if g = .keys then (boxRow t g).write d.asU8 (momentaryScale lockClsKey scale)
      else boxRow t g := by
  have hbits := blanket_bits hkb hd (decide (scale < lockScalePass))
  simp only [decide_eq_true_eq] at hbits
  rw [apply_keys hs hd, momentaryScale_eq_edge (by decide)]
  cases g with
  | keys =>
    simp only [boxRow, hbits.2.1, hbits.2.2]
    exact (edges_write hd _ _ _).symm
  | axis | button | key | mediaAll | media => rfl

theorem boxRow_key {u : UInt8} (hu : 0x04 ≤ u) (hd : d.isRelative = false) (hs : 0 ≤ scale)
    (g : Field) :
    boxRow (t.apply lockClsKey u.toUInt16 d.asU8 scale n) g =
      if g = .key u then (boxRow t g).write d.asU8 (momentaryScale lockClsKey scale)
      else boxRow t g := by
  rw [apply_key hu hs hd, momentaryScale_eq_edge (by decide)]
  cases g with
  | key v =>
    by_cases h : v = u
    · subst h
      simp only [boxRow, if_true, edges_write hd]
      congr 1
      · split <;> simp
      · split <;> simp
    · simp only [boxRow, Field.key.injEq, h, if_false]
      congr 1
      · split <;> simp [h]
      · split <;> simp [h]
  | axis | button | keys | mediaAll | media => rfl

theorem boxRow_mediaAll (hs : 0 ≤ scale) (g : Field) :
    boxRow (t.apply lockClsMedia lockIdAll Types.Direction.both.asU8 scale n) g =
      if g = .mediaAll then (boxRow t g).write Types.Direction.both.asU8
        (momentaryScale lockClsMedia scale)
      else boxRow t g := by
  rw [apply_mediaAll hs, momentaryScale_eq_edge (by decide)]
  cases g with
  | mediaAll =>
    simp only [boxRow, if_true, edges_write (d := .both) rfl]
    rfl
  | axis | button | keys | key | media => rfl

/-- What a media command leaves in the slot array. -/
theorem mem_media_apply (id : MediaId) (hs : 0 ≤ scale)
    (hroom : scale < lockScalePass → id.val ∈ t.media ∨ 0 ∈ t.media) {m : UInt16} (hm : m ≠ 0) :
    m ∈ (t.apply lockClsMedia id.val d.asU8 scale n).media ↔
      if m = id.val then scale < lockScalePass else m ∈ t.media := by
  rw [apply_media id hs]
  by_cases hon : scale < lockScalePass
  · by_cases hid : id.val ∈ t.media
    · by_cases h : m = id.val
      · subst h
        simp [hon, hid]
      · simp [hon, hid, h]
    · have hfree := (hroom hon).resolve_left hid
      by_cases h : m = id.val
      · subst h
        simp [hon, hid, SlotArray.mem_take hfree hm hm]
      · simp [hon, hid, h, SlotArray.mem_take hfree id.property.1 hm]
  · by_cases h : m = id.val
    · subst h
      simp [hon, SlotArray.mem_release hm]
    · simp [hon, h, SlotArray.mem_release hm]

theorem boxRow_media (id : MediaId) (hs : 0 ≤ scale)
    (hroom : scale < lockScalePass → id.val ∈ t.media ∨ 0 ∈ t.media) (g : Field) :
    boxRow (t.apply lockClsMedia id.val Types.Direction.both.asU8 scale n) g =
      if g = .media id then (boxRow t g).write Types.Direction.both.asU8
        (momentaryScale lockClsMedia scale)
      else boxRow t g := by
  have hmem : ∀ m : MediaId, _ := fun m =>
    mem_media_apply (t := t) (d := .both) (n := n) id hs hroom m.property.1
  rw [momentaryScale_eq_edge (by decide)]
  cases g with
  | media m =>
    simp only [boxRow, List.contains_eq_mem, hmem, Field.media.injEq]
    by_cases h : m = id
    · subst h
      simp only [if_true, edges_write (d := .both) rfl]
      rfl
    · simp only [h, if_false, Subtype.ext_iff.not.mp h]
  | axis | button | keys | key | mediaAll =>
    rw [apply_media id hs]
    rfl

theorem Agree.single {W : Rows} {t' : LockTable} {f : Field} {dir : UInt8} (h : Agree W t)
    (ht : ∀ g, boxRow t' g = if g = f then
      (boxRow t g).write dir (momentaryScale f.address.1 scale) else boxRow t g) :
    Agree (Writes.writeAll act W (rowWrites n.toNat ((f.address.1, f.address.2, dir), scale))) t' := by
  intro g
  rw [writeAll_rowWrites_single _ _ _ f.address_ne_blanket, ht g]
  by_cases hg : g = f
  · subst hg
    rw [if_pos rfl, if_pos rfl, h g]
  · rw [if_neg hg, if_neg (Field.address_injective.ne hg), h g]

theorem Agree.blanket {W : Rows} (hn : n ≤ maxButtons) (hs : 0 ≤ scale) (hd : d.isRelative = false)
    (h : Agree W t) :
    Agree (Writes.writeAll act W (rowWrites n.toNat ((lockClsBtn, lockIdAll, d.asU8), scale)))
      (t.apply lockClsBtn lockIdAll d.asU8 scale n) := by
  have hn16 := UInt8.le_iff_toNat_le.mp hn
  intro g
  rw [apply_buttons hn hs, setMouseAll_buttons hd, h g,
    writeAll_rowWrites_blanket hn16 _ _ ⟨rfl, rfl⟩]
  by_cases hg : ∃ b : Fin 16, g = .button b ∧ b.val < n.toNat
  · have hmem : g.address ∈ buttonAddresses n.toNat := by
      obtain ⟨b, rfl, hbn⟩ := hg
      exact List.mem_map.mpr ⟨b.val, List.mem_range.mpr hbn, rfl⟩
    rw [if_pos hg, if_pos hmem]
  · have hmem : g.address ∉ buttonAddresses n.toNat := by
      intro hm
      obtain ⟨b, hbn, hba⟩ := List.mem_map.mp hm
      have hbn := List.mem_range.mp hbn
      exact hg ⟨⟨b, Nat.lt_of_lt_of_le hbn hn16⟩, Field.address_injective hba.symm, hbn⟩
    rw [if_neg hg, if_neg hmem]

/-- The box does to its rows exactly what the command says. -/
theorem Agree.apply {W : Rows} {c : Command} (hn : n ≤ maxButtons) (hwf : BoxWf t)
    (hc : Accepted n.toNat c) (hroom : Room t c) (h : Agree W t) :
    Agree (Writes.writeAll act W (rowWrites n.toNat c)) (applyCommand n t c) := by
  unfold applyCommand
  cases hc with
  | axis a d scale =>
    refine h.single (f := .axis a) fun g => ?_
    rw [apply_axis, setMouse_axis]
    rfl
  | buttons hd hs => exact h.blanket hn hs hd
  | @button b _ _ hb hd hs =>
    refine h.single (f := .button b) fun g => ?_
    rw [apply_button hb hn hs, setMouse_button hd]
    rfl
  | keys hd hs => exact h.single (f := .keys) (boxRow_keys hwf.edge_bits hd hs)
  | @key u _ _ hu hd hs => exact h.single (f := .key u) (boxRow_key hu hd hs)
  | mediaAll hs => exact h.single (f := .mediaAll) (boxRow_mediaAll hs)
  | @media id _ hs =>
    exact h.single (f := .media id) (boxRow_media id hs (hroom rfl id.property.2))

theorem BoxWf.default : BoxWf .default where
  edge_bits := by decide
  media_length := rfl
  media_nodup := by decide
  media_granular := by decide

theorem BoxWf.apply_media {id : MediaId} (hwf : BoxWf t) (hs : 0 ≤ scale)
    (hroom : scale < lockScalePass → id.val ∈ t.media ∨ 0 ∈ t.media) :
    BoxWf (t.apply lockClsMedia id.val d.asU8 scale n) := by
  have hgran : lockIdAll ∉ (t.apply lockClsMedia id.val d.asU8 scale n).media := by
    rw [mem_media_apply id hs hroom (by decide), if_neg (Ne.symm id.property.2)]
    exact hwf.media_granular
  rw [Locks.apply_media id hs] at hgran ⊢
  refine ⟨hwf.edge_bits, ?_, ?_, hgran⟩
  · simp only [← hwf.media_length]
    split
    · split
      · rfl
      · exact SlotArray.length_take _ _ _
    · exact SlotArray.length_release _ _ _
  · simp only
    split
    next hon =>
      split
      next => exact hwf.media_nodup
      next hid =>
        exact SlotArray.nodup_held_take hwf.media_nodup ((hroom hon).resolve_left hid)
          id.property.1 hid
    next => exact SlotArray.nodup_held_release hwf.media_nodup

theorem BoxWf.apply {c : Command} (hwf : BoxWf t) (hn : n ≤ maxButtons) (hc : Accepted n.toNat c)
    (hroom : Room t c) : BoxWf (applyCommand n t c) := by
  unfold applyCommand
  cases hc with
  | axis a d scale =>
    rw [apply_axis]
    exact { hwf with }
  | buttons hd hs =>
    rw [apply_buttons hn hs, setMouseAll_rest]
    exact { hwf with }
  | button hb hd hs =>
    rw [apply_button hb hn hs]
    exact { hwf with }
  | @keys d scale hd hs =>
    have hbits := blanket_bits hwf.edge_bits hd (decide (scale < lockScalePass))
    simp only [decide_eq_true_eq] at hbits
    rw [apply_keys hs hd]
    exact { hwf with edge_bits := hbits.1 }
  | key hu hd hs =>
    rw [apply_key hu hs hd]
    exact { hwf with }
  | mediaAll hs =>
    rw [apply_mediaAll hs]
    exact { hwf with }
  | @media id _ hs => exact hwf.apply_media (d := .both) hs (hroom rfl id.property.2)

/-- Two well-formed tables with the same rows are the same table, media slot order apart. -/
structure SameTable (t t' : LockTable) : Prop where
  mouse : t.mouse = t'.mouse
  keyBlanket : t.keyBlanket = t'.keyBlanket
  keyPress : t.keyPress = t'.keyPress
  keyRelease : t.keyRelease = t'.keyRelease
  media : t.media.Perm t'.media
  mediaBlanket : t.mediaBlanket = t'.mediaBlanket

theorem edges_inj {p r p' r' : Bool} (h : edges p r = edges p' r') : p = p' ∧ r = r' := by
  revert h
  cases p <;> cases r <;> cases p' <;> cases r' <;> decide

theorem SameTable.of_rows {t' : LockTable} (hwf : BoxWf t) (hwf' : BoxWf t')
    (h : ∀ f, boxRow t f = boxRow t' f) : SameTable t t' where
  mouse := by
    funext g
    induction g using Fin.addCases with
    | left a => exact h (.axis a)
    | right b => exact h (.button b)
  keyBlanket := by
    obtain ⟨h0, h1⟩ := edges_inj (h .keys)
    apply UInt8.toNat_inj.mp
    apply Nat.eq_of_testBit_eq
    intro i
    match i with
    | 0 => exact h0
    | 1 => exact h1
    | i + 2 =>
      have hi : 4 ≤ 2 ^ (i + 2) := Nat.pow_le_pow_right (n := 2) (by decide) (Nat.le_add_left 2 i)
      rw [Nat.testBit_lt_two_pow (Nat.lt_of_lt_of_le hwf.edge_bits hi),
        Nat.testBit_lt_two_pow (Nat.lt_of_lt_of_le hwf'.edge_bits hi)]
  keyPress := funext fun u => (edges_inj (h (.key u))).1
  keyRelease := funext fun u => (edges_inj (h (.key u))).2
  media := by
    refine SlotArray.perm_of_held hwf.media_nodup hwf'.media_nodup
      (hwf.media_length.trans hwf'.media_length.symm) fun m hm => ?_
    by_cases hall : m = lockIdAll
    · subst hall
      exact iff_of_false hwf.media_granular hwf'.media_granular
    · simpa using (edges_inj (h (.media ⟨m, hm, hall⟩))).1
  mediaBlanket := (edges_inj (h .mediaAll)).1

end Medius.Locks
