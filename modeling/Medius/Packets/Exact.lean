import Medius.Packets.Laws

/-! The host accepts a packet trigger exactly if the box stores it. -/

namespace Medius.Packets

open Protocol Link Mock Mock.PacketTriggers Medius.Types

section Frame

variable {class_ : UInt8} {id : UInt16} {dir action flags slen : UInt8} {matchBytes mask : List UInt8}
  {imperfect : Bool}

theorem of_addressable (h : addressable class_ dir matchBytes mask) :
    isSurface class_ ∧ dir ≤ lockDirNeg ∧ matchBytes.length ≤ pktMatchMax ∧
      mask.length = matchBytes.length ∧
      ¬((dir = lockDirNeg ∧ (class_ = catchClsHidIn ∨ class_ = catchClsEmit)) ∨
        (dir = lockDirPos ∧ class_ = catchClsHidOut)) ∧
      ¬(matchBytes.zip mask).any fun p => p.1 &&& ~~~p.2 ≠ 0 := by
  unfold addressable at h
  dsimp only at h
  split at h
  · cases h
  next hshape =>
    split at h
    · cases h
    next hflow =>
      simp only [not_or, not_not, not_lt, UInt8.not_lt] at hshape
      obtain ⟨hsurface, hdir, hlen, hmask⟩ := hshape
      refine ⟨hsurface, hdir, hlen, hmask, by simpa using hflow, ?_⟩
      simpa using h

/-- The row a set stores. -/
def setRow (class_ : UInt8) (id : UInt16) (dir action flags slen : UInt8)
    (matchBytes mask : List UInt8) : MockPacketTrigger where
  class_ := class_
  id := id
  dir := dir
  action := action
  flags := flags &&& (clipTrigFConsume ||| clipTrigFRun)
  slen := slen
  matchBytes := matchBytes
  mask := mask
  hits := 0
  live := false

/-- An empty set has room for any match. -/
theorem set_empty : PacketTriggers.set [] class_ id dir action flags slen matchBytes mask imperfect =
    if addressable class_ dir matchBytes mask ∧ flags &&& clipTrigFPresent ≠ 0 ∧
      admissible class_ id dir action flags slen mask imperfect
    then some ([setRow class_ id dir action flags slen matchBytes mask], 0) else none := by
  unfold PacketTriggers.set
  dsimp only
  by_cases haddr : addressable class_ dir matchBytes mask
  · obtain ⟨-, -, hlen, -⟩ := of_addressable haddr
    simp only [pktMatchMax] at hlen
    rw [if_neg (not_not.mpr haddr)]
    by_cases hp : flags &&& clipTrigFPresent = 0
    · simp [hp]
    · rw [if_neg hp]
      by_cases hadm : admissible class_ id dir action flags slen mask imperfect
      · have hroom : ¬(([] : Rows).length ≥ clipPktTrigMax ∨
            matchUsed [] + matchBytes.length > clipPktMatchPool) := by
          simp only [List.length_nil, matchUsed, List.map_nil, List.sum_nil, clipPktTrigMax,
            clipPktMatchPool]
          omega
        rw [if_neg (not_not.mpr hadm)]
        simp only [List.findIdx?_nil]
        rw [if_neg hroom]
        exact (if_pos ⟨haddr, hp, hadm⟩).symm
      · rw [if_pos hadm, if_neg fun h => hadm h.2.2]
  · rw [if_pos haddr, if_neg fun h => haddr h.1]

theorem mem_applyClipTriggerFrame {row : MockPacketTrigger} :
    (row ∈ applyClipTriggerFrame [] imperfect
        (clipPacketTriggerPayload class_ id dir action flags slen matchBytes mask) ∧
      row.matchBytes = matchBytes ∧ row.mask = mask) ↔
    addressable class_ dir matchBytes mask ∧ flags &&& clipTrigFPresent ≠ 0 ∧
      admissible class_ id dir action flags slen mask imperfect ∧
      row = setRow class_ id dir action flags slen matchBytes mask := by
  simp only [clipPacketTriggerPayload, clipTriggerPayload, toLeBytes, List.cons_append,
    List.nil_append, applyClipTriggerFrame, fromLeBytes_toLeBytes, set_empty]
  constructor
  · rintro ⟨hrow, hmatch, hmask⟩
    by_cases hsurface : isSurface class_
    · rw [if_pos hsurface] at hrow
      split at hrow
      · cases hrow
      · split at hrow
        next h =>
          obtain rfl := List.mem_singleton.mp hrow
          simp only [setRow] at hmatch hmask
          rw [hmatch, hmask] at h
          refine ⟨h.1, h.2.1, h.2.2, ?_⟩
          rw [hmatch, hmask]
        next => cases hrow
    · rw [if_neg hsurface] at hrow
      split at hrow <;> cases hrow
  · rintro ⟨haddr, hp, hadm, rfl⟩
    obtain ⟨hsurface, -, hlen, hmask, -⟩ := of_addressable haddr
    simp only [pktMatchMax] at hlen
    have hm : (UInt8.ofNat matchBytes.length).toNat = matchBytes.length := by
      rw [UInt8.toNat_ofNat']
      omega
    have hbody : ¬(matchBytes ++ mask).length < 2 * matchBytes.length := by
      rw [List.length_append]
      omega
    have htake : ((matchBytes ++ mask).drop matchBytes.length).take matchBytes.length = mask := by
      rw [List.drop_left, ← hmask, List.take_length]
    rw [hm, List.take_left, htake, if_pos hsurface, if_neg hbody, if_pos ⟨haddr, hp, hadm⟩]
    exact ⟨List.mem_singleton_self _, rfl, rfl⟩

end Frame

theorem validatePacketKey_iff (t : ClipPacketTrigger) : Device.validatePacketKey t = .ok () ↔
    addressable t.class_.asU8 t.direction.asU8 t.matchBytes t.mask := by
  refine ⟨fun h => (validKey_of_validate h).address, fun h => ?_⟩
  obtain ⟨hsurface, hdir, hlen, hmask, hflow, hbits⟩ := of_addressable h
  rw [isSurface_asU8] at hsurface
  have hrel := Direction.asU8_le_neg.mp hdir
  unfold Device.validatePacketKey
  rw [if_neg (not_not.mpr hsurface), if_neg (Bool.eq_false_iff.mp hrel),
    if_neg (not_not.mpr hmask.symm), if_neg (Nat.not_lt.mpr hlen),
    if_neg fun hc => hflow ((carries_iff hsurface hrel).mp hc), if_neg hbits]

theorem validatePacketTrigger_iff (t : ClipPacketTrigger) :
    Device.validatePacketTrigger t = .ok () ↔
      addressable t.class_.asU8 t.direction.asU8 t.matchBytes t.mask ∧
        admissible t.class_.asU8 t.id t.direction.asU8 t.action.asU8 (clipTrigFPresent ||| t.flags)
          t.selectorLen t.mask true := by
  refine ⟨fun h => ⟨(validKey_of_trigger h).address, admissible_of_validate h fun _ => rfl⟩, ?_⟩
  rintro ⟨haddr, hadm⟩
  obtain ⟨-, -, -, hmask, -⟩ := of_addressable haddr
  unfold Device.validatePacketTrigger
  rw [(validatePacketKey_iff t).mpr haddr]
  unfold admissible at hadm
  dsimp only at hadm ⊢
  split at hadm
  · cases hadm
  · split at hadm
    · cases hadm
    next hconsume =>
      rw [if_neg fun hc => hconsume ⟨(flags_consume t).mpr hc.1, .inl ((asU8_eq_control _).mpr hc.2)⟩]
      split at hadm
      next hrun =>
        have honce := (flags_run t).mp hrun
        rw [Bool.not_eq_true', decide_eq_false_iff_not, asU8_eq_control, Direction.asU8_eq_both]
          at hadm
        simp only [not_or] at hadm
        obtain ⟨hctl, hid, hboth, hcondition⟩ := hadm
        rw [if_neg (not_not.mpr honce), if_neg (by rintro (h | h | h); exacts [hctl h, hid h, hboth h])]
        have hpast : ¬t.selectorLen.toNat ≥ t.matchBytes.length := by
          intro hle
          rw [List.drop_eq_nil_of_le (hmask.trans_le hle)] at hcondition
          exact hcondition rfl
        rw [if_neg hpast, if_neg hcondition]
      next hrun =>
        rw [if_pos fun honce => hrun ((flags_run t).mpr honce), if_pos (of_decide_eq_true hadm)]

theorem length_payload {t : ClipPacketTrigger}
    (h : addressable t.class_.asU8 t.direction.asU8 t.matchBytes t.mask) (action flags slen : UInt8) :
    (clipPacketTriggerPayload t.class_.asU8 t.id t.direction.asU8 action flags slen t.matchBytes
      t.mask).length ≤ maxPayload := by
  obtain ⟨-, -, hlen, hmask, -⟩ := of_addressable h
  simp only [clipPacketTriggerPayload, clipTriggerPayload, List.length_append, List.length_cons,
    length_toLeBytes, List.length_nil, maxPayload, pktMatchMax] at hlen ⊢
  omega

/-- The box, its set empty and the opt-in on, stores a trigger under the key of `t`. -/
def Stores (t : ClipPacketTrigger) (action flags slen : UInt8) : Prop :=
  let frame := clipPacketTriggerPayload t.class_.asU8 t.id t.direction.asU8 action flags slen
    t.matchBytes t.mask
  frame.length ≤ maxPayload ∧
    ∃ row ∈ applyClipTriggerFrame [] true frame, row.key = clipPacketKey t

theorem Stores.addressable {t : ClipPacketTrigger} {action flags slen : UInt8}
    (h : Stores t action flags slen) :
    addressable t.class_.asU8 t.direction.asU8 t.matchBytes t.mask := by
  obtain ⟨-, row, hrow, hkey⟩ := h
  simp only [MockPacketTrigger.key, clipPacketKey, Prod.mk.injEq] at hkey
  exact (mem_applyClipTriggerFrame.mp ⟨hrow, hkey.2.2.2⟩).1

theorem stores_present {t : ClipPacketTrigger}
    (h : PacketTriggers.addressable t.class_.asU8 t.direction.asU8 t.matchBytes t.mask) :
    Stores t clipOpStart clipTrigFPresent 0 := by
  obtain ⟨hrow, -⟩ := mem_applyClipTriggerFrame.mpr
    ⟨h, show clipTrigFPresent &&& clipTrigFPresent ≠ 0 by decide,
      show admissible t.class_.asU8 t.id t.direction.asU8 clipOpStart clipTrigFPresent 0 t.mask true by
        rfl, rfl⟩
  exact ⟨length_payload h _ _ _, _, hrow, rfl⟩

/-- A trigger is accepted if the box stores just it; a key, if the box stores anything under it,
with a selector or without. -/
theorem validate_exact (t : ClipPacketTrigger) :
    (Device.validatePacketTrigger t = .ok () ↔
      (bindPacketPayload t).length ≤ maxPayload ∧
        ∃ row ∈ applyClipTriggerFrame [] true (bindPacketPayload t),
          row.class_ = t.class_.asU8 ∧ row.id = t.id ∧ row.dir = t.direction.asU8 ∧
            row.action = t.action.asU8 ∧ row.flags = t.flags ∧ row.slen = t.selectorLen ∧
            row.matchBytes = t.matchBytes ∧ row.mask = t.mask) ∧
      (Device.validatePacketKey t = .ok () ↔ ∃ action flags, Stores t action flags 0) ∧
      (Device.validatePacketKey t = .ok () ↔ ∃ action flags slen, Stores t action flags slen) := by
  refine ⟨?_, ?_, ?_⟩
  · rw [validatePacketTrigger_iff]
    constructor
    · rintro ⟨haddr, hadm⟩
      obtain ⟨hrow, -⟩ := mem_applyClipTriggerFrame.mpr ⟨haddr, flags_present t, hadm, rfl⟩
      exact ⟨length_payload haddr _ _ _, _, hrow, rfl, rfl, rfl, rfl, flags_kept t, rfl, rfl, rfl⟩
    · rintro ⟨-, row, hrow, -, -, -, -, -, -, hmatch, hmask⟩
      obtain ⟨haddr, -, hadm, -⟩ := mem_applyClipTriggerFrame.mp ⟨hrow, hmatch, hmask⟩
      exact ⟨haddr, hadm⟩
  · rw [validatePacketKey_iff]
    exact ⟨fun h => ⟨_, _, stores_present h⟩, fun ⟨_, _, h⟩ => h.addressable⟩
  · rw [validatePacketKey_iff]
    exact ⟨fun h => ⟨_, _, _, stores_present h⟩, fun ⟨_, _, _, h⟩ => h.addressable⟩

end Medius.Packets
