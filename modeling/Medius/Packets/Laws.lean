import Medius.Device.Clip
import Medius.Lib.Bounded
import Medius.Mock.PacketTriggers

/-! The box's packet triggers as a bounded table: what one `CLIP_TRIGGER` frame does to it. -/

namespace Medius.Packets

open Protocol Link Mock Mock.PacketTriggers Medius.Types

/-- A trigger as the box holds it before a packet meets it. -/
def boxed (t : ClipPacketTrigger) : MockPacketTrigger where
  class_ := t.class_.asU8
  id := t.id
  dir := t.direction.asU8
  action := t.action.asU8
  flags := t.flags
  slen := t.selectorLen
  matchBytes := t.matchBytes
  mask := t.mask
  hits := 0
  live := false

@[simp] theorem key_boxed (t : ClipPacketTrigger) : (boxed t).key = clipPacketKey t := rfl

def Room (rows : Rows) (r : MockPacketTrigger) : Prop :=
  rows.length < clipPktTrigMax ∧ matchUsed rows + r.matchBytes.length ≤ clipPktMatchPool

instance (rows : Rows) (r : MockPacketTrigger) : Decidable (Room rows r) :=
  inferInstanceAs (Decidable (_ ∧ _))

theorem matchUsed_eq (rows : Rows) :
    matchUsed rows = ((rows.map MockPacketTrigger.key).map (·.2.2.2.1.length)).sum := by
  rw [List.map_map]
  rfl

theorem room_antitone : Keyed.RoomAntitone MockPacketTrigger.key Room := by
  rintro rows rows' a b hpre hk ⟨hlen, hused⟩
  have hle := hpre.length_le
  simp only [List.length_map] at hle
  have hsum : matchUsed rows ≤ matchUsed rows' := by
    rw [matchUsed_eq, matchUsed_eq]
    exact (hpre.sublist.map _).sum_le_sum fun _ _ => Nat.zero_le _
  have hbytes : a.matchBytes = b.matchBytes := congrArg (·.2.2.2.1) hk
  refine ⟨Nat.lt_of_le_of_lt hle hlen, ?_⟩
  rw [hbytes]
  omega

/-- No packet has met it. -/
def Unmet (r : MockPacketTrigger) : Prop := r.hits = 0 ∧ r.live = false

theorem overwrite_eq {old new : MockPacketTrigger} (hold : Unmet old) (hnew : Unmet new)
    (hk : old.key = new.key) : old.overwrite new = new := by
  obtain ⟨hhits, hlive⟩ := hold
  obtain ⟨hhits', hlive'⟩ := hnew
  cases old
  cases new
  simp only [MockPacketTrigger.key, Prod.mk.injEq] at hk hhits hlive hhits' hlive'
  obtain ⟨rfl, rfl, rfl, rfl, rfl⟩ := hk
  subst hhits hlive hhits' hlive'
  unfold MockPacketTrigger.overwrite
  split_ifs with h
  · rfl
  · simp only [ne_eq, not_not, Prod.mk.injEq] at h
    obtain ⟨rfl, rfl, rfl⟩ := h
    rfl

theorem flags_present (t : ClipPacketTrigger) :
    (clipTrigFPresent ||| t.flags) &&& clipTrigFPresent ≠ 0 := by
  unfold ClipPacketTrigger.flags
  cases t.consume <;> cases t.oncePerRun <;> decide

theorem flags_kept (t : ClipPacketTrigger) :
    (clipTrigFPresent ||| t.flags) &&& (clipTrigFConsume ||| clipTrigFRun) = t.flags := by
  unfold ClipPacketTrigger.flags
  cases t.consume <;> cases t.oncePerRun <;> decide

theorem flags_known (t : ClipPacketTrigger) : (clipTrigFPresent ||| t.flags) &&&
    ~~~(clipTrigFPresent ||| clipTrigFConsume ||| clipTrigFRun) = 0 := by
  unfold ClipPacketTrigger.flags
  cases t.consume <;> cases t.oncePerRun <;> decide

theorem flags_consume (t : ClipPacketTrigger) :
    (clipTrigFPresent ||| t.flags) &&& clipTrigFConsume ≠ 0 ↔ t.consume := by
  unfold ClipPacketTrigger.flags
  cases t.consume <;> cases t.oncePerRun <;> decide

theorem flags_run (t : ClipPacketTrigger) :
    (clipTrigFPresent ||| t.flags) &&& clipTrigFRun ≠ 0 ↔ t.oncePerRun := by
  unfold ClipPacketTrigger.flags
  cases t.consume <;> cases t.oncePerRun <;> decide

/-- Whether the box takes a bind's fields with this match and mask. -/
def takes (imperfect : Bool) (t : ClipPacketTrigger) (matchBytes mask : List UInt8) : Bool :=
  addressable t.class_.asU8 t.direction.asU8 matchBytes mask &&
    admissible t.class_.asU8 t.id t.direction.asU8 t.action.asU8 (clipTrigFPresent ||| t.flags)
      t.selectorLen mask imperfect

/-- The row a bind's frame offers the box, if the box takes its fields. -/
def offered (imperfect : Bool) (t : ClipPacketTrigger) : Option MockPacketTrigger :=
  let body := t.matchBytes ++ t.mask
  let mlen := (UInt8.ofNat t.matchBytes.length).toNat
  let matchBytes := body.take mlen
  let mask := (body.drop mlen).take mlen
  if isSurface t.class_.asU8 ∧ 2 * mlen ≤ body.length ∧ takes imperfect t matchBytes mask then
    some { boxed t with matchBytes := matchBytes, mask := mask }
  else none

theorem unmet_of_offered {imperfect : Bool} {t : ClipPacketTrigger} {r : MockPacketTrigger}
    (h : offered imperfect t = some r) : Unmet r := by
  unfold offered at h
  dsimp only at h
  split at h
  · obtain rfl := Option.some.inj h
    exact ⟨rfl, rfl⟩
  · cases h

/-- Where no packet has met a row, a set the box takes is one in a bounded table. -/
theorem set_eq {rows : Rows} (hrows : ∀ r ∈ rows, Unmet r) (imperfect : Bool)
    (t : ClipPacketTrigger) {matchBytes mask : List UInt8}
    (h : takes imperfect t matchBytes mask) :
    (PacketTriggers.set rows t.class_.asU8 t.id t.direction.asU8 t.action.asU8
      (clipTrigFPresent ||| t.flags) t.selectorLen matchBytes mask imperfect).elim rows Prod.fst =
      Keyed.setWithin MockPacketTrigger.key Room rows
        { boxed t with matchBytes := matchBytes, mask := mask } := by
  rw [takes, Bool.and_eq_true] at h
  obtain ⟨haddr, hadm⟩ := h
  unfold PacketTriggers.set Keyed.setWithin
  rw [if_neg (not_not.mpr haddr)]
  dsimp only
  rw [if_neg (flags_present t), if_neg (not_not.mpr hadm), flags_kept]
  cases hi : rows.findIdx? fun r =>
      decide (r.key = (t.class_.asU8, t.id, t.direction.asU8, matchBytes, mask)) with
  | some i =>
    have hpos : Keyed.position MockPacketTrigger.key rows
        ({ boxed t with matchBytes := matchBytes, mask := mask } : MockPacketTrigger).key =
          some i := hi
    rw [hpos]
    refine Keyed.modify_position MockPacketTrigger.key hpos fun r hr hk => ?_
    exact overwrite_eq (hrows r hr) ⟨rfl, rfl⟩ hk
  | none =>
    have hpos : Keyed.position MockPacketTrigger.key rows
        ({ boxed t with matchBytes := matchBytes, mask := mask } : MockPacketTrigger).key =
          none := hi
    rw [hpos]
    dsimp only
    split_ifs with hfull hroom hroom
    · exact absurd hroom (by simp only [Room]; omega)
    · rfl
    · rfl
    · exact absurd hroom (by simp only [Room, not_not]; omega)

theorem set_refused (rows : Rows) {imperfect : Bool} {t : ClipPacketTrigger}
    {matchBytes mask : List UInt8} (h : ¬takes imperfect t matchBytes mask) :
    (PacketTriggers.set rows t.class_.asU8 t.id t.direction.asU8 t.action.asU8
      (clipTrigFPresent ||| t.flags) t.selectorLen matchBytes mask imperfect).elim rows Prod.fst =
      rows := by
  rw [takes, Bool.and_eq_true] at h
  unfold PacketTriggers.set
  by_cases haddr : addressable t.class_.asU8 t.direction.asU8 matchBytes mask
  · rw [if_neg (not_not.mpr haddr)]
    dsimp only
    rw [if_neg (flags_present t), if_pos fun hadm => h ⟨haddr, hadm⟩]
    rfl
  · rw [if_pos haddr]
    rfl

theorem class_ne_any (c : TrafficClass) : c.asU8 ≠ clipCondAnyClass := by cases c <;> decide

/-- A bind's frame, whatever trigger it carries. -/
theorem applyClipTriggerFrame_bind {rows : Rows} (hrows : ∀ r ∈ rows, Unmet r) (imperfect : Bool)
    (t : ClipPacketTrigger) :
    applyClipTriggerFrame rows imperfect (bindPacketPayload t) =
      (offered imperfect t).elim rows (Keyed.setWithin MockPacketTrigger.key Room rows) := by
  simp only [bindPacketPayload, clipPacketTriggerPayload, clipTriggerPayload, toLeBytes,
    List.cons_append, List.nil_append, applyClipTriggerFrame, fromLeBytes_toLeBytes]
  unfold offered
  dsimp only
  by_cases hsurface : isSurface t.class_.asU8
  · rw [if_pos hsurface]
    split_ifs with hlen h h
    · exact absurd h.2.1 (Nat.not_le.mpr hlen)
    · rfl
    · exact set_eq hrows imperfect t h.2.2
    · exact set_refused rows fun ht => h ⟨hsurface, Nat.not_lt.mp hlen, ht⟩
  · rw [if_neg hsurface, if_neg fun hall => class_ne_any _ hall.1,
      if_neg fun hall => hsurface hall.1]
    rfl

/-- A key the box can hold. -/
structure ValidKey (t : ClipPacketTrigger) : Prop where
  surface : isSurface t.class_.asU8
  address : addressable t.class_.asU8 t.direction.asU8 t.matchBytes t.mask
  mask : t.mask.length = t.matchBytes.length
  matchLen : t.matchBytes.length ≤ pktMatchMax

theorem isSurface_asU8 (c : TrafficClass) : isSurface c.asU8 = ClipPacketTrigger.isSurface c := by
  cases c <;> decide

/-- The host and the box agree on which flows a class has. -/
theorem carries_iff {c : TrafficClass} (hc : ClipPacketTrigger.isSurface c) {d : Direction}
    (hd : d.isRelative = false) : d ≠ .both ∧ ¬Device.classCarries c d ↔
      (d.asU8 = lockDirNeg ∧ (c.asU8 = catchClsHidIn ∨ c.asU8 = catchClsEmit)) ∨
        (d.asU8 = lockDirPos ∧ c.asU8 = catchClsHidOut) := by
  revert hc hd
  cases c <;> cases d <;> decide

theorem validKey_of_validate {t : ClipPacketTrigger} (h : Device.validatePacketKey t = .ok ()) :
    ValidKey t := by
  unfold Device.validatePacketKey at h
  split at h
  · cases h
  next hsurface =>
    split at h
    · cases h
    next hrel =>
      split at h
      · cases h
      next hmask =>
        split at h
        · cases h
        next hlen =>
          split at h
          · cases h
          next hcarries =>
            split at h
            · cases h
            next hbits =>
              rw [not_not] at hsurface hmask
              have hrel := Bool.eq_false_iff.mpr hrel
              have hsurf := (isSurface_asU8 t.class_).trans hsurface
              refine ⟨hsurf, ?_, hmask.symm, Nat.not_lt.mp hlen⟩
              unfold addressable
              dsimp only
              rw [if_neg, if_neg, Bool.eq_false_iff.mpr hbits]
              · rfl
              · simpa using (carries_iff hsurface hrel).not.mp hcarries
              · have hdir := UInt8.not_lt.mpr (Direction.asU8_le_neg.mpr hrel)
                rintro (h | h | h | h)
                exacts [h hsurf, hdir h, hlen h, h hmask.symm]

theorem asU8_eq_control (c : TrafficClass) : c.asU8 = catchClsControl ↔ c = .control := by
  cases c <;> decide

theorem action_le (a : ClipAction) : ¬a.asU8 > clipOpToggle := by cases a <;> decide

theorem admissible_of_validate {t : ClipPacketTrigger}
    (h : Device.validatePacketTrigger t = .ok ()) {imperfect : Bool}
    (hc : t.consume → imperfect) :
    admissible t.class_.asU8 t.id t.direction.asU8 t.action.asU8 (clipTrigFPresent ||| t.flags)
      t.selectorLen t.mask imperfect := by
  unfold Device.validatePacketTrigger at h
  unfold admissible
  split at h
  · cases h
  · split at h
    · cases h
    next hconsume =>
      rw [if_neg (by rintro (ha | hf); exacts [action_le _ ha, hf (flags_known t)])]
      rw [if_neg (by
        rintro ⟨hf, hctl | himp⟩
        · exact hconsume ⟨(flags_consume t).mp hf, (asU8_eq_control _).mp hctl⟩
        · exact himp (hc ((flags_consume t).mp hf)))]
      split at h
      next honce =>
        rw [if_neg fun hf => honce ((flags_run t).mp hf)]
        split at h
        next hslen => exact decide_eq_true hslen
        next => cases h
      next honce =>
        rw [if_pos ((flags_run t).mpr (not_not.mp honce))]
        split at h
        · cases h
        next hstream =>
          split at h
          · cases h
          · split at h
            · cases h
            next hcondition =>
              rw [Bool.not_eq_true', decide_eq_false_iff_not, asU8_eq_control,
                Direction.asU8_eq_both]
              rintro (hctl | hid | hboth | hall)
              exacts [hstream (.inl hctl), hstream (.inr (.inl hid)),
                hstream (.inr (.inr hboth)), hcondition hall]

/-- The framed length tells the match from the mask behind it. -/
theorem ValidKey.framed {t : ClipPacketTrigger} (hkey : ValidKey t) :
    (UInt8.ofNat t.matchBytes.length).toNat = t.matchBytes.length ∧
      (t.matchBytes ++ t.mask).length = 2 * t.matchBytes.length ∧
      ((t.matchBytes ++ t.mask).drop t.matchBytes.length).take t.matchBytes.length = t.mask := by
  have hlen := hkey.matchLen
  refine ⟨?_, ?_, ?_⟩
  · rw [UInt8.toNat_ofNat']
    simp only [pktMatchMax] at hlen
    omega
  · rw [List.length_append, hkey.mask, Nat.two_mul]
  · rw [List.drop_left, ← hkey.mask, List.take_length]

theorem offered_eq {t : ClipPacketTrigger} (hkey : ValidKey t) {imperfect : Bool}
    (hadm : admissible t.class_.asU8 t.id t.direction.asU8 t.action.asU8
      (clipTrigFPresent ||| t.flags) t.selectorLen t.mask imperfect) :
    offered imperfect t = some (boxed t) := by
  obtain ⟨hm, hbody, hmask⟩ := hkey.framed
  unfold offered
  simp only [hm, hbody, hmask, List.take_left]
  rw [if_pos ⟨hkey.surface, Nat.le_refl _, by simp only [takes, hkey.address, hadm, Bool.and_self]⟩]
  rfl

/-- A removal's frame. -/
theorem applyClipTriggerFrame_unbind (rows : Rows) (imperfect : Bool) {t : ClipPacketTrigger}
    (hkey : ValidKey t) :
    applyClipTriggerFrame rows imperfect (clipPacketTriggerPayload t.class_.asU8 t.id
      t.direction.asU8 0 0 0 t.matchBytes t.mask) =
      Keyed.remove MockPacketTrigger.key rows (clipPacketKey t) := by
  obtain ⟨hm, hbody, hmask⟩ := hkey.framed
  simp only [clipPacketTriggerPayload, clipTriggerPayload, toLeBytes, List.cons_append,
    List.nil_append, applyClipTriggerFrame, fromLeBytes_toLeBytes, hm, hmask, List.take_left]
  rw [if_pos hkey.surface, if_neg (Nat.not_lt.mpr hbody.ge)]
  unfold PacketTriggers.set Keyed.remove Keyed.position
  rw [if_neg (not_not.mpr hkey.address)]
  dsimp only
  rw [if_pos (by decide)]
  change (Option.map _ (rows.findIdx? fun r => decide (r.key = clipPacketKey t))).elim _ _ = _
  cases rows.findIdx? fun r => decide (r.key = clipPacketKey t) with
  | none => rfl
  | some i => rfl

theorem dropConsuming_boxed (held : List ClipPacketTrigger) :
    dropConsuming (held.map boxed) = (held.filter fun t => !t.consume).map boxed := by
  unfold dropConsuming
  rw [List.filter_map]
  congr 2
  funext t
  change decide (t.flags &&& clipTrigFConsume = 0) = !t.consume
  unfold ClipPacketTrigger.flags
  cases t.consume <;> cases t.oncePerRun <;> rfl

/-- The box has room for these triggers. -/
def Fits (held : List ClipPacketTrigger) : Prop :=
  held.length ≤ clipPktTrigMax ∧ (held.map (·.matchBytes.length)).sum ≤ clipPktMatchPool

instance : DecidablePred Fits := fun _ => inferInstanceAs (Decidable (_ ∧ _))

theorem unmet_boxed {held : List ClipPacketTrigger} : ∀ r ∈ held.map boxed, Unmet r := by
  intro r hr
  obtain ⟨t, -, rfl⟩ := List.mem_map.mp hr
  exact ⟨rfl, rfl⟩

theorem validKey_of_trigger {t : ClipPacketTrigger}
    (h : Device.validatePacketTrigger t = .ok ()) : ValidKey t := by
  unfold Device.validatePacketTrigger at h
  split at h
  · cases h
  next hkey => exact validKey_of_validate hkey

theorem matchUsed_boxed (held : List ClipPacketTrigger) :
    matchUsed (held.map boxed) = (held.map (·.matchBytes.length)).sum := by
  rw [matchUsed, List.map_map]
  rfl

/-- With room for the trigger, its frame binds it on the box as the host does. -/
theorem applyClipTriggerFrame_boxed {held : List ClipPacketTrigger} {t : ClipPacketTrigger}
    (ht : Device.validatePacketTrigger t = .ok ()) {imperfect : Bool}
    (hc : t.consume → imperfect) (hfits : Fits (Keyed.setInPlace clipPacketKey held t)) :
    applyClipTriggerFrame (held.map boxed) imperfect (bindPacketPayload t) =
      (Keyed.setInPlace clipPacketKey held t).map boxed := by
  rw [applyClipTriggerFrame_bind unmet_boxed,
    offered_eq (validKey_of_trigger ht) (admissible_of_validate ht hc), Option.elim_some]
  have hmap : (Keyed.setInPlace clipPacketKey held t).map boxed =
      Keyed.setInPlace MockPacketTrigger.key (held.map boxed) (boxed t) :=
    (Keyed.setInPlace_map MockPacketTrigger.key boxed held t).symm
  rw [hmap]
  by_cases hmem : ∃ b ∈ held.map boxed, b.key = (boxed t).key
  · exact Keyed.setWithin_of_mem _ _ hmem
  · have hnew : ∀ b ∈ held, clipPacketKey b ≠ clipPacketKey t := fun b hb hk =>
      hmem ⟨boxed b, List.mem_map_of_mem hb, hk⟩
    refine Keyed.setWithin_of_room _ _ ?_
    rw [Keyed.setInPlace_of_not_mem _ hnew] at hfits
    obtain ⟨hlen, hsum⟩ := hfits
    rw [List.length_append, List.length_singleton] at hlen
    rw [List.map_append, List.sum_append, List.map_singleton, List.sum_singleton] at hsum
    refine ⟨?_, ?_⟩
    · rw [List.length_map]
      exact hlen
    · rw [matchUsed_boxed]
      exact hsum

theorem Fits.sublist {held held' : List ClipPacketTrigger} (h : Fits held')
    (hsub : held.Sublist held') : Fits held :=
  ⟨hsub.length_le.trans h.1, ((hsub.map _).sum_le_sum fun _ _ => Nat.zero_le _).trans h.2⟩

/-- Triggers bound one after another on a box that holds the ones before them. -/
theorem foldl_binds {imperfect : Bool} {post : List ClipPacketTrigger}
    (pre : List ClipPacketTrigger) (hkeyed : ((pre ++ post).map clipPacketKey).Nodup)
    (hfits : Fits (pre ++ post)) (hvalid : ∀ t ∈ post, Device.validatePacketTrigger t = .ok ())
    (hc : ∀ t ∈ post, t.consume → imperfect) :
    (post.map bindPacketPayload).foldl (fun rows p => applyClipTriggerFrame rows imperfect p)
      (pre.map boxed) = (pre ++ post).map boxed := by
  induction post generalizing pre with
  | nil => rw [List.append_nil]; rfl
  | cons t post ih =>
    have hassoc : pre ++ t :: post = (pre ++ [t]) ++ post := by simp
    have hnew : ∀ b ∈ pre, clipPacketKey b ≠ clipPacketKey t := fun b hb =>
      Keyed.ne_of_nodup_append _ hkeyed hb (by simp)
    have hset := Keyed.setInPlace_of_not_mem clipPacketKey hnew
    have hfit : Fits (Keyed.setInPlace clipPacketKey pre t) := by
      rw [hset]
      exact hfits.sublist (hassoc ▸ List.sublist_append_left _ _)
    rw [List.map_cons, List.foldl_cons,
      applyClipTriggerFrame_boxed (hvalid t (by simp)) (hc t (by simp)) hfit, hset]
    rw [hassoc] at hkeyed hfits ⊢
    exact ih (pre ++ [t]) hkeyed hfits (fun u hu => hvalid u (by simp [hu])) fun u hu =>
      hc u (by simp [hu])

theorem input_class (c : Types.Class) : ¬isSurface c.asU8 ∧ c.asU8 ≠ clipCondAnyClass := by
  cases c <;> decide

theorem applyClipTriggerFrame_input (rows : Rows) (imperfect : Bool) (t : ClipTrigger) :
    applyClipTriggerFrame rows imperfect (bindPayload t) = rows := by
  simp only [bindPayload, clipTriggerPayload, toLeBytes, List.cons_append, List.nil_append,
    applyClipTriggerFrame]
  obtain ⟨hsurface, hany⟩ := input_class t.on.class_
  refine (if_neg hsurface).trans (if_neg ?_)
  rintro ⟨h, -⟩
  exact hany h

theorem foldl_inputs (rows : Rows) (imperfect : Bool) (triggers : List ClipTrigger) :
    (triggers.map bindPayload).foldl (fun rows p => applyClipTriggerFrame rows imperfect p) rows =
      rows := by
  induction triggers with
  | nil => rfl
  | cons t triggers ih => rwa [List.map_cons, List.foldl_cons, applyClipTriggerFrame_input]

end Medius.Packets
