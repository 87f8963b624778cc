import Medius.Lib.Overwrite
import Medius.Locks.Box

/-! Lock commands sent twice: every place a command writes takes a value of the command's own, and
a media usage already held keeps its slot. -/

namespace Medius.Replay

open Protocol Link Mock Locks Overwrite

inductive Place
  | mouse (target : Fin lockTgtCount) (slot : Fin 4)
  | keyBlanket (bit : Fin 8)
  | keyPress (u : UInt8)
  | keyRelease (u : UInt8)
  | mediaBlanket

/-- What the table holds at a place; the media slots are apart. -/
def look (t : LockTable) : Place → Int16 ⊕ Bool
  | .mouse target slot => .inl (t.mouse target slot)
  | .keyBlanket bit => .inr (t.keyBlanket.toBitVec.getLsbD bit)
  | .keyPress u => .inr (t.keyPress u)
  | .keyRelease u => .inr (t.keyRelease u)
  | .mediaBlanket => .inr t.mediaBlanket

theorem eq_of_look {t t' : LockTable} (h : ∀ p, look t p = look t' p)
    (hmedia : t.media = t'.media) : t = t' := by
  have hblanket : t.keyBlanket = t'.keyBlanket :=
    UInt8.toBitVec_inj.mp <| BitVec.eq_of_getLsbD_eq fun bit hbit =>
      Sum.inr.inj (h (.keyBlanket ⟨bit, hbit⟩))
  have hmouse : t.mouse = t'.mouse :=
    funext fun g => funext fun i => Sum.inl.inj (h (.mouse g i))
  have hpress : t.keyPress = t'.keyPress := funext fun u => Sum.inr.inj (h (.keyPress u))
  have hrelease : t.keyRelease = t'.keyRelease := funext fun u => Sum.inr.inj (h (.keyRelease u))
  have hall : t.mediaBlanket = t'.mediaBlanket := Sum.inr.inj (h .mediaBlanket)
  cases t
  cases t'
  simp only at hblanket hmouse hpress hrelease hall hmedia
  subst hblanket hmouse hpress hrelease hall hmedia
  rfl

/-- A slot is left alone or given the command's value. -/
theorem slotValue_overwrites (target : Fin lockTgtCount) (dir : UInt8) (scale : Int16) (i : Fin 4) :
    (∀ old, LockTable.slotValue target dir scale i old = old) ∨
      ∃ v, ∀ old, LockTable.slotValue target dir scale i old = v := by
  unfold LockTable.slotValue
  dsimp only
  split_ifs <;> first | exact .inl fun _ => rfl | exact .inr ⟨_, fun _ => rfl⟩

theorem setMouse_overwrites (target : Fin lockTgtCount) (dir : UInt8) (scale : Int16) :
    Overwrites look fun t => t.setMouse target dir scale := by
  intro p
  cases p with
  | mouse g i =>
    by_cases hg : g = target
    · subst hg
      obtain h | ⟨v, h⟩ := slotValue_overwrites g dir scale i
      · exact .inl fun t => by simp [look, LockTable.setMouse, h]
      · exact .inr ⟨.inl v, fun t => by simp [look, LockTable.setMouse, h]⟩
    · exact .inl fun t => by simp [look, LockTable.setMouse, hg]
  | keyBlanket | keyPress | keyRelease | mediaBlanket => exact .inl fun _ => rfl

theorem setMouseAll_overwrites (targets : List (Fin lockTgtCount)) (dir : UInt8) (scale : Int16) :
    Overwrites look fun t => t.setMouseAll targets dir scale :=
  Overwrites.foldl fun target _ => setMouse_overwrites target dir scale

theorem keyBlanket_overwrites (m : UInt8) (on : Prop) [Decidable on] :
    Overwrites look fun t =>
      { t with keyBlanket := if on then t.keyBlanket ||| m else t.keyBlanket &&& ~~~m } := by
  intro p
  cases p with
  | keyBlanket bit =>
    by_cases hm : m.toBitVec[bit.val]
    · refine .inr ⟨.inr on, fun t => ?_⟩
      by_cases hon : on
      · simp [look, hon, hm]
      · simp [look, hon, hm]
    · refine .inl fun t => ?_
      by_cases hon : on
      · simp [look, hon, hm]
      · simp [look, hon, hm]
  | mouse | keyPress | keyRelease | mediaBlanket => exact .inl fun _ => rfl

theorem key_overwrites (u : UInt8) (press release on : Prop) [Decidable press] [Decidable release]
    [Decidable on] : Overwrites look fun t =>
      { t with
        keyPress := if press then Function.update t.keyPress u on else t.keyPress
        keyRelease := if release then Function.update t.keyRelease u on else t.keyRelease } := by
  intro p
  cases p with
  | keyPress w =>
    by_cases hw : press ∧ w = u
    · obtain ⟨hp, rfl⟩ := hw
      exact .inr ⟨.inr on, fun t => by simp [look, hp]⟩
    · refine .inl fun t => ?_
      simp only [look]
      split_ifs with hp
      · rw [Function.update_of_ne fun h => hw ⟨hp, h⟩]
      · rfl
  | keyRelease w =>
    by_cases hw : release ∧ w = u
    · obtain ⟨hp, rfl⟩ := hw
      exact .inr ⟨.inr on, fun t => by simp [look, hp]⟩
    · refine .inl fun t => ?_
      simp only [look]
      split_ifs with hp
      · rw [Function.update_of_ne fun h => hw ⟨hp, h⟩]
      · rfl
  | mouse | keyBlanket | mediaBlanket => exact .inl fun _ => rfl

/-- Every place but the media slots. -/
theorem apply_overwrites (class_ : UInt8) (id : UInt16) (dir : UInt8) (scale : Int16)
    (nButtons : UInt8) : Overwrites look fun t => t.apply class_ id dir scale nButtons := by
  have hid : Overwrites look fun t => t := .of_look fun _ _ => rfl
  unfold LockTable.apply
  dsimp only
  split
  · exact hid
  split
  · split
    · exact setMouseAll_overwrites _ dir scale
    split
    · exact setMouse_overwrites _ dir scale
    · exact hid
  split
  · split
    · exact setMouseAll_overwrites _ dir scale
    split
    · exact setMouse_overwrites _ dir scale
    · exact hid
  split
  · split
    · split
      · exact hid
      · exact keyBlanket_overwrites _ _
    split
    · exact hid
    · exact key_overwrites _ _ _ _
  split
  · split
    · intro p
      cases p with
      | mediaBlanket => exact .inr ⟨.inr (scale < lockScalePass), fun _ => rfl⟩
      | mouse | keyBlanket | keyPress | keyRelease => exact .inl fun _ => rfl
    split
    · split
      · exact .of_look fun t p => by cases p <;> rfl
      · exact .of_look fun t p => by split <;> cases p <;> rfl
    · exact hid
  · exact hid

/-- A media usage going to a slot, unless it has one. -/
def takeSlot (media : List UInt16) (id : UInt16) : List UInt16 :=
  if id ∉ media then media.replace 0 id else media

def TakesSlot (c : Command) : Prop :=
  c.1.1 = lockClsMedia ∧ c.1.2.1 ≠ lockIdAll ∧ c.1.2.1 ≠ 0 ∧ 0 ≤ c.2

instance : DecidablePred TakesSlot := fun _ => inferInstanceAs (Decidable (_ ∧ _))

/-- A command that frees no media slot. -/
def Blocks (c : Command) : Prop :=
  c.1.1 = lockClsMedia → c.1.2.1 ≠ lockIdAll → c.2 < lockScalePass

def mediaStep (media : List UInt16) (c : Command) : List UInt16 :=
  if TakesSlot c then takeSlot media c.1.2.1 else media

theorem setMouseAll_media (targets : List (Fin lockTgtCount)) (t : LockTable) (dir : UInt8)
    (scale : Int16) : (t.setMouseAll targets dir scale).media = t.media := by
  rw [setMouseAll_rest]

theorem media_apply_other {class_ : UInt8} (h : class_ ≠ lockClsMedia) (t : LockTable) (id : UInt16)
    (dir : UInt8) (scale : Int16) (n : UInt8) :
    (t.apply class_ id dir scale n).media = t.media := by
  unfold LockTable.apply
  dsimp only
  split
  · rfl
  split
  · split
    · exact setMouseAll_media _ _ _ _
    · split <;> rfl
  split
  · split
    · exact setMouseAll_media _ _ _ _
    · split <;> rfl
  split
  · split
    · split <;> rfl
    · split <;> rfl
  rfl

theorem media_apply {c : Command} (h : Blocks c) (n : UInt8) (t : LockTable) :
    (applyCommand n t c).media = mediaStep t.media c := by
  by_cases hclass : c.1.1 = lockClsMedia
  · obtain ⟨⟨class_, id, dir⟩, scale⟩ := c
    obtain rfl : class_ = lockClsMedia := hclass
    unfold applyCommand LockTable.apply
    dsimp only
    by_cases hneg : scale < 0
    · rw [if_pos ⟨hneg, by decide⟩]
      exact (if_neg fun hc => Int16.not_le.mpr hneg hc.2.2.2).symm
    rw [if_neg fun hc => hneg hc.1, if_neg (by decide), if_neg (by decide), if_neg (by decide),
      if_pos rfl]
    by_cases hall : id = lockIdAll
    · rw [if_pos hall]
      exact (if_neg fun hc => hc.2.1 hall).symm
    rw [if_neg hall]
    by_cases hid : id ≠ 0
    · rw [if_pos hid, if_neg (not_not.mpr (h rfl hall))]
      refine Eq.trans ?_ (if_pos ⟨rfl, hall, hid, Int16.not_lt.mp hneg⟩).symm
      unfold takeSlot
      split <;> rfl
    · rw [if_neg hid]
      exact (if_neg fun hc => hid hc.2.2.1).symm
  · rw [applyCommand, media_apply_other hclass]
    exact (if_neg fun hc => hclass hc.1).symm

theorem takeSlot_of_full {media : List UInt16} {id : UInt16} (h : id ∈ media ∨ 0 ∉ media) :
    takeSlot media id = media := by
  unfold takeSlot
  split
  next hmem => exact List.replace_of_not_mem (h.resolve_left hmem)
  next => rfl

/-- A slot taken is taken by the usage, and from none that held another. -/
theorem mem_takeSlot {media : List UInt16} {id : UInt16} (hid : id ≠ 0) (h : 0 ∈ media) {m : UInt16}
    (hm : m = id ∨ m ∈ media) (hzero : m ≠ 0) : m ∈ takeSlot media id := by
  unfold takeSlot
  split
  · have hperm := SlotArray.held_take_perm h hid
    refine (SlotArray.mem_held.mp (hperm.symm.subset ?_)).1
    exact List.mem_cons.mpr (hm.imp_right fun hm => SlotArray.mem_held.mpr ⟨hm, hzero⟩)
  next hmem =>
    obtain rfl | hm := hm
    · exact not_not.mp hmem
    · exact hm

theorem mediaStep_twice (cs : List Command) (media : List UInt16) :
    cs.foldl mediaStep (cs.foldl mediaStep media) = cs.foldl mediaStep media := by
  refine foldl_twice_of_settled
    (fun media c => TakesSlot c → c.1.2.1 ∈ media ∨ 0 ∉ media) ?_ ?_ ?_ cs media
  · intro media c hc
    rw [mediaStep, if_pos hc]
    by_cases hzero : 0 ∈ media
    · exact .inl (mem_takeSlot hc.2.2.1 hzero (.inl rfl) hc.2.2.1)
    · rw [takeSlot_of_full (.inr hzero)]
      exact .inr hzero
  · intro media c d h hc
    unfold mediaStep
    split
    next hd =>
      by_cases hzero : 0 ∈ media
      · have hmem := (h hc).resolve_right fun hfull => hfull hzero
        exact .inl (mem_takeSlot hd.2.2.1 hzero (.inr hmem) hc.2.2.1)
      · rw [takeSlot_of_full (.inr hzero)]
        exact .inr hzero
    next => exact h hc
  · intro media c h
    unfold mediaStep
    split
    next hc => exact takeSlot_of_full (h hc)
    next => rfl

/-- Commands that free no media slot, sent twice. -/
theorem applyCommand_twice (n : UInt8) {cs : List Command} (h : ∀ c ∈ cs, Blocks c)
    (t : LockTable) : cs.foldl (applyCommand n) (cs.foldl (applyCommand n) t) =
      cs.foldl (applyCommand n) t := by
  have hmedia : ∀ (ds : List Command) (t : LockTable), (∀ c ∈ ds, Blocks c) →
      (ds.foldl (applyCommand n) t).media = ds.foldl mediaStep t.media := by
    intro ds
    induction ds with
    | nil => exact fun _ _ => rfl
    | cons c ds ih =>
      intro t hds
      rw [List.forall_mem_cons] at hds
      rw [List.foldl_cons, List.foldl_cons, ih _ hds.2, media_apply hds.1]
  have hover : Overwrites look fun t => cs.foldl (applyCommand n) t :=
    .foldl fun c _ => apply_overwrites c.1.1 c.1.2.1 c.1.2.2 c.2 n
  refine eq_of_look (fun p => hover.twice t p) ?_
  rw [hmedia cs _ h, hmedia cs t h, mediaStep_twice]

end Medius.Replay
