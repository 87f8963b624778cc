import Medius.Catch.Admit

/-! Which entry of the union the box takes for an event, and whether it keeps as much of the
packet as every subscriber asked for. -/

namespace Medius.Catch

open Protocol Link Medius.Types

def specificity : CatchAddress → Nat
  | (some _, some _) => 2
  | (some _, none) => 1
  | (none, _) => 0

/-- An address outranks a broader one, then a named direction outranks `both`. -/
def rank (f : CatchFilter) : Nat :=
  2 * specificity (f.class_, f.id) + if f.direction = .both then 0 else 1

structure Event where
  class_ : CatchClass
  id : UInt16
  direction : Direction

def Selects (ev : Event) (f : CatchFilter) : Prop :=
  f.matches_ ev.class_ ev.id ev.direction

/-- The event's most specific matching entry. -/
structure Resolves (fs : List CatchFilter) (ev : Event) (e : CatchFilter) : Prop where
  mem : e ∈ fs
  selects : Selects ev e
  top : ∀ g ∈ fs, Selects ev g → rank g ≤ rank e

def Uncut (reg : CatchReg) (ev : Event) : Prop :=
  ∀ e, Resolves (FilterSet.filters reg.effective) ev e →
    ∀ s ∈ reg.subs, ∀ f ∈ FilterSet.filters s.filters, Selects ev f → Within f.capture e.capture

/-- `g` takes every packet `t` takes. -/
def Includes (g t : CatchFilter) : Prop :=
  (g.class_ = none ∨ g.class_ = t.class_) ∧ (g.id = none ∨ g.id = t.id) ∧
    (g.direction = .both ∨ g.direction = t.direction)

/-- An event of both directions whose most specific filter names one of them, alone at its
address: what a filter of the other direction keeps, some filter that includes it keeps. -/
def SidesShared (fs : List CatchFilter) (ev : Event) : Prop :=
  ev.direction = .both → ∀ t, Resolves fs ev t → t.direction ≠ .both →
    (∀ u ∈ fs, (u.class_, u.id) = (t.class_, t.id) →
      u.direction = .both ∨ u.direction = t.direction) →
    ∀ f ∈ fs, Selects ev f → f.direction ≠ .both → f.direction ≠ t.direction →
      ∃ g ∈ fs, Includes g t ∧ Within f.capture g.capture

def Broader (g t : CatchFilter) : Prop :=
  (g.class_ = none ∨ g.class_ = t.class_) ∧ (g.id = none ∨ g.id = t.id)

theorem covers_iff (g t : CatchFilter) :
    covers g t ↔ Broader g t ∧
      if (g.class_, g.id) = (t.class_, t.id) then g.direction = .both
      else g.direction.admits t.direction := by
  obtain ⟨gc, gi, gd, _, _⟩ := g
  obtain ⟨tc, ti, td, _, _⟩ := t
  simp only [covers, Broader, Prod.mk.injEq]
  by_cases hsame : gc = tc ∧ gi = ti
  · obtain ⟨rfl, rfl⟩ := hsame
    cases gc <;> cases gi <;> simp
  · simp only [hsame, if_false]
    cases gc <;> cases gi <;> cases tc <;> cases ti <;> simp

theorem admits_iff (d e : Direction) : d.admits e ↔ d = .both ∨ e = .both ∨ d = e := by
  cases d <;> cases e <;> decide

theorem includes_iff {g t : CatchFilter} (ht : t.direction ≠ .both) :
    Includes g t ↔ g.key = t.key ∨ covers g t := by
  have hkey : g.key = t.key ↔ (g.class_, g.id) = (t.class_, t.id) ∧ g.direction = t.direction := by
    simp [CatchFilter.key, and_assoc]
  have hinc : Includes g t ↔ Broader g t ∧ (g.direction = .both ∨ g.direction = t.direction) :=
    and_assoc.symm
  rw [hinc, hkey, covers_iff]
  by_cases hsame : (g.class_, g.id) = (t.class_, t.id)
  · have hb : Broader g t := ⟨.inr (Prod.mk.inj hsame).1, .inr (Prod.mk.inj hsame).2⟩
    simp only [hsame, hb, if_true, true_and]
    exact or_comm
  · simp [hsame, admits_iff, ht]

theorem both_of_opposite {d e x : Direction} (hd : d ≠ .both) (he : e ≠ .both) (hne : d ≠ e)
    (hdx : d.admits x) (hex : e.admits x) : x = .both := by
  obtain h | h | rfl := (admits_iff d x).mp hdx
  · exact absurd h hd
  · exact h
  · obtain h | h | h := (admits_iff e d).mp hex
    · exact absurd h he
    · exact h
    · exact absurd h.symm hne

/-- The three addresses an event can be matched at. -/
theorem Selects.address {ev : Event} {f : CatchFilter} (h : Selects ev f) :
    (f.class_, f.id) = (none, none) ∨ (f.class_, f.id) = (some ev.class_, none) ∨
      (f.class_, f.id) = (some ev.class_, some ev.id) := by
  obtain ⟨hc, -⟩ := (matches_iff ..).mp h
  obtain hc | ⟨hc, hi | hi⟩ := hc
  · exact .inl (Prod.ext hc (f.id_of_class hc))
  · exact .inr (.inl (Prod.ext hc hi))
  · exact .inr (.inr (Prod.ext hc hi))

theorem broader_of_specificity {ev : Event} {f e : CatchFilter} (hf : Selects ev f)
    (he : Selects ev e)
    (h : specificity (f.class_, f.id) ≤ specificity (e.class_, e.id)) : Broader f e := by
  obtain hf | hf | hf := hf.address <;> obtain he | he | he := he.address <;>
    simp_all [specificity, Broader]

theorem address_eq_of_specificity {ev : Event} {f e : CatchFilter} (hf : Selects ev f)
    (he : Selects ev e)
    (h : specificity (f.class_, f.id) = specificity (e.class_, e.id)) :
    (f.class_, f.id) = (e.class_, e.id) := by
  obtain hf | hf | hf := hf.address <;> obtain he | he | he := he.address <;>
    simp_all [specificity]

theorem Widened.width_ge {fs : List CatchFilter} {e f : CatchFilter} (h : Widened fs e)
    (hf : f ∈ fs) (hc : f.key = e.key ∨ covers f e) : width f.capture ≤ width e.capture :=
  (h.width_le _).mp le_rfl f hf hc

/-- Both named directions stand at one address. -/
def Paired (fs : List CatchFilter) (a : CatchAddress) : Prop :=
  (∃ f ∈ fs, f.key = keyAt a .positive) ∧ ∃ f ∈ fs, f.key = keyAt a .negative

theorem widened_row {fs : List CatchFilter} {a : CatchAddress} {d : Direction} {e : CatchFilter}
    (h : rows (widened fs) a d = some e) :
    Widened fs e ∧ (e.class_, e.id) = a ∧ e.direction = d := by
  have hw := getElem?_widened fs (keyAt a d)
  unfold rows at h
  rw [h] at hw
  obtain ⟨ha, hd⟩ := keyAt_inj.mp ((keyAt_key e).trans hw.1)
  exact ⟨hw.2, ha, hd⟩

theorem row_of_not_paired {fs : List CatchFilter} {a : CatchAddress} (h : ¬Paired fs a) :
    mergeRow (rows (widened fs) a) = rows (widened fs) a := by
  refine mergeRow_of_single ?_
  obtain ⟨pos, neg, hp, hn⟩ | hs := row_cases (rows (widened fs) a)
  · refine absurd ⟨?_, ?_⟩ h
    · exact (rows_widened_isSome fs a _).mp (by rw [hp]; rfl)
    · exact (rows_widened_isSome fs a _).mp (by rw [hn]; rfl)
  · exact hs

theorem row_of_paired {fs : List CatchFilter} {a : CatchAddress} (h : Paired fs a) :
    ∃ pos neg, rows (widened fs) a .positive = some pos ∧ rows (widened fs) a .negative = some neg ∧
      mergeRow (rows (widened fs) a) = mergedRow (rows (widened fs) a) pos neg := by
  obtain ⟨pos, hp⟩ := Option.isSome_iff_exists.mp ((rows_widened_isSome fs a _).mpr h.1)
  obtain ⟨neg, hn⟩ := Option.isSome_iff_exists.mp ((rows_widened_isSome fs a _).mpr h.2)
  exact ⟨pos, neg, hp, hn, mergeRow_of_pair hp hn⟩

theorem width_mergedSibling (pos neg : CatchFilter) (both : Option CatchFilter) :
    width pos.capture ≤ width (mergedSibling pos neg both).capture ∧
      width neg.capture ≤ width (mergedSibling pos neg both).capture := by
  cases both with
  | none => simp [mergedSibling]
  | some both => simp [mergedSibling]

section Effective

variable {reg : CatchReg}

theorem widened_of_mem {e : CatchFilter} (he : e ∈ FilterSet.filters reg.effective)
    (hp : ¬Paired reg.all (e.class_, e.id)) : Widened reg.all e := by
  have hrow := (mem_filters_rows (wellKeyed_effective reg) e).mp he
  rw [rows_effective, row_of_not_paired hp] at hrow
  exact (widened_row hrow).1

theorem exists_effective {u : CatchFilter} (hu : u ∈ reg.all)
    (hp : ¬Paired reg.all (u.class_, u.id)) :
    ∃ e ∈ FilterSet.filters reg.effective, e.key = u.key := by
  obtain ⟨e, he⟩ := Option.isSome_iff_exists.mp
    ((rows_widened_isSome reg.all (u.class_, u.id) u.direction).mpr ⟨u, hu, rfl⟩)
  rw [← row_of_not_paired hp, ← rows_effective] at he
  have hk := wellKeyed_effective reg _ _ he
  exact ⟨e, (rows_key (wellKeyed_effective reg) he).2.2, hk⟩

theorem exists_effective_of_paired {a : CatchAddress} (hp : Paired reg.all a) :
    ∃ e ∈ FilterSet.filters reg.effective, (e.class_, e.id) = a ∧ e.direction = .both := by
  obtain ⟨pos, neg, -, -, hrow⟩ := row_of_paired hp
  have he : rows reg.effective a .both =
      some (mergedSibling pos neg (rows (widened reg.all) a .both)) := by
    rw [rows_effective, hrow]
    rfl
  obtain ⟨ha, hd, hmem⟩ := rows_key (wellKeyed_effective reg) he
  exact ⟨_, hmem, ha, hd⟩

/-- A merged entry keeps as much as every filter its address is within. -/
theorem merged_of_mem {e : CatchFilter} (he : e ∈ FilterSet.filters reg.effective)
    (hd : e.direction.isRelative = false) (hp : Paired reg.all (e.class_, e.id)) :
    e.direction = .both ∧ ∀ f ∈ reg.all, f.direction.isRelative = false → Broader f e →
      width f.capture ≤ width e.capture := by
  obtain ⟨pos, neg, hpos, hneg, hrow⟩ := row_of_paired hp
  have hmem := (mem_filters_rows (wellKeyed_effective reg) e).mp he
  rw [rows_effective, hrow] at hmem
  obtain ⟨hwp, hap, hdp⟩ := widened_row hpos
  obtain ⟨hwn, han, hdn⟩ := widened_row hneg
  have hboth : e.direction = .both := by
    cases hdir : e.direction with
    | both => rfl
    | positive | negative =>
      rw [hdir] at hmem
      cases hmem
    | with_ | against =>
      rw [hdir] at hd
      cases hd
  refine ⟨hboth, fun f hf hfd hb => ?_⟩
  rw [hboth] at hmem
  have heq := Option.some.inj hmem
  obtain ⟨hlp, hln⟩ := width_mergedSibling pos neg (rows (widened reg.all) (e.class_, e.id) .both)
  rw [heq] at hlp hln
  have hside : ∀ t : CatchFilter, Widened reg.all t → (t.class_, t.id) = (e.class_, e.id) →
      t.direction ≠ .both → f.direction = .both ∨ f.direction = t.direction →
        width f.capture ≤ width t.capture := by
    intro t ht hta htd hft
    have hbt : Broader f t := by
      obtain ⟨h₁, h₂⟩ := Prod.mk.inj hta
      unfold Broader
      rwa [h₁, h₂]
    exact ht.width_ge hf ((includes_iff htd).mp ⟨hbt.1, hbt.2, hft⟩)
  cases hdir : f.direction with
  | both => exact (hside pos hwp hap (by rw [hdp]; decide) (.inl hdir)).trans hlp
  | positive => exact (hside pos hwp hap (by rw [hdp]; decide) (.inr (hdir.trans hdp.symm))).trans hlp
  | negative => exact (hside neg hwn han (by rw [hdn]; decide) (.inr (hdir.trans hdn.symm))).trans hln
  | with_ | against =>
    rw [hdir] at hfd
    cases hfd

theorem direction_of_mem (hdir : ∀ f ∈ reg.all, f.direction.isRelative = false) {e : CatchFilter}
    (he : e ∈ FilterSet.filters reg.effective) : e.direction.isRelative = false := by
  by_contra hrel
  have hrel := Bool.not_eq_false _ ▸ hrel
  have hrow := (mem_filters_rows (wellKeyed_effective reg) e).mp he
  rw [rows_effective, mergeRow_relative _ hrel] at hrow
  obtain ⟨f, hf, hk⟩ := (widened_row hrow).1.of_mem
  rw [← (address_of_key hk).2, hdir f hf] at hrel
  cases hrel

theorem rank_of_key {e u : CatchFilter} (h : e.key = u.key) : rank e = rank u := by
  obtain ⟨ha, hd⟩ := address_of_key h
  rw [rank, rank, ha, hd]

theorem selects_of_key {ev : Event} {e u : CatchFilter} (h : e.key = u.key) (hs : Selects ev u) :
    Selects ev e := by
  obtain ⟨ha, hd⟩ := address_of_key h
  rw [Selects, matches_iff] at hs ⊢
  rwa [ha, hd]

theorem selects_both {ev : Event} {e u : CatchFilter} (ha : (e.class_, e.id) = (u.class_, u.id))
    (hd : e.direction = .both) (hs : Selects ev u) : Selects ev e := by
  refine (matches_iff ..).mpr ⟨ha ▸ ((matches_iff ..).mp hs).1, ?_⟩
  rw [hd]
  rfl

theorem rank_both {e : CatchFilter} (h : e.direction = .both) :
    rank e = 2 * specificity (e.class_, e.id) := by
  rw [rank, if_pos h, Nat.add_zero]

theorem rank_named {e : CatchFilter} (h : e.direction ≠ .both) :
    rank e = 2 * specificity (e.class_, e.id) + 1 := by
  rw [rank, if_neg h]

theorem rank_le (e : CatchFilter) : rank e ≤ 2 * specificity (e.class_, e.id) + 1 := by
  unfold rank
  split <;> omega

/-- Whatever a subscriber's filter matches, the union matches as specifically, up to the
direction. -/
theorem exists_effective_above {ev : Event} {u : CatchFilter} (hu : u ∈ reg.all)
    (hs : Selects ev u) : ∃ e ∈ FilterSet.filters reg.effective, Selects ev e ∧
      (e.class_, e.id) = (u.class_, u.id) ∧
        (e.key = u.key ∨ e.direction = .both ∧ Paired reg.all (u.class_, u.id)) := by
  by_cases hp : Paired reg.all (u.class_, u.id)
  · obtain ⟨e, he, ha, hd⟩ := exists_effective_of_paired hp
    exact ⟨e, he, selects_both ha hd hs, ha, .inr ⟨hd, hp⟩⟩
  · obtain ⟨e, he, hk⟩ := exists_effective hu hp
    exact ⟨e, he, selects_of_key hk hs, (address_of_key hk).1, .inl hk⟩

/-- Every filter that matches is at the union's choice or broader. -/
theorem Resolves.broader {ev : Event} {e f : CatchFilter}
    (h : Resolves (FilterSet.filters reg.effective) ev e) (hf : f ∈ reg.all)
    (hs : Selects ev f) : Broader f e := by
  obtain ⟨g, hg, hgs, ha, -⟩ := exists_effective_above hf hs
  have htop := h.top g hg hgs
  have hle := rank_le e
  have hge : 2 * specificity (g.class_, g.id) ≤ rank g := Nat.le_add_right ..
  refine broader_of_specificity hs h.selects ?_
  rw [← ha]
  omega

variable (hdir : ∀ f ∈ reg.all, f.direction.isRelative = false)
include hdir

theorem not_paired_of_named {e : CatchFilter} (he : e ∈ FilterSet.filters reg.effective)
    (hd : e.direction ≠ .both) : ¬Paired reg.all (e.class_, e.id) := fun hp =>
  hd (merged_of_mem he (direction_of_mem hdir he) hp).1

/-- A named choice of the union is a subscriber's own most specific filter. -/
theorem Resolves.of_effective {ev : Event} {e t : CatchFilter}
    (h : Resolves (FilterSet.filters reg.effective) ev e) (hd : e.direction ≠ .both)
    (ht : t ∈ reg.all) (hk : t.key = e.key) : Resolves reg.all ev t := by
  refine ⟨ht, selects_of_key hk h.selects, fun u hu hus => ?_⟩
  rw [rank_of_key hk]
  obtain ⟨g, hg, hgs, ha, hgk | ⟨hgd, hp⟩⟩ := exists_effective_above hu hus
  · exact rank_of_key hgk ▸ h.top g hg hgs
  · have htop := h.top g hg hgs
    have hne : specificity (u.class_, u.id) ≠ specificity (e.class_, e.id) := fun heq =>
      not_paired_of_named hdir h.mem hd (address_eq_of_specificity hus h.selects heq ▸ hp)
    have hle := rank_le u
    rw [rank_both hgd, ha, rank_named hd] at htop
    rw [rank_named hd]
    omega

/-- A subscriber's own most specific filter, named and alone at its address, is the union's
choice. -/
theorem Resolves.effective {ev : Event} {t e : CatchFilter} (h : Resolves reg.all ev t)
    (hev : ev.direction = .both) (he : e ∈ FilterSet.filters reg.effective)
    (hk : e.key = t.key) : Resolves (FilterSet.filters reg.effective) ev e := by
  refine ⟨he, selects_of_key hk h.selects, fun g hg hgs => ?_⟩
  rw [rank_of_key hk]
  by_cases hp : Paired reg.all (g.class_, g.id)
  · obtain ⟨hgd, -⟩ := merged_of_mem hg (direction_of_mem hdir hg) hp
    obtain ⟨u, hu, huk⟩ := hp.1
    obtain ⟨hua, hud⟩ := keyAt_inj.mp (show keyAt (u.class_, u.id) u.direction = _ from huk)
    have hus : Selects ev u := by
      refine (matches_iff ..).mpr ⟨hua ▸ ((matches_iff ..).mp hgs).1, ?_⟩
      rw [hev]
      exact Direction.admits_both _
    have htop := h.top u hu hus
    rw [rank_named (by rw [hud]; decide), hua] at htop
    rw [rank_both hgd]
    omega
  · obtain ⟨u, hu, huk⟩ := (widened_of_mem hg hp).of_mem
    rw [← rank_of_key huk]
    exact h.top u hu (selects_of_key huk hgs)

theorem paired_of_opposite {t u : CatchFilter} (ht : t ∈ reg.all) (hu : u ∈ reg.all)
    (ha : (u.class_, u.id) = (t.class_, t.id)) (hud : u.direction ≠ .both)
    (htd : t.direction ≠ .both) (hne : u.direction ≠ t.direction) :
    Paired reg.all (t.class_, t.id) := by
  have hkey : ∀ d, u.direction = d → u.key = keyAt (t.class_, t.id) d := fun d h => h ▸ ha ▸ rfl
  have hkey' : ∀ d, t.direction = d → t.key = keyAt (t.class_, t.id) d := fun d h => h ▸ rfl
  have hu' := hdir u hu
  have ht' := hdir t ht
  cases hd : u.direction <;> cases hd' : t.direction <;> simp_all [Direction.isRelative]
  · exact ⟨⟨u, hu, hkey⟩, t, ht, hkey'⟩
  · exact ⟨⟨t, ht, hkey'⟩, u, hu, hkey⟩

theorem uncut_of_sidesShared {ev : Event} (h : SidesShared reg.all ev) : Uncut reg ev := by
  intro e he s hs f hfs hsel
  have hf : f ∈ reg.all := (mem_all reg f).mpr ⟨s, hs, hfs⟩
  have hbroad := he.broader hf hsel
  rw [within_iff]
  by_cases hp : Paired reg.all (e.class_, e.id)
  · exact (merged_of_mem he.mem (direction_of_mem hdir he.mem) hp).2 f hf (hdir f hf) hbroad
  · have hw := widened_of_mem he.mem hp
    by_cases hd : e.direction = .both
    · by_cases ha : (f.class_, f.id) = (e.class_, e.id)
      · refine hw.width_ge hf (.inl ?_)
        by_contra hk
        have hfd : f.direction ≠ .both := fun hfd => hk (keyAt_inj.mpr ⟨ha, hfd.trans hd.symm⟩)
        obtain ⟨g, hg, hgk⟩ := exists_effective hf (ha ▸ hp)
        have htop := he.top g hg (selects_of_key hgk hsel)
        rw [rank_of_key hgk, rank_named hfd, rank_both hd, ha] at htop
        omega
      · refine hw.width_ge hf (.inr ((covers_iff f e).mpr ⟨hbroad, ?_⟩))
        rw [if_neg ha, hd]
        exact Direction.admits_both _
    · by_cases hfd : f.direction = .both ∨ f.direction = e.direction
      · exact hw.width_ge hf ((includes_iff hd).mp ⟨hbroad.1, hbroad.2, hfd⟩)
      · obtain ⟨hfb, hfe⟩ := not_or.mp hfd
        have hboth := both_of_opposite hfb hd hfe ((matches_iff ..).mp hsel).2
          ((matches_iff ..).mp he.selects).2
        obtain ⟨t, ht, htk⟩ := hw.of_mem
        obtain ⟨hta, htd⟩ := address_of_key htk
        have halone : ∀ u ∈ reg.all, (u.class_, u.id) = (t.class_, t.id) →
            u.direction = .both ∨ u.direction = t.direction := by
          intro u hu hua
          by_contra hno
          obtain ⟨hub, hut⟩ := not_or.mp hno
          exact hp (hta ▸ paired_of_opposite hdir ht hu hua hub (htd ▸ hd) hut)
        obtain ⟨g, hg, hinc, hwid⟩ := h hboth t (he.of_effective hdir hd ht htk) (htd ▸ hd) halone
          f hf hsel hfb (htd ▸ hfe)
        have hge : g.key = e.key ∨ covers g e := by
          rw [← htk, ← covers_congr htk]
          exact (includes_iff (htd ▸ hd)).mp hinc
        exact (within_iff.mp hwid).trans (hw.width_ge hg hge)

theorem sidesShared_of_uncut {ev : Event} (h : Uncut reg ev) : SidesShared reg.all ev := by
  intro hev t ht htd halone f hf hsel hfd hft
  have hp : ¬Paired reg.all (t.class_, t.id) := by
    rintro ⟨⟨p, hpm, hpk⟩, n, hnm, hnk⟩
    obtain ⟨hpa, hpd⟩ := keyAt_inj.mp (show keyAt (p.class_, p.id) p.direction = _ from hpk)
    obtain ⟨hna, hnd⟩ := keyAt_inj.mp (show keyAt (n.class_, n.id) n.direction = _ from hnk)
    have hpt := (halone p hpm hpa).resolve_left (by rw [hpd]; decide)
    have hnt := (halone n hnm hna).resolve_left (by rw [hnd]; decide)
    rw [← hpt, hpd, hnd] at hnt
    cases hnt
  obtain ⟨e, he, hk⟩ := exists_effective ht.mem hp
  obtain ⟨s, hs, hfs⟩ := (mem_all reg f).mp hf
  have hle := within_iff.mp (h e (ht.effective hdir hev he hk) s hs f hfs hsel)
  have hw := widened_of_mem he ((address_of_key hk).1 ▸ hp)
  by_contra hno
  have hlt : ∀ g ∈ reg.all, g.key = e.key ∨ covers g e → width g.capture < width f.capture := by
    intro g hg hge
    rw [hk, covers_congr hk] at hge
    refine Nat.lt_of_not_le fun hwid => hno ⟨g, hg, (includes_iff htd).mpr hge, ?_⟩
    exact within_iff.mpr hwid
  have hub := (hw.width_le (width f.capture - 1)).mpr fun g hg hge =>
    Nat.le_sub_one_of_lt (hlt g hg hge)
  have hpos := hlt t ht.mem (.inl hk.symm)
  omega

end Effective

/-- No subscriber's packet is cut short exactly when the events of both directions are
shared. -/
theorem uncut_iff (reg : CatchReg) (hdir : ∀ f ∈ reg.all, f.direction.isRelative = false)
    (ev : Event) : Uncut reg ev ↔ SidesShared reg.all ev :=
  ⟨sidesShared_of_uncut hdir, uncut_of_sidesShared hdir⟩

/-- Everything inbound in full, and the first bytes of outbound bus traffic. -/
def busReaders : CatchReg where
  subs := [⟨0, collapse [CatchFilter.everything.withDirection .positive]⟩,
    ⟨1, collapse [((CatchFilter.blanket .bus).withDirection .negative).withCapture (.first 4)]⟩]

theorem uncut_busReaders : Uncut busReaders ⟨.bus, 0, .positive⟩ :=
  (uncut_iff busReaders (by decide) _).mpr (fun h => nomatch h)

instance (ev : Event) : DecidablePred (Selects ev) := fun _ => inferInstanceAs (Decidable (_ = _))

/-- A bus event resolves to the outbound entry, and the inbound reader's packet is cut. -/
theorem bus_event_cut :
    ¬∀ (reg : CatchReg) (ev : Event), (∀ f ∈ reg.all, f.direction.isRelative = false) →
      (∀ f ∈ reg.all, f.id ≠ some catchIdAny) → Uncut reg ev := by
  intro h
  have hres : Resolves (FilterSet.filters busReaders.effective) ⟨.bus, 0, .both⟩
      (((CatchFilter.blanket .bus).withDirection .negative).withCapture (.first 4)) :=
    ⟨by decide, by decide, by decide⟩
  have hw := h busReaders ⟨.bus, 0, .both⟩ (by decide) (by decide) _ hres _
    List.mem_cons_self (CatchFilter.everything.withDirection .positive) (by decide) (by decide)
  exact absurd hw (show ¬(Capture.widest _ _).bytes = _ by decide)

end Medius.Catch
