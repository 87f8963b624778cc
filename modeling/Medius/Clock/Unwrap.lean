import Medius.Types.Clock

/-! A box time is recovered from its low word while it stays within half the range of the latest. -/

namespace Medius.Clock

open Medius.Types

theorem toNat_saturatingSub (a b : UInt64) : (saturatingSub a b).toNat = a.toNat - b.toNat := by
  have ha := a.toNat_lt
  have hb := b.toNat_lt
  unfold saturatingSub
  split
  next h =>
    rw [UInt64.lt_iff_toNat_lt] at h
    change 0 = _
    omega
  next h =>
    rw [UInt64.lt_iff_toNat_lt] at h
    rw [UInt64.toNat_sub]
    omega

/-- The state holds the latest time, counted from `base`. -/
structure Unwrapped (base latest : Nat) (d : DomainState) : Prop where
  seen : d.seen = true
  low : d.last.toNat = latest % 2 ^ 32
  high : base + d.epoch.toNat + d.last.toNat = latest

section Step

variable {base latest : Nat} {d : DomainState}

theorem boxUsOf_unseen (hd : d.seen = false) (raw : UInt32) :
    d.boxUsOf raw = (d.epoch + raw.toUInt64, { d with seen := true, last := raw }) := by
  simp [DomainState.boxUsOf, hd]

theorem boxUsOf_forward (hd : d.seen = true) {raw : UInt32} (h : (raw - d.last).toNat ≤ 2 ^ 31) :
    d.boxUsOf raw =
      ((if raw < d.last then d.epoch + 0x100000000 else d.epoch) + raw.toUInt64,
        { d with
          epoch := if raw < d.last then d.epoch + 0x100000000 else d.epoch
          last := raw }) := by
  have hle : raw - d.last ≤ halfRange := UInt32.le_iff_toNat_le.mpr h
  simp [DomainState.boxUsOf, hd, hle]

theorem boxUsOf_late (hd : d.seen = true) {raw : UInt32} (h : 2 ^ 31 < (raw - d.last).toNat) :
    d.boxUsOf raw =
      (saturatingSub (d.epoch + d.last.toUInt64) (d.last - raw).toUInt64, d) := by
  have hgt : ¬raw - d.last ≤ halfRange := fun hle =>
    absurd (UInt32.le_iff_toNat_le.mp hle) (by change ¬_ ≤ 2 ^ 31; omega)
  simp [DomainState.boxUsOf, hd, hgt]

theorem Unwrapped.mark (h : Unwrapped base latest d) (hlatest : latest < 2 ^ 64) :
    (d.epoch + d.last.toUInt64).toNat = latest - base := by
  have hhigh := h.high
  rw [UInt64.toNat_add, UInt32.toNat_toUInt64]
  omega

theorem Unwrapped.first {t : UInt64} {base : Nat} (hbase : base = t.toNat / 2 ^ 32 * 2 ^ 32) :
    (({} : DomainState).boxUsOf t.toUInt32).1.toNat = t.toNat - base ∧
      Unwrapped base t.toNat (({} : DomainState).boxUsOf t.toUInt32).2 := by
  rw [boxUsOf_unseen rfl]
  have hlow : t.toUInt32.toNat = t.toNat % 2 ^ 32 := UInt64.toNat_toUInt32 t
  refine ⟨?_, rfl, hlow, ?_⟩
  · rw [UInt64.toNat_add, UInt32.toNat_toUInt64, hlow]
    change (0 + _) % _ = _
    omega
  · change base + 0 + t.toUInt32.toNat = _
    omega

theorem Unwrapped.forward (h : Unwrapped base latest d) {t : UInt64} (hlo : latest ≤ t.toNat)
    (hhi : t.toNat ≤ latest + 2 ^ 31) :
    (d.boxUsOf t.toUInt32).1.toNat = t.toNat - base ∧
      Unwrapped base t.toNat (d.boxUsOf t.toUInt32).2 := by
  have hlow := h.low
  have hhigh := h.high
  have ht := t.toNat_lt
  have hraw : t.toUInt32.toNat = t.toNat % 2 ^ 32 := UInt64.toNat_toUInt32 t
  have hle : (t.toUInt32 - d.last).toNat ≤ 2 ^ 31 := by
    rw [UInt32.toNat_sub]
    omega
  -- The low word passes its range once, or not at all.
  have hepoch : base + (if t.toUInt32 < d.last then d.epoch + 0x100000000 else d.epoch).toNat +
      t.toUInt32.toNat = t.toNat := by
    split
    next hlt =>
      rw [UInt32.lt_iff_toNat_lt] at hlt
      rw [UInt64.toNat_add]
      change base + (_ + 4294967296) % _ + _ = _
      omega
    next hge =>
      rw [UInt32.lt_iff_toNat_lt] at hge
      omega
  rw [boxUsOf_forward h.seen hle]
  refine ⟨?_, h.seen, hraw, hepoch⟩
  rw [UInt64.toNat_add, UInt32.toNat_toUInt64]
  omega

theorem Unwrapped.late (h : Unwrapped base latest d) (hlatest : latest < 2 ^ 64) {t : UInt64}
    (hlt : t.toNat < latest) (hlo : latest ≤ t.toNat + (2 ^ 31 - 1)) :
    (d.boxUsOf t.toUInt32).1.toNat = t.toNat - base ∧ (d.boxUsOf t.toUInt32).2 = d := by
  have hlow := h.low
  have hraw : t.toUInt32.toNat = t.toNat % 2 ^ 32 := UInt64.toNat_toUInt32 t
  have hgt : 2 ^ 31 < (t.toUInt32 - d.last).toNat := by
    rw [UInt32.toNat_sub]
    omega
  have hback : (d.last - t.toUInt32).toNat = latest - t.toNat := by
    rw [UInt32.toNat_sub]
    omega
  rw [boxUsOf_late h.seen hgt]
  refine ⟨?_, rfl⟩
  rw [toNat_saturatingSub, h.mark hlatest, UInt32.toNat_toUInt64, hback]
  omega

theorem Unwrapped.boxUsOf (h : Unwrapped base latest d) (hlatest : latest < 2 ^ 64) {t : UInt64}
    (hlo : latest ≤ t.toNat + (2 ^ 31 - 1)) (hhi : t.toNat ≤ latest + 2 ^ 31) :
    (d.boxUsOf t.toUInt32).1.toNat = t.toNat - base ∧
      Unwrapped base (max latest t.toNat) (d.boxUsOf t.toUInt32).2 := by
  by_cases hlt : t.toNat < latest
  · obtain ⟨hbox, hstate⟩ := h.late hlatest hlt hlo
    rw [hstate, max_eq_left hlt.le]
    exact ⟨hbox, h⟩
  · rw [max_eq_right (not_lt.mp hlt)]
    exact h.forward (not_lt.mp hlt) hhi

end Step

/-- Each is little behind, or little ahead of, the latest of those before it. -/
def Near (latest : Nat) : List UInt64 → Prop
  | [] => True
  | t :: ts => latest ≤ t.toNat + (2 ^ 31 - 1) ∧ t.toNat ≤ latest + 2 ^ 31 ∧
      Near (max latest t.toNat) ts

def Paced : List UInt64 → Prop
  | [] => True
  | t :: ts => Near t.toNat ts

/-- Where the first time's epoch begins. -/
def base : List UInt64 → Nat
  | [] => 0
  | t :: _ => t.toNat / 2 ^ 32 * 2 ^ 32

def unwrapAll (d : DomainState) : List UInt32 → List UInt64
  | [] => []
  | raw :: raws => (d.boxUsOf raw).1 :: unwrapAll (d.boxUsOf raw).2 raws

theorem Unwrapped.unwrapAll {base latest : Nat} {d : DomainState} (h : Unwrapped base latest d)
    (hlatest : latest < 2 ^ 64) {ts : List UInt64} (hn : Near latest ts) :
    (Clock.unwrapAll d (ts.map UInt64.toUInt32)).map UInt64.toNat =
      ts.map (fun t => t.toNat - base) := by
  induction ts generalizing latest d with
  | nil => rfl
  | cons t ts ih =>
    obtain ⟨hlo, hhi, hn⟩ := hn
    obtain ⟨hbox, h'⟩ := h.boxUsOf hlatest hlo hhi
    simp only [List.map_cons, Clock.unwrapAll, hbox]
    rw [ih h' (max_lt hlatest t.toNat_lt) hn]

theorem unwrapAll_exact {times : List UInt64} (h : Paced times) :
    (unwrapAll {} (times.map UInt64.toUInt32)).map UInt64.toNat =
      times.map (fun t => t.toNat - base times) := by
  cases times with
  | nil => rfl
  | cons t ts =>
    obtain ⟨hbox, hu⟩ := Unwrapped.first (t := t) rfl
    simp only [List.map_cons, unwrapAll, hbox]
    rw [hu.unwrapAll t.toNat_lt h]
    rfl

/-- What a timeline answers to stamps of both domains, one after another. -/
def boxTimes (t : Timeline) : List (ClockDomain × UInt32) → List (ClockDomain × UInt64)
  | [] => []
  | (domain, raw) :: ls => (domain, (t.boxUsOf raw domain).1) :: boxTimes (t.boxUsOf raw domain).2 ls

def inDomain {α : Type} (domain : ClockDomain) (ls : List (ClockDomain × α)) : List α :=
  (ls.filter (·.1 = domain)).map Prod.snd

theorem inDomain_boxTimes (t : Timeline) (domain : ClockDomain) (ls : List (ClockDomain × UInt32)) :
    inDomain domain (boxTimes t ls) = unwrapAll (t.domains domain) (inDomain domain ls) := by
  induction ls generalizing t with
  | nil => rfl
  | cons l ls ih =>
    obtain ⟨e, raw⟩ := l
    have ih := ih (t.boxUsOf raw e).2
    by_cases he : e = domain
    · subst he
      simp only [inDomain, boxTimes, List.filter_cons, decide_true, if_true, List.map_cons,
        unwrapAll] at ih ⊢
      rw [ih]
      simp [Timeline.boxUsOf]
    · have hother : (t.boxUsOf raw e).2.domains domain = t.domains domain :=
        t.set_of_ne _ (Ne.symm he)
      simpa [inDomain, boxTimes, List.filter_cons, he, hother] using ih

/-- Whatever stamps of the other domain are read in between. -/
theorem boxTimes_exact {t : Timeline} {domain : ClockDomain} (hfresh : t.domains domain = {})
    {times : List UInt64} (hp : Paced times) {ls : List (ClockDomain × UInt32)}
    (hls : inDomain domain ls = times.map UInt64.toUInt32) :
    (inDomain domain (boxTimes t ls)).map UInt64.toNat =
      times.map (fun x => x.toNat - base times) := by
  rw [inDomain_boxTimes, hfresh, hls, unwrapAll_exact hp]

/-- A second epoch, and an event of the first after it, with the other chip's stamp between. -/
theorem boxTimes_straggler :
    (inDomain .hostChip (boxTimes (.new 0) [(.hostChip, 0xFFFFFFFA), (.hostChip, 20),
      (.deviceChip, 7), (.hostChip, 0xFFFFFFFD)])).map UInt64.toNat =
        [0xFFFFFFFA, 0x100000014, 0xFFFFFFFD] :=
  @boxTimes_exact (.new 0) .hostChip rfl [0xFFFFFFFA, 0x100000014, 0xFFFFFFFD]
    (by simp [Paced, Near]) _ rfl

end Medius.Clock
