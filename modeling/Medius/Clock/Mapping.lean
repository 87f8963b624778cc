import Medius.Lib.Buckets
import Medius.Clock.Unwrap

/-! Where an observation is placed on this machine's clock. -/

namespace Medius.Clock

open Medius.Types

def buckets (d : DomainState) : Buckets Int := ⟨d.minNow, d.minPrev, d.block.toNat⟩

/-- The latest box time, from where the domain's first epoch begins. -/
def mark (d : DomainState) : Nat := d.epoch.toNat + d.last.toNat

theorem toNat_clampNs (v : Int) : (clampNs v).toNat = min v.toNat (2 ^ 64 - 1) := by
  have hlt : min (max v 0).toNat (UInt64.size - 1) < 2 ^ 64 := by
    simp only [UInt64.size]
    omega
  rw [clampNs, UInt64.toNat_ofNat_of_lt' hlt]
  simp only [UInt64.size]
  omega

section Domain

variable (d : DomainState)

theorem boxUsOf_kept (raw : UInt32) : buckets (d.boxUsOf raw).2 = buckets d ∧
    (d.boxUsOf raw).2.lastHostNs = d.lastHostNs := by
  unfold DomainState.boxUsOf
  split
  · exact ⟨rfl, rfl⟩
  · split <;> exact ⟨rfl, rfl⟩

@[simp] theorem buckets_lastHostNs (n : UInt64) :
    buckets { d with lastHostNs := n } = buckets d := rfl

@[simp] theorem mark_lastHostNs (n : UInt64) : mark { d with lastHostNs := n } = mark d := rfl

theorem floor_buckets : d.floor = (buckets d).floor := by
  obtain ⟨_, _, _, now, prev, _, _, _⟩ := d
  cases now <;> cases prev <;> rfl

theorem pushLag_buckets (h : d.block.toNat < 4096) (lag : Int) :
    buckets (d.pushLag lag).2 = (buckets d).push 4096 lag := by
  have hblock : (d.block + 1).toNat = d.block.toNat + 1 := by
    rw [UInt32.toNat_add]
    change (_ + 1) % _ = _
    omega
  have hle : floorBlock ≤ d.block + 1 ↔ 4096 ≤ d.block.toNat + 1 := by
    rw [UInt32.le_iff_toNat_le, hblock]
    exact Iff.rfl
  unfold DomainState.pushLag Buckets.push
  simp only [hle]
  split
  next hfull =>
    rw [if_pos (show 4096 ≤ (buckets d).count + 1 from hfull)]
    cases hm : d.minNow <;> simp [buckets, hm, Option.merge]
  next hpart =>
    rw [if_neg (show ¬4096 ≤ (buckets d).count + 1 from hpart)]
    cases hm : d.minNow <;> simp [buckets, hm, hblock, Option.merge]

theorem pushLag_kept (lag : Int) : (d.pushLag lag).1 = ((d.pushLag lag).2.floor.getD lag) ∧
    mark (d.pushLag lag).2 = mark d ∧ (d.pushLag lag).2.last = d.last ∧
    (d.pushLag lag).2.seen = d.seen ∧ (d.pushLag lag).2.lastHostNs = d.lastHostNs := by
  unfold DomainState.pushLag
  dsimp only
  split <;> exact ⟨rfl, rfl, rfl, rfl, rfl⟩

/-- The mark moves ahead by half the range at most, and what is read is not before it by more. -/
theorem boxUsOf_near (hseen : d.seen = true) (hroom : mark d + 2 ^ 31 < 2 ^ 64) (raw : UInt32) :
    (d.boxUsOf raw).2.seen = true ∧ mark d ≤ mark (d.boxUsOf raw).2 ∧
      mark (d.boxUsOf raw).2 ≤ mark d + 2 ^ 31 ∧
      (d.boxUsOf raw).1.toNat ≤ mark (d.boxUsOf raw).2 ∧
      mark (d.boxUsOf raw).2 < (d.boxUsOf raw).1.toNat + 2 ^ 31 := by
  have hlast := d.last.toNat_lt
  have hraw := raw.toNat_lt
  unfold mark at *
  by_cases hle : (raw - d.last).toNat ≤ 2 ^ 31
  · have hepoch : (if raw < d.last then d.epoch + 0x100000000 else d.epoch).toNat + raw.toNat =
        d.epoch.toNat + d.last.toNat + (raw - d.last).toNat := by
      rw [UInt32.toNat_sub] at hle ⊢
      split
      next hlt =>
        rw [UInt32.lt_iff_toNat_lt] at hlt
        rw [UInt64.toNat_add]
        change (_ + 4294967296) % _ + _ = _
        omega
      next hge =>
        rw [UInt32.lt_iff_toNat_lt] at hge
        omega
    rw [boxUsOf_forward hseen hle]
    dsimp only
    rw [UInt64.toNat_add, UInt32.toNat_toUInt64, hepoch]
    refine ⟨hseen, ?_, ?_, ?_, ?_⟩ <;> omega
  · have hback : (d.last - raw).toNat < 2 ^ 31 := by
      rw [UInt32.toNat_sub] at hle ⊢
      omega
    rw [boxUsOf_late hseen (not_le.mp hle)]
    dsimp only
    rw [toNat_saturatingSub, UInt64.toNat_add, UInt32.toNat_toUInt64, UInt32.toNat_toUInt64]
    refine ⟨hseen, ?_, ?_, ?_, ?_⟩ <;> omega

theorem boxUsOf_default (raw : UInt32) : (({} : DomainState).boxUsOf raw).2.seen = true ∧
    mark (({} : DomainState).boxUsOf raw).2 = raw.toNat ∧
    (({} : DomainState).boxUsOf raw).1.toNat = raw.toNat := by
  rw [boxUsOf_unseen rfl]
  refine ⟨rfl, Nat.zero_add _, ?_⟩
  rw [UInt64.toNat_add, UInt32.toNat_toUInt64]
  change (0 + _) % _ = _
  have := raw.toNat_lt
  omega

end Domain

/-- Arrival less box time. -/
def lag (elapsed : Nat) (boxUs : UInt64) : Int := elapsed - (boxUs.toNat * 1000 : Nat)

section Observe

variable (t : Timeline) (ts : UInt32) (domain : ClockDomain) (now : Nat)

/-- The domain's state with the stamp read and its lag pushed. -/
def pushed : DomainState :=
  let d := ((t.domains domain).boxUsOf ts).2
  ({ d with samples := d.samples + 1 }.pushLag
    (lag (now - t.origin) ((t.domains domain).boxUsOf ts).1)).2

theorem observeStamp_eq :
    let boxUs := ((t.domains domain).boxUsOf ts).1
    let lagNs := lag (now - t.origin) boxUs
    let d := pushed t ts domain now
    let floor := d.floor.getD lagNs
    let rawHostNs := clampNs (boxUs.toNat * 1000 + floor)
    let hostNs := if rawHostNs + resyncNs < d.lastHostNs then rawHostNs
      else max rawHostNs d.lastHostNs
    t.observeStamp ts domain now =
      (⟨t.origin + hostNs.toNat, boxUs, (clampNs (lagNs - floor)).toNat⟩,
        t.set domain { d with lastHostNs := hostNs }) := by
  dsimp only
  have hfloor := (pushLag_kept
    { ((t.domains domain).boxUsOf ts).2 with
      samples := ((t.domains domain).boxUsOf ts).2.samples + 1 }
    (lag (now - t.origin) ((t.domains domain).boxUsOf ts).1)).1
  simp only [Timeline.observeStamp, Timeline.boxUsOf, pushed, lag, Timeline.set,
    Function.update_self, Function.update_idem, Nat.cast_mul, Nat.cast_ofNat] at hfloor ⊢
  rw [hfloor]

theorem pushed_spec (hblock : (buckets (t.domains domain)).count < 4096) :
    buckets (pushed t ts domain now) = (buckets (t.domains domain)).push 4096
        (lag (now - t.origin) ((t.domains domain).boxUsOf ts).1) ∧
      mark (pushed t ts domain now) = mark ((t.domains domain).boxUsOf ts).2 ∧
      (pushed t ts domain now).last = ((t.domains domain).boxUsOf ts).2.last ∧
      (pushed t ts domain now).seen = ((t.domains domain).boxUsOf ts).2.seen ∧
      (pushed t ts domain now).lastHostNs = (t.domains domain).lastHostNs := by
  obtain ⟨hb, hhost⟩ := boxUsOf_kept (t.domains domain) ts
  rw [← hb] at hblock ⊢
  rw [← hhost]
  exact ⟨pushLag_buckets { ((t.domains domain).boxUsOf ts).2 with
    samples := ((t.domains domain).boxUsOf ts).2.samples + 1 } hblock _, (pushLag_kept _ _).2⟩

end Observe

/-- An observation: when it arrived, and what it was mapped to. -/
structure Sample where
  now : Nat
  stamped : Stamped

def Sample.lag (origin : Nat) (x : Sample) : Int := Clock.lag (x.now - origin) x.stamped.boxUs

inductive Act
  | observe (ts : UInt32) (domain : ClockDomain) (now : Nat)
  | reset (domain : ClockDomain)

/-- A timeline, the observations of each domain since it was reset, and the domain's latest. -/
structure Record where
  timeline : Timeline
  since : ClockDomain → List Sample := fun _ => []
  latest : ClockDomain → Option Sample := fun _ => none

namespace Record

def step (r : Record) : Act → Record
  | .observe ts domain now =>
    let (stamped, t) := r.timeline.observeStamp ts domain now
    { timeline := t
      since := Function.update r.since domain (r.since domain ++ [⟨now, stamped⟩])
      latest := Function.update r.latest domain (some ⟨now, stamped⟩) }
  | .reset domain =>
    { r with
      timeline := r.timeline.reset domain
      since := Function.update r.since domain [] }

end Record

def run (origin : Nat) (acts : List Act) : Record :=
  acts.foldl Record.step { timeline := .new origin }

def Act.arrival : Act → Option Nat
  | .observe _ _ now => some now
  | .reset _ => none

def arrivals (acts : List Act) : List Nat := acts.filterMap Act.arrival

/-- Arrivals do not decrease, and none is before the origin. -/
def Arriving (origin : Nat) (acts : List Act) : Prop :=
  (arrivals acts).Pairwise (· ≤ ·) ∧ ∀ a ∈ arrivals acts, origin ≤ a ∧ a < origin + 2 ^ 63

/-- A domain of the timeline and its record, nothing having arrived after `clock`. -/
structure Heard (origin clock : Nat) (d : DomainState) (since : List Sample)
    (latest : Option Sample) : Prop where
  filled : Buckets.Filled 4096 (since.map (Sample.lag origin)) (buckets d)
  fresh : since = [] → d = {}
  host : since ≠ [] → ∀ x ∈ latest, x.stamped.host = origin + d.lastHostNs.toNat
  past : ∀ x ∈ latest, x.stamped.host ≤ clock
  lastHost : origin + d.lastHostNs.toNat ≤ clock
  arrived : ∀ x ∈ since, x.now ≤ clock
  marked : since.length < 2 ^ 33 → ∀ x ∈ since, x.stamped.boxUs.toNat ≤ mark d
  room : since ≠ [] → since.length < 2 ^ 33 →
    d.seen = true ∧ mark d + 2 ^ 31 < 2 ^ 32 + since.length * 2 ^ 31

theorem hostNs_spec {raw last : UInt64} (h : raw.toNat < 2 ^ 63) :
    let host := if raw + resyncNs < last then raw else max raw last
    raw.toNat ≤ host.toNat ∧ host.toNat ≤ max raw.toNat last.toNat ∧
      (last.toNat ≤ host.toNat ∨ host.toNat + 1000000 < last.toNat) := by
  have hsum : (raw + resyncNs).toNat = raw.toNat + 1000000 := by
    rw [UInt64.toNat_add]
    change (_ + 1000000) % _ = _
    omega
  have hmax : max raw last = if raw ≤ last then last else raw := rfl
  simp only [UInt64.lt_iff_toNat_lt, hsum, hmax, UInt64.le_iff_toNat_le]
  split
  · omega
  · split <;> omega

section Step

variable {origin clock now : Nat} {t : Timeline} {domain : ClockDomain} {since : List Sample}
  {latest : Option Sample}

/-- The marks of a domain with fewer than 2^33 observations do not run over. -/
theorem Heard.boxUsOf {d : DomainState} (h : Heard origin clock d since latest)
    (hfew : since.length + 1 < 2 ^ 33) (ts : UInt32) :
    (d.boxUsOf ts).2.seen = true ∧ mark d ≤ mark (d.boxUsOf ts).2 ∧
      mark (d.boxUsOf ts).2 < 2 ^ 32 + since.length * 2 ^ 31 ∧
      (d.boxUsOf ts).1.toNat ≤ mark (d.boxUsOf ts).2 ∧
      mark (d.boxUsOf ts).2 < (d.boxUsOf ts).1.toNat + 2 ^ 31 := by
  by_cases hs : since = []
  · subst hs
    rw [h.fresh rfl]
    obtain ⟨hseen, hmark, hbox⟩ := boxUsOf_default ts
    have hts := ts.toNat_lt
    have hzero : mark {} = 0 := rfl
    rw [hmark, hbox, hzero]
    exact ⟨hseen, Nat.zero_le _, by simpa using hts, le_rfl, by omega⟩
  · obtain ⟨hseen, hroom⟩ := h.room hs (by omega)
    obtain ⟨hseen', hle, hnear, hbox, hback⟩ := boxUsOf_near d hseen (by omega) ts
    exact ⟨hseen', hle, by omega, hbox, hback⟩

/-- What an observation of a domain is mapped to, after those since the reset and the latest. -/
structure Placed (origin : Nat) (d : DomainState) (since : List Sample) (latest : Option Sample)
    (x : Sample) : Prop where
  host_le : x.stamped.host ≤ x.now
  le_host : origin ≤ x.stamped.host
  floor : ∃ floor, d.floor = some floor ∧
    (Buckets.recent 4096 ((since ++ [x]).map (Sample.lag origin))).min? = some floor ∧
    floor ≤ x.lag origin ∧
    (x.stamped.excess : Int) = min (x.lag origin - floor) (2 ^ 64 - 1) ∧
    (since.length + 1 < 2 ^ 33 → (x.stamped.excess : Int) = x.lag origin - floor)
  held : ∀ p ∈ latest, p.stamped.host ≤ x.stamped.host ∨
    x.stamped.host + 1000000 < p.stamped.host

/-- Box times in the window are ahead of this one by less than half the range. -/
theorem Heard.excess_lt {d : DomainState} (h : Heard origin clock d since latest)
    (hnow : now < origin + 2 ^ 63) (hfew : since.length + 1 < 2 ^ 33) (ts : UInt32) {floor : Int}
    (hmem : floor ∈ since.map (Sample.lag origin) ++ [lag (now - origin) (d.boxUsOf ts).1]) :
    lag (now - origin) (d.boxUsOf ts).1 - floor < 2 ^ 64 := by
  obtain ⟨-, hle, -, -, hback⟩ := h.boxUsOf hfew ts
  obtain hold | hnew := List.mem_append.mp hmem
  · obtain ⟨y, hy, rfl⟩ := List.mem_map.mp hold
    have hmark := h.marked (by omega) y hy
    simp only [Sample.lag, lag]
    omega
  · rw [List.mem_singleton.mp hnew]
    omega

theorem Heard.observe (h : Heard origin clock (t.domains domain) since latest)
    (ht : t.origin = origin) (hclock : clock ≤ now) (ho : origin ≤ now) (hnow : now < origin + 2 ^ 63)
    (ts : UInt32) :
    let x : Sample := ⟨now, (t.observeStamp ts domain now).1⟩
    let d := (t.observeStamp ts domain now).2.domains domain
    Placed origin d since latest x ∧ Heard origin now d (since ++ [x]) (some x) := by
  subst ht
  obtain ⟨hbuckets, hmark, -, hseen, hhost⟩ := pushed_spec t ts domain now h.filled.count_lt
  have hfilled := h.filled.push (lag (now - t.origin) ((t.domains domain).boxUsOf ts).1)
  rw [← hbuckets] at hfilled
  obtain ⟨floor, hfloor, hmin, hle, hmem⟩ := hfilled.least
  have hbox := fun hfew => h.boxUsOf hfew ts
  have hexcess := fun hfew => h.excess_lt hnow hfew ts hmem
  rw [observeStamp_eq]
  dsimp only
  rw [floor_buckets, hfloor, Option.getD_some, Timeline.set_same]
  generalize Clock.pushed t ts domain now = d at *
  generalize (t.domains domain).boxUsOf ts = r at *
  have hraw : (clampNs (r.1.toNat * 1000 + floor)).toNat ≤ now - t.origin := by
    rw [toNat_clampNs]
    simp only [lag] at hle
    omega
  obtain ⟨hge, hmax, hheld⟩ := @hostNs_spec _ d.lastHostNs
    (show (clampNs (r.1.toNat * 1000 + floor)).toNat < 2 ^ 63 by omega)
  have hlast := h.lastHost
  rw [← hhost] at hlast
  generalize (if _ < d.lastHostNs then _ else _ : UInt64) = host at *
  have hhost_le : t.origin + host.toNat ≤ now := by omega
  have hclamped : ((clampNs (lag (now - t.origin) r.1 - floor)).toNat : Int) =
      min (lag (now - t.origin) r.1 - floor) (2 ^ 64 - 1) := by
    rw [toNat_clampNs]
    omega
  refine ⟨⟨hhost_le, Nat.le_add_right _ _, ⟨floor, ?_, ?_, hle, hclamped, fun hfew => ?_⟩, ?_⟩, ?_⟩
  · rw [floor_buckets, buckets_lastHostNs]
    exact hfloor
  · rw [List.map_append]
    exact hmin
  · have hlt := hexcess hfew
    exact hclamped.trans (by simp only [Sample.lag]; omega)
  · intro p hp
    by_cases hs : since = []
    -- The first after a reset is placed at its arrival.
    · subst hs
      rw [List.mem_singleton.mp hmem, toNat_clampNs] at hge
      have hpast := h.past p hp
      simp only [lag] at hge ⊢
      omega
    · have hp' := h.host hs p hp
      rw [← hhost] at hp'
      simp only [hp']
      omega
  · refine ⟨?_, fun hn => absurd hn (by simp), fun _ x hx => ?_, fun x hx => ?_, hhost_le,
      fun x hx => ?_, fun hfew x hx => ?_, fun _ hfew => ?_⟩
    · rw [List.map_append, buckets_lastHostNs]
      exact hfilled
    · cases hx
      rfl
    · cases hx
      exact hhost_le
    · obtain hold | hnew := List.mem_append.mp hx
      · exact (h.arrived x hold).trans hclock
      · rw [List.mem_singleton.mp hnew]
    · rw [List.length_append, List.length_singleton] at hfew
      obtain ⟨-, hstep, -, hnear, -⟩ := hbox hfew
      obtain hold | hnew := List.mem_append.mp hx
      · have hold' := h.marked (by omega) x hold
        rw [mark_lastHostNs, hmark]
        exact hold'.trans hstep
      · rw [List.mem_singleton.mp hnew, mark_lastHostNs, hmark]
        exact hnear
    · rw [List.length_append, List.length_singleton] at hfew ⊢
      obtain ⟨hs, -, hroom, -, -⟩ := hbox hfew
      refine ⟨hseen.trans hs, ?_⟩
      rw [mark_lastHostNs]
      omega

theorem Heard.mono {d : DomainState} (h : Heard origin clock d since latest) (hle : clock ≤ now) :
    Heard origin now d since latest :=
  ⟨h.filled, h.fresh, h.host, fun x hx => (h.past x hx).trans hle, h.lastHost.trans hle,
    fun x hx => (h.arrived x hx).trans hle, h.marked, h.room⟩

/-- Once reset the domain starts over; only what it was last mapped to is past. -/
theorem Heard.reset {d : DomainState} (h : Heard origin clock d since latest) (ho : origin ≤ clock) :
    Heard origin clock {} [] latest :=
  ⟨.start (by decide), fun _ => rfl, fun hn => absurd rfl hn, h.past, ho, nofun, fun _ => nofun,
    fun hn => absurd rfl hn⟩

end Step

structure Recorded (origin clock : Nat) (r : Record) : Prop where
  anchored : r.timeline.origin = origin
  heard : ∀ domain, Heard origin clock (r.timeline.domains domain) (r.since domain) (r.latest domain)

theorem run_concat (origin : Nat) (acts : List Act) (a : Act) :
    run origin (acts ++ [a]) = (run origin acts).step a := List.foldl_concat ..

theorem observeStamp_timeline (t : Timeline) (ts : UInt32) (domain : ClockDomain) (now : Nat) :
    (t.observeStamp ts domain now).2.origin = t.origin ∧
      ∀ e, e ≠ domain → (t.observeStamp ts domain now).2.domains e = t.domains e := by
  rw [observeStamp_eq]
  exact ⟨rfl, fun e he => t.set_of_ne _ he⟩

theorem Recorded.mono {origin clock now : Nat} {r : Record} (h : Recorded origin clock r)
    (hle : clock ≤ now) : Recorded origin now r := ⟨h.anchored, fun e => (h.heard e).mono hle⟩

theorem Recorded.observe {origin now : Nat} {r : Record} (h : Recorded origin now r)
    (ho : origin ≤ now) (hlt : now < origin + 2 ^ 63) (ts : UInt32) (domain : ClockDomain) :
    Recorded origin now (r.step (.observe ts domain now)) := by
  obtain ⟨horigin, hother⟩ := observeStamp_timeline r.timeline ts domain now
  refine ⟨horigin.trans h.anchored, fun e => ?_⟩
  by_cases he : e = domain
  · subst he
    simpa [Record.step] using ((h.heard e).observe h.anchored le_rfl ho hlt ts).2
  · simpa [Record.step, Function.update_of_ne he, hother e he] using h.heard e

theorem Recorded.reset {origin clock : Nat} {r : Record} (h : Recorded origin clock r)
    (ho : origin ≤ clock) (domain : ClockDomain) :
    Recorded origin clock (r.step (.reset domain)) := by
  refine ⟨h.anchored, fun e => ?_⟩
  by_cases he : e = domain
  · subst he
    simpa [Record.step, Timeline.reset] using (h.heard e).reset ho
  · simpa [Record.step, Function.update_of_ne he, Timeline.reset, Timeline.set_of_ne _ _ he]
      using h.heard e

theorem Arriving.of_concat {origin : Nat} {acts : List Act} {a : Act}
    (h : Arriving origin (acts ++ [a])) : Arriving origin acts ∧
      ∀ now, a.arrival = some now →
        origin ≤ now ∧ now < origin + 2 ^ 63 ∧ ∀ b ∈ arrivals acts, b ≤ now := by
  obtain ⟨hsorted, hwithin⟩ := h
  rw [arrivals, List.filterMap_append] at hsorted hwithin
  obtain ⟨hacts, -, hle⟩ := List.pairwise_append.mp hsorted
  refine ⟨⟨hacts, fun b hb => hwithin b (List.mem_append_left _ hb)⟩, fun now hnow => ?_⟩
  have hmem : now ∈ List.filterMap Act.arrival [a] := by simp [hnow]
  obtain ⟨ho, hlt⟩ := hwithin now (List.mem_append_right _ hmem)
  exact ⟨ho, hlt, fun b hb => hle b hb now hmem⟩

theorem run_recorded {origin : Nat} {acts : List Act} (h : Arriving origin acts) {clock : Nat}
    (ho : origin ≤ clock) (hclock : ∀ a ∈ arrivals acts, a ≤ clock) :
    Recorded origin clock (run origin acts) := by
  induction acts using List.reverseRecOn generalizing clock with
  | nil =>
    exact ⟨rfl, fun _ => ⟨.start (by decide), fun _ => rfl, fun hn => absurd rfl hn, nofun, ho, nofun,
      fun _ => nofun, fun hn => absurd rfl hn⟩⟩
  | append_singleton acts a ih =>
    obtain ⟨hacts, hlast⟩ := h.of_concat
    rw [arrivals, List.filterMap_append] at hclock
    rw [run_concat]
    cases a with
    | observe ts domain now =>
      obtain ⟨hnow, hlt, hle⟩ := hlast now rfl
      exact ((ih hacts hnow hle).observe hnow hlt ts domain).mono
        (hclock now (List.mem_append_right _ (List.mem_singleton_self now)))
    | reset domain =>
      exact (ih hacts ho fun b hb => hclock b (List.mem_append_left _ hb)).reset ho domain

/-- After any observations and resets, the next observation is placed so. -/
theorem observeStamp_placed {origin : Nat} {acts : List Act} {ts : UInt32} {domain : ClockDomain}
    {now : Nat} (h : Arriving origin (acts ++ [.observe ts domain now])) :
    let r := run origin acts
    let p := r.timeline.observeStamp ts domain now
    Placed origin (p.2.domains domain) (r.since domain) (r.latest domain) ⟨now, p.1⟩ := by
  obtain ⟨hacts, hlast⟩ := h.of_concat
  obtain ⟨ho, hlt, hle⟩ := hlast now rfl
  have hr := run_recorded hacts ho hle
  exact ((hr.heard domain).observe hr.anchored le_rfl ho hlt ts).1

def early : Record := run 0 [.observe 1000 .hostChip 10000000]

theorem early_placed :
    let p := early.timeline.observeStamp 2000 .hostChip 37000000
    Placed 0 (p.2.domains .hostChip) (early.since .hostChip) (early.latest .hostChip)
      ⟨37000000, p.1⟩ ∧ p.1.excess = 26000000 :=
  ⟨observeStamp_placed ⟨by simp [arrivals, Act.arrival], by simp [arrivals, Act.arrival]⟩, rfl⟩

/-- `n` observations at the origin, each ahead of the one before by half the range. -/
def strides : Nat → List Act
  | 0 => []
  | n + 1 => strides n ++ [.observe (UInt64.ofNat ((n + 1) * 2 ^ 31)).toUInt32 .hostChip 0]

theorem arrivals_strides (n : Nat) : ∀ a ∈ arrivals (strides n), a = 0 := by
  induction n with
  | zero => nofun
  | succ n ih =>
    intro a ha
    rw [strides, arrivals, List.filterMap_append] at ha
    obtain hold | hnew := List.mem_append.mp ha
    · exact ih a hold
    · exact List.mem_singleton.mp hnew

theorem arriving_strides (n : Nat) : Arriving 0 (strides n) := by
  have h := arrivals_strides n
  refine ⟨List.pairwise_iff_forall_sublist.mpr fun {a b} hs => ?_, fun a ha => by simp [h a ha]⟩
  rw [h a (hs.subset (by simp)), h b (hs.subset (by simp))]

theorem toNat_stride {n : Nat} (h : n < 2 ^ 33) :
    (UInt64.ofNat (n * 2 ^ 31)).toNat = n * 2 ^ 31 := by
  apply UInt64.toNat_ofNat_of_lt'
  simp only [UInt64.size]
  omega

theorem Unwrapped.observeStamp {base latest : Nat} {t : Timeline} {ts : UInt32}
    {domain : ClockDomain} (h : Unwrapped base latest ((t.domains domain).boxUsOf ts).2)
    (hblock : (buckets (t.domains domain)).count < 4096) (now : Nat) :
    Unwrapped base latest ((t.observeStamp ts domain now).2.domains domain) := by
  obtain ⟨-, hmark, hlast, hseen, -⟩ := pushed_spec t ts domain now hblock
  have hhigh := h.high
  rw [observeStamp_eq]
  dsimp only
  rw [Timeline.set_same]
  refine ⟨hseen.trans h.seen, (congrArg UInt32.toNat hlast).trans h.low, ?_⟩
  unfold Clock.mark at hmark
  dsimp only
  omega

theorem run_strides {n : Nat} (h : n < 2 ^ 33) :
    (n = 0 → (run 0 (strides n)).timeline.domains .hostChip = {}) ∧
      (0 < n → Unwrapped 0 (n * 2 ^ 31) ((run 0 (strides n)).timeline.domains .hostChip) ∧
        ∃ xs x, (run 0 (strides n)).since .hostChip = xs ++ [x] ∧
          x.lag 0 = -((n * 2 ^ 31 * 1000 : Nat) : Int)) := by
  induction n with
  | zero => exact ⟨fun _ => rfl, nofun⟩
  | succ n ih =>
    refine ⟨nofun, fun _ => ?_⟩
    obtain ⟨hzero, hpos⟩ := ih (by omega)
    have hr := run_recorded (arriving_strides n) (le_refl 0) fun a ha =>
      (arrivals_strides n a ha).le
    have hblock := (hr.heard .hostChip).filled.count_lt
    have ht := toNat_stride h
    rw [strides, run_concat]
    generalize run 0 (strides n) = r at *
    generalize UInt64.ofNat ((n + 1) * 2 ^ 31) = t at *
    have hstep : ((r.timeline.domains .hostChip).boxUsOf t.toUInt32).1.toNat = t.toNat - 0 ∧
        Unwrapped 0 t.toNat ((r.timeline.domains .hostChip).boxUsOf t.toUInt32).2 := by
      obtain hn | hn := Nat.eq_zero_or_pos n
      · rw [hzero hn]
        exact Unwrapped.first (by rw [ht, hn]; rfl)
      · exact (hpos hn).1.forward (by omega) (by omega)
    rw [ht] at hstep
    refine ⟨?_, r.since .hostChip, ⟨0, (r.timeline.observeStamp t.toUInt32 .hostChip 0).1⟩, ?_, ?_⟩
    · simpa [Record.step] using hstep.2.observeStamp hblock 0
    · simp [Record.step]
    · rw [observeStamp_eq, Sample.lag, lag, hstep.1]
      simp

/-- One stride more and the box time is past what 64 bits hold. -/
theorem boxUsOf_overflow {d : DomainState} (h : Unwrapped 0 (2 ^ 64 - 2 ^ 31) d) :
    (d.boxUsOf 0).1.toNat = 0 := by
  have hlow := h.low
  have hhigh := h.high
  have hle : (0 - d.last).toNat ≤ 2 ^ 31 := by
    rw [UInt32.toNat_sub, hlow]
    decide
  have hlt : 0 < d.last := by
    rw [UInt32.lt_iff_toNat_lt, hlow]
    decide
  rw [boxUsOf_forward h.seen hle, if_pos hlt]
  dsimp only
  rw [UInt64.toNat_add, UInt64.toNat_add, UInt32.toNat_toUInt64]
  change ((_ + 4294967296) % _ + 0) % _ = 0
  omega

theorem excess_strides {n : Nat} (hn : n + 1 = 2 ^ 33) :
    Arriving 0 (strides n ++ [.observe 0 .hostChip 0]) ∧
      let p := (run 0 (strides n)).timeline.observeStamp 0 .hostChip 0
      ∃ floor, (p.2.domains .hostChip).floor = some floor ∧
        (p.1.excess : Int) < Sample.lag 0 ⟨0, p.1⟩ - floor := by
  have harr : Arriving 0 (strides n ++ [.observe 0 .hostChip 0]) := by
    have h := arriving_strides (n + 1)
    rwa [strides, hn] at h
  refine ⟨harr, ?_⟩
  obtain ⟨hu, xs, x, hsince, hx⟩ := (run_strides (by omega : n < 2 ^ 33)).2 (by omega)
  obtain ⟨-, -, ⟨floor, hfloor, hmin, -, hexcess, -⟩, -⟩ := observeStamp_placed harr
  dsimp only
  refine ⟨floor, hfloor, ?_⟩
  have hbox : Sample.lag 0 ⟨0, ((run 0 (strides n)).timeline.observeStamp 0 .hostChip 0).1⟩ = 0 := by
    have hzero := boxUsOf_overflow (d := (run 0 (strides n)).timeline.domains .hostChip)
      (by rwa [show n * 2 ^ 31 = 2 ^ 64 - 2 ^ 31 by omega] at hu)
    rw [observeStamp_eq, Sample.lag, lag]
    simp [hzero]
  have hle : floor ≤ x.lag 0 := by
    refine (Buckets.mem_and_le_of_min? hmin).2 _ ?_
    rw [hsince, List.append_assoc, List.map_append]
    exact Buckets.mem_recent_append (by simp) (by simp)
  rw [hbox] at hexcess ⊢
  dsimp only at hexcess
  omega

/-- 2^33 observations of one domain. -/
theorem excess_capped :
    Arriving 0 (strides 8589934591 ++ [.observe 0 .hostChip 0]) ∧
      let p := (run 0 (strides 8589934591)).timeline.observeStamp 0 .hostChip 0
      ∃ floor, (p.2.domains .hostChip).floor = some floor ∧
        (p.1.excess : Int) < Sample.lag 0 ⟨0, p.1⟩ - floor :=
  excess_strides (by norm_num)

end Medius.Clock
