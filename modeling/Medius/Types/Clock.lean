import Mathlib.Logic.Function.Basic
import Medius.Types.Event

/-! Box stamps unwrapped and placed on this machine's clock. -/

namespace Medius.Types

/-- `host` is an instant and `excess` a duration, both in nanoseconds. -/
structure Stamped where
  host : Nat
  boxUs : UInt64
  excess : Nat
  deriving DecidableEq

abbrev floorBlock : UInt32 := 4096

abbrev resyncNs : UInt64 := 1000000

abbrev halfRange : UInt32 := 0x80000000

def saturatingSub (a b : UInt64) : UInt64 := if a < b then 0 else a - b

/-- Into what a nanosecond counter holds. -/
def clampNs (v : Int) : UInt64 := .ofNat (min (max v 0).toNat (UInt64.size - 1))

structure DomainState where
  epoch : UInt64 := 0
  last : UInt32 := 0
  seen : Bool := false
  minNow : Option Int := none
  minPrev : Option Int := none
  block : UInt32 := 0
  lastHostNs : UInt64 := 0
  samples : UInt64 := 0
  deriving DecidableEq

namespace DomainState

def floor (d : DomainState) : Option Int :=
  match d.minNow, d.minPrev with
  | some a, some b => some (min a b)
  | a, b => a.or b

def pushLag (d : DomainState) (lagNs : Int) : Int × DomainState :=
  let d := { d with
    minNow := some (match d.minNow with
      | some m => min m lagNs
      | none => lagNs)
    block := d.block + 1 }
  let d := if floorBlock ≤ d.block then { d with minPrev := d.minNow, minNow := none, block := 0 }
    else d
  (d.floor.getD lagNs, d)

/-- A backward step under half the range is an event out of order: it keeps its place, and the
high-water mark is unchanged. -/
def boxUsOf (d : DomainState) (raw : UInt32) : UInt64 × DomainState :=
  if d.seen = false then (d.epoch + raw.toUInt64, { d with seen := true, last := raw })
  else if raw - d.last ≤ halfRange then
    let epoch := if raw < d.last then d.epoch + 0x100000000 else d.epoch
    (epoch + raw.toUInt64, { d with epoch := epoch, last := raw })
  else (saturatingSub (d.epoch + d.last.toUInt64) (d.last - raw).toUInt64, d)

end DomainState

structure Timeline where
  origin : Nat
  domains : ClockDomain → DomainState

namespace Timeline

def new (origin : Nat) : Timeline := ⟨origin, fun _ => {}⟩

def set (t : Timeline) (domain : ClockDomain) (d : DomainState) : Timeline :=
  { t with domains := Function.update t.domains domain d }

@[simp] theorem set_origin (t : Timeline) (domain : ClockDomain) (d : DomainState) :
    (t.set domain d).origin = t.origin := rfl

@[simp] theorem set_same (t : Timeline) (domain : ClockDomain) (d : DomainState) :
    (t.set domain d).domains domain = d := Function.update_self ..

theorem set_of_ne (t : Timeline) {domain e : ClockDomain} (d : DomainState) (h : e ≠ domain) :
    (t.set domain d).domains e = t.domains e := Function.update_of_ne h ..

def boxUsOf (t : Timeline) (raw : UInt32) (domain : ClockDomain) : UInt64 × Timeline :=
  let (boxUs, d) := (t.domains domain).boxUsOf raw
  (boxUs, t.set domain d)

def observeStamp (t : Timeline) (tsUs : UInt32) (domain : ClockDomain) (now : Nat) :
    Stamped × Timeline :=
  let (boxUs, t) := t.boxUsOf tsUs domain
  let elapsedNs : Int := (now - t.origin : Nat)
  let boxNs : Int := boxUs.toNat * 1000
  let lagNs := elapsedNs - boxNs
  let d := { t.domains domain with samples := (t.domains domain).samples + 1 }
  let (floor, d) := d.pushLag lagNs
  let rawHostNs := clampNs (boxNs + floor)
  -- A small correction is absorbed, a large one taken.
  let hostNs := if rawHostNs + resyncNs < d.lastHostNs then rawHostNs
    else max rawHostNs d.lastHostNs
  (⟨t.origin + hostNs.toNat, boxUs, (clampNs (lagNs - floor)).toNat⟩,
    t.set domain { d with lastHostNs := hostNs })

def reset (t : Timeline) (domain : ClockDomain) : Timeline := t.set domain {}

def samples (t : Timeline) (domain : ClockDomain) : UInt64 := (t.domains domain).samples

end Timeline

end Medius.Types
