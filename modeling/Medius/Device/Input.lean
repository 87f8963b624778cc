import Medius.Types.Event

/-! Held-usage snapshots decoded into edges. -/

namespace Medius.Device

open Medius.Types

/-- What an input stream remembers: the usages held in each class, and what has not been
received. -/
structure Decoded where
  held : Types.Class → List Usage
  pending : List InputEvent

/-- A snapshot may list usages other streams asked for, and one of another class would never be
released. -/
def subscribed (filters : List CatchFilter) (class_ : Types.Class) (usage : Usage) : Bool :=
  usage.class_ = class_ && filters.any fun f => f.matches_ class_.toCatch usage.id .both

namespace Decoded

def default : Decoded := ⟨fun _ => [], []⟩

/-- The subscribed usages of a snapshot, each once. -/
def listed (filters : List CatchFilter) (u : UsageSnapshot) : List Usage :=
  u.usages.foldl (fun now usage =>
    if subscribed filters u.class_ usage ∧ usage ∉ now then now ++ [usage] else now) []

/-- Releases first: within one report a swap reads as one usage up, another down. -/
def pump (filters : List CatchFilter) (d : Decoded) : CatchEvent → Decoded
  | .motion m =>
    if m.axes.isEmpty then d
    else { d with pending := d.pending ++ [⟨m.tsUs, m.clock, .motion m.dx m.dy m.dz m.pan⟩] }
  | .usages u =>
    let now := listed filters u
    let was := d.held u.class_
    let edge := InputEvent.mk u.tsUs u.clock
    { held := Function.update d.held u.class_ now
      pending := d.pending ++ (was.filter (· ∉ now)).map (fun old => edge (.release old)) ++
        (now.filter (· ∉ was)).map fun fresh => edge (.press fresh) }
  | .traffic _ => d

def pop (d : Decoded) : Option InputEvent × Decoded :=
  (d.pending.head?, { d with pending := d.pending.tail })

end Decoded

end Medius.Device
