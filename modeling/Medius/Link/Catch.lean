import Medius.Error
import Medius.Link.Reconcile
import Medius.Mock.CatchTable

/-! The `CATCH` registry: the union of every subscription's filters, and the frames that take
the box's table from one union to the next. -/

namespace Medius.Link

open Protocol Mock Medius.Types

namespace FilterSet

def filters (set : FilterSet) : List CatchFilter := set.toList.map Prod.snd

end FilterSet

def collapseInto (out : FilterSet) (f : CatchFilter) : FilterSet :=
  match out[f.key]? with
  | some e => out.insert f.key (e.withCapture (e.capture.widest f.capture))
  | none => out.insert f.key f

/-- One entry an address, keeping the widest capture. -/
def collapse (filters : List CatchFilter) : FilterSet := filters.foldl collapseInto ∅

/-- Whether `o` covers `f`'s address and is no more specific. -/
def covers (o f : CatchFilter) : Bool :=
  let classOk := match o.class_, f.class_ with
    | none, _ => true
    | some oc, some fc => oc = fc
    | some _, none => false
  let idOk := match o.id, f.id with
    | none, _ => true
    | some oi, some fi => oi = fi
    | some _, none => false
  if !(classOk && idOk) then false
  else if o.class_ = f.class_ ∧ o.id = f.id then o.direction = .both
  else o.direction.admits f.direction

abbrev CatchAddress := Option CatchClass × Option UInt16

def entryAt (set : FilterSet) (a : CatchAddress) (dir : Direction) : Option CatchFilter :=
  (FilterSet.filters set).find? fun f => f.class_ = a.1 && f.id = a.2 && f.direction = dir

/-- One entry for both directions, widened by one that already stood there. -/
def mergedSibling (pos neg : CatchFilter) (both : Option CatchFilter) : CatchFilter :=
  let merged := (pos.withDirection .both).withCapture (pos.capture.widest neg.capture)
  match both with
  | some both => merged.withCapture (merged.capture.widest both.capture)
  | none => merged

def mergeSiblings (set : FilterSet) (a : CatchAddress) : FilterSet :=
  match entryAt set a .positive, entryAt set a .negative with
  | some pos, some neg =>
    let merged := mergedSibling pos neg (entryAt set a .both)
    ((set.erase pos.key).erase neg.key).insert merged.key merged
  | _, _ => set

/-- The addresses are read before any merge. -/
def collapseOppositeSiblings (set : FilterSet) : FilterSet :=
  (((FilterSet.filters set).filter fun f => f.direction ≠ .both).map
    fun f => (f.class_, f.id)).foldl mergeSiblings set

structure CatchSub where
  id : Nat
  filters : FilterSet

structure CatchReg where
  subs : List CatchSub

namespace CatchReg

def all (reg : CatchReg) : List CatchFilter := reg.subs.flatMap fun s => FilterSet.filters s.filters

def widen (all : List CatchFilter) (f : CatchFilter) : CatchFilter :=
  f.withCapture ((all.filter (covers · f)).foldl (fun acc o => acc.widest o.capture) f.capture)

/-- Each entry keeps as much as the widest filter covering it. -/
def effective (reg : CatchReg) : FilterSet :=
  collapseOppositeSiblings ((collapse reg.all).map fun _ f => widen reg.all f)

def push (reg : CatchReg) (sub : CatchSub) : CatchReg := ⟨reg.subs ++ [sub]⟩

def retainOthers (reg : CatchReg) (id : Nat) : CatchReg := ⟨reg.subs.filter fun s => s.id ≠ id⟩

end CatchReg

def catchFrame (state : UInt8) (f : CatchFilter) : List UInt8 :=
  catchPayload f.wire.1 f.wire.2 f.direction.asU8 state f.capture.asU8

def clearFrame : List UInt8 := catchPayload catchClsAny catchIdAny 0 0 0

/-- Unsubscribing a wildcard is byte for byte the box's whole-table clear. -/
def wildcardRemoved (prev next : FilterSet) : Bool :=
  prev.toList.any fun (key, f) => f.class_.isNone && !next.contains key

def removedEntries (prev next : FilterSet) : List (FilterKey × CatchFilter) :=
  prev.toList.filter fun (key, f) =>
    !(next.contains key || (f.class_.isNone && wildcardRemoved prev next))

/-- After a whole-table clear every entry is new again. -/
def addedEntries (prev next : FilterSet) : List (FilterKey × CatchFilter) :=
  next.toList.filter fun (key, f) =>
    !(!wildcardRemoved prev next && prev[key]?.any fun had => had.capture = f.capture)

/-- The frames that change the box's table from one union to another, in the order sent. -/
def catchSync (prev next : FilterSet) : List (List UInt8) :=
  (removedEntries prev next).map (fun e => catchFrame 0 e.2) ++
    (if wildcardRemoved prev next then [clearFrame] else []) ++
    (addedEntries prev next).map fun e => catchFrame 1 e.2

/-- The control PC's side of the stream, and the table the box holds. -/
structure CatchLink where
  events : CatchReg
  catchGen : Nat
  desired : DesiredState
  box : CatchTable

namespace CatchLink

/-- Sends frames until the write of one fails, where one does. -/
def sendFrames (l : CatchLink) (frames : List (List UInt8)) (fail : Option Nat) :
    CatchLink × Except Error Unit :=
  match fail with
  | some k =>
    ({ l with box := l.box.applyFrames (frames.take k) },
      if k < frames.length then .error .io else .ok ())
  | none => ({ l with box := l.box.applyFrames frames }, .ok ())

def detachSub (l : CatchLink) (id : Nat) : CatchLink × FilterSet :=
  let events := l.events.retainOthers id
  ({ l with events, desired := l.desired.setCatch events.effective }, events.effective)

/-- Refused before any send when the union does not fit; a failed send narrows the box back to
the union before it. -/
def catchSubscribe (l : CatchLink) (filters : FilterSet) (fail : Option Nat) :
    CatchLink × Except Error Nat :=
  let id := l.catchGen
  let prev := l.events.effective
  let l := { l with catchGen := id + 1, events := l.events.push ⟨id, filters⟩ }
  let effective := l.events.effective
  if effective.size > catchMaxEntries then
    ({ l with events := l.events.retainOthers id },
      .error (.catchTableFull effective.size catchMaxEntries))
  else
    let l := { l with desired := l.desired.setCatch effective }
    match l.sendFrames (catchSync prev effective) fail with
    | (l, .ok ()) => (l, .ok id)
    | (l, .error e) =>
      let (l, restored) := l.detachSub id
      ((l.sendFrames (catchSync effective restored) none).1, .error e)

def catchUnsubscribe (l : CatchLink) (id : Nat) : CatchLink :=
  let prev := l.events.effective
  let (l, effective) := l.detachSub id
  (l.sendFrames (catchSync prev effective) none).1

end CatchLink

end Medius.Link
