import Medius.Lib.Steps

/-! When the box releases what it holds for the host, and which releases it counts. -/

namespace Medius.Mock

/-- `counter` is the session counter; `dirty` that a command has come since it last counted.
What the box does later, unprompted: the clone is up after a boot (`cloneDue`), a detach's grace
ends, a presentation asked for takes place, held until the grace ends. -/
structure Session (α : Type) where
  held : α
  counter : UInt16 := 0
  dirty : Bool := false
  cloneUp : Bool := true
  cloneDue : Bool := false
  grace : Bool := false
  deviceBack : Bool := false
  representHeld : Bool := false
  representDue : Bool := false

/-- `changed`: the clone would be presented with other patches than it was. -/
inductive SessionEvent
  | cloneReady
  | graceOver (changed : Bool)
  | represent (changed : Bool)
  | representLater
  | representDue (changed : Bool)
  | linkLost
  | detach (back : Bool)
  | attach
  deriving DecidableEq

namespace Session

variable {α : Type}

def markDirty (s : Session α) : Session α := { s with dirty := true }

def countRelease (s : Session α) : Session α :=
  { s with counter := if s.dirty then s.counter + 1 else s.counter, dirty := false }

variable (release : α → α)

def releaseSession (s : Session α) : Session α := { s with held := release s.held }

def tearDown (s : Session α) : Session α :=
  { s.countRelease.releaseSession release with cloneUp := false }

def presentPatches (s : Session α) (changed : Bool) : Session α :=
  if s.grace then { s with representHeld := true }
  else if changed then s.countRelease.releaseSession release
  else s

def graceOver (s : Session α) (changed : Bool) : Session α :=
  let s := { s with grace := false, representHeld := false }
  if s.deviceBack then s.presentPatches release changed else s.tearDown release

/-- With the device back at the end of its grace only a presentation that was held takes place. -/
def advance (s : Session α) : SessionEvent → Session α
  | .cloneReady => if s.cloneDue then { s with cloneDue := false, cloneUp := true } else s
  | .graceOver changed =>
    if s.grace then s.graceOver release (changed && s.representHeld) else s
  | .representDue changed =>
    if s.representDue then { s with representDue := false }.presentPatches release changed else s
  | .represent changed => s.presentPatches release changed
  | .representLater => { s with representDue := true }
  | .linkLost => s.countRelease.releaseSession release
  | .detach back =>
    let s := s.countRelease.releaseSession release
    if back then s else { s with grace := true, deviceBack := false }
  | .attach =>
    if s.grace then { s with deviceBack := true }
    else if s.cloneUp then s
    else { s with cloneUp := true }

/-- A boot of the device chip. -/
def restart (s : Session α) : Session α :=
  { s.releaseSession release with
    counter := 0
    dirty := false
    cloneUp := false
    cloneDue := true
    grace := false
    representHeld := false
    representDue := false }

/-- What an event leaves: the session as it was and a clone that is up still up, or the session
released, and counted if a command had come. -/
inductive Advanced (s s' : Session α) : Prop
  | kept : s'.held = s.held → s'.counter = s.counter → s'.dirty = s.dirty →
      (s.cloneUp = true → s'.cloneUp = true) → Advanced s s'
  | released : s'.held = release s.held →
      s'.counter = (if s.dirty then s.counter + 1 else s.counter) → s'.dirty = false →
      Advanced s s'

theorem advanced_presentPatches (s : Session α) (changed : Bool) :
    Advanced release s (s.presentPatches release changed) := by
  unfold presentPatches
  split
  · exact .kept rfl rfl rfl id
  · split
    · exact .released rfl rfl rfl
    · exact .kept rfl rfl rfl id

theorem Advanced.of_eq {release : α → α} {s s' t : Session α} (h : Advanced release s' t)
    (hheld : s'.held = s.held) (hcounter : s'.counter = s.counter) (hdirty : s'.dirty = s.dirty)
    (hup : s'.cloneUp = s.cloneUp) : Advanced release s t := by
  cases h with
  | kept h h' h'' hu =>
    refine .kept (h.trans hheld) (h'.trans hcounter) (h''.trans hdirty) fun hs => hu ?_
    exact hup.trans hs
  | released h h' h'' =>
    rw [hheld] at h
    rw [hcounter, hdirty] at h'
    exact .released h h' h''

theorem advanced (s : Session α) (e : SessionEvent) :
    Advanced release s (s.advance release e) := by
  cases e with
  | cloneReady =>
    simp only [advance]
    split
    · exact .kept rfl rfl rfl fun _ => rfl
    · exact .kept rfl rfl rfl id
  | graceOver changed =>
    simp only [advance, graceOver]
    split
    · split
      · exact (advanced_presentPatches release _ _).of_eq rfl rfl rfl rfl
      · exact .released rfl rfl rfl
    · exact .kept rfl rfl rfl id
  | represent changed => exact advanced_presentPatches release s changed
  | representLater => exact .kept rfl rfl rfl id
  | representDue changed =>
    simp only [advance]
    split
    · exact (advanced_presentPatches release _ _).of_eq rfl rfl rfl rfl
    · exact .kept rfl rfl rfl id
  | linkLost => exact .released rfl rfl rfl
  | detach back => cases back <;> exact .released rfl rfl rfl
  | attach =>
    simp only [advance]
    split
    · exact .kept rfl rfl rfl id
    · split
      · exact .kept rfl rfl rfl id
      · exact .kept rfl rfl rfl fun _ => rfl

end Session

end Medius.Mock
