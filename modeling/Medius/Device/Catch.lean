import Medius.Link.Catch

namespace Medius.Device

open Protocol Link Medius.Types

theorem class_of_meaningless {f : CatchFilter} (h : !f.captureIsMeaningful) : f.class_.isSome := by
  cases hc : f.class_ with
  | none => simp [CatchFilter.captureIsMeaningful, hc] at h
  | some c => rfl

/-- An id is exact where the wire carries it as it is. -/
def isExact (f : CatchFilter) : Bool := f.id = some f.wire.2

theorem class_of_exact {f : CatchFilter} (h : isExact f) : f.class_.isSome := by
  cases hc : f.class_ with
  | none => simp [isExact, f.id_of_class hc] at h
  | some c => rfl

/-- Checks a subscription and collapses it to one entry a slot of the box's table. -/
def prepare (wanted : List CatchFilter) : Except Error FilterSet :=
  if wanted.isEmpty then .error .emptySubscription
  else
    match wanted.find? fun f => f.direction.isRelative with
    | some f => .error (.relativeDirection f.direction "catch subscription")
    | none =>
      match hm : wanted.find? fun f => !f.captureIsMeaningful with
      | some f =>
        .error (.captureNotApplicable (f.class_.get (class_of_meaningless
          (List.find?_some (p := fun f : CatchFilter => !f.captureIsMeaningful) hm))))
      | none =>
        match he : wanted.find? isExact with
        | some f =>
          if f.wire.2 = catchIdAny then
            .error (.reservedId (f.class_.get (class_of_exact (List.find?_some he))) f.wire.2)
          else .ok (collapse wanted)
        | none => .ok (collapse wanted)

end Medius.Device
