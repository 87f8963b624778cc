import Medius.Mock.LockTable
import Medius.Mock.PacketTriggers
import Medius.Mock.RewriteTable
import Medius.Mock.TransformTable

namespace Medius.Mock

open Protocol

/-- A lock needs the clone's targets, which exist only while a clone is up. -/
def LockTable.applyLockFrame (t : LockTable) (cloneUp : Bool) (nButtons : UInt8) :
    List UInt8 → LockTable
  | class_ :: idLo :: idHi :: dir :: lo :: hi :: _ =>
    if cloneUp then
      t.apply class_ (fromLeBytes idLo idHi) dir (fromLeBytes lo hi).toInt16 nButtons
    else t
  | _ => t

/-- The box, as far as its session tables go: `imperfect` is the opt-in, and a clone's fields
are `caps`. -/
structure State where
  table : LockTable
  rewrites : RewriteTable
  transforms : TransformTable
  packetTriggers : PacketTriggers.Rows
  imperfect : Bool
  caps : Caps
  cloneUp : Bool

namespace State

/-- A box with empty tables. -/
def empty (imperfect : Bool) (caps : Caps) (cloneUp : Bool) : State where
  table := .default
  rewrites := .default
  transforms := .default
  packetTriggers := []
  imperfect := imperfect
  caps := caps
  cloneUp := cloneUp

def applyLockFrame (s : State) (p : List UInt8) : State :=
  { s with table := s.table.applyLockFrame s.cloneUp s.caps.nButtons p }

/-- Opting out drops the consuming packet triggers and empties the rewrite table, its
generation with it. -/
def applyOptionFrame (s : State) : List UInt8 → State
  | option :: allow :: _ =>
    if option = optImperfect then
      if allow ≠ 0 then { s with imperfect := true }
      else
        { s with
          imperfect := false
          packetTriggers := PacketTriggers.dropConsuming s.packetTriggers
          rewrites := .default }
    else s
  | _ => s

def applyRewriteFrame (s : State) (p : List UInt8) : State :=
  { s with rewrites := s.rewrites.applyRewriteFrame s.imperfect p }

def applyTransformFrame (s : State) (p : List UInt8) : State :=
  { s with transforms := s.transforms.applyTransformFrame s.caps s.cloneUp p }

def applyClipTriggerFrame (s : State) (p : List UInt8) : State :=
  { s with
    packetTriggers := PacketTriggers.applyClipTriggerFrame s.packetTriggers s.imperfect p }

/-- The frames that write one of these tables; a `RESET` or a `PATCH` releases them all. -/
def applyTableFrame (s : State) (frame : FrameType) (p : List UInt8) : State :=
  match frame with
  | .lock => s.applyLockFrame p
  | .option => s.applyOptionFrame p
  | .rewrite => s.applyRewriteFrame p
  | .transform => s.applyTransformFrame p
  | .clipTrigger => s.applyClipTriggerFrame p
  | _ => s

def applyFrames (s : State) (frames : List (FrameType × List UInt8)) : State :=
  frames.foldl (fun s f => s.applyTableFrame f.1 f.2) s

/-- The payloads of one frame type, in order. -/
def payloads (ty : FrameType) (frames : List (FrameType × List UInt8)) : List (List UInt8) :=
  frames.filterMap fun f => if f.1 = ty then some f.2 else none

theorem payloads_append (ty : FrameType) (frames frames' : List (FrameType × List UInt8)) :
    payloads ty (frames ++ frames') = payloads ty frames ++ payloads ty frames' :=
  List.filterMap_append

theorem payloads_map {α : Type} (ty ty' : FrameType) (f : α → List UInt8) (l : List α) :
    payloads ty (l.map fun a => (ty', f a)) = if ty' = ty then l.map f else [] := by
  unfold payloads
  rw [List.filterMap_map]
  by_cases h : ty' = ty
  · simp [h]
  · simp [h]

theorem prefix_payloads {frames frames' : List (FrameType × List UInt8)} (h : frames <+: frames')
    (ty : FrameType) : payloads ty frames <+: payloads ty frames' := by
  obtain ⟨rest, rfl⟩ := h
  rw [payloads_append]
  exact List.prefix_append _ _

/-- Each table sees the frames of its own type alone. -/
theorem applyFrames_eq {frames : List (FrameType × List UInt8)} (h : ∀ f ∈ frames, f.1 ≠ .option)
    (s : State) :
    s.applyFrames frames = { s with
      table := (payloads .lock frames).foldl
        (fun t p => t.applyLockFrame s.cloneUp s.caps.nButtons p) s.table
      rewrites := (payloads .rewrite frames).foldl
        (fun t p => t.applyRewriteFrame s.imperfect p) s.rewrites
      transforms := (payloads .transform frames).foldl
        (fun t p => t.applyTransformFrame s.caps s.cloneUp p) s.transforms
      packetTriggers := (payloads .clipTrigger frames).foldl
        (fun rows p => PacketTriggers.applyClipTriggerFrame rows s.imperfect p)
        s.packetTriggers } := by
  induction frames generalizing s with
  | nil => rfl
  | cons f frames ih =>
    rw [List.forall_mem_cons] at h
    obtain ⟨ty, p⟩ := f
    have ih := ih h.2 (s.applyTableFrame ty p)
    cases ty with
    | option => exact absurd rfl h.1
    | _ => exact ih

end State

end Medius.Mock
