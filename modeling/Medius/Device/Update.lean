import Medius.Error
import Medius.Protocol.Word

/-! A firmware transfer, one micro-step at a time.  A reply is of any type that has
a payload, so that a caller of the model may mark the replies it follows. -/

namespace Medius.Device

open Protocol Medius.Types

/-- Chunking and credit accounting for one staged image. -/
structure ChunkPlan where
  image : List UInt8
  target : UpdateTarget
  credit : Nat
  seq : UInt16
  sent : Nat
  unacked : Nat
  deriving DecidableEq

namespace ChunkPlan

def new (image : List UInt8) (target : UpdateTarget) (credit : UInt32) : ChunkPlan where
  image := image
  target := target
  credit := if credit = 0 then otaCredit else credit.toNat
  seq := 0
  sent := 0
  unacked := 0

def done (plan : ChunkPlan) : Bool :=
  plan.sent ≥ plan.image.length && plan.unacked = 0

def nextFrame (plan : ChunkPlan) : Option (List UInt8 × ChunkPlan) :=
  if plan.sent ≥ plan.image.length ∨ plan.unacked ≥ plan.credit then none
  else
    let end_ := min (plan.sent + otaChunk) plan.image.length
    let bytes := (plan.image.drop plan.sent).take (end_ - plan.sent)
    some (otaOpData :: plan.target.asU8 :: toLeBytes plan.seq ++ bytes,
      { plan with seq := plan.seq + 1, sent := end_, unacked := plan.unacked + 1 })

def awaitingAck (plan : ChunkPlan) : Bool :=
  plan.unacked > 0 && (plan.unacked ≥ plan.credit || plan.sent ≥ plan.image.length)

def onAck (plan : ChunkPlan) (status : UpdateStatus) (arg : UInt32) :
    Except Error (ChunkPlan × UpdateProgress) :=
  if status ≠ UpdateStatus.ok ∧ status ≠ UpdateStatus.ack then
    .error (.update otaOpData status arg)
  else if arg ≠ plan.seq.toUInt32 then .error (.update otaOpData UpdateStatus.seqGap arg)
  else .ok ({ plan with unacked := 0 }, ⟨plan.target, plan.sent, plan.image.length⟩)

end ChunkPlan

/-- The commands whose reply a caller waits for, each with what it does next. -/
inductive Call
  | begin_ (image : List UInt8) (target : UpdateTarget)
  | data (plan : ChunkPlan)
  | end_ (target : UpdateTarget)
  | abort (target : UpdateTarget)
  | activate
  deriving DecidableEq

def Call.op : Call → UInt8
  | .begin_ .. => otaOpBegin
  | .data _ => otaOpData
  | .end_ _ => otaOpEnd
  | .abort _ => otaOpAbort
  | .activate => otaOpActivate

section

variable (digest : List UInt8 → Vector UInt8 32)

def beginBody (image : List UInt8) : List UInt8 :=
  toLeBytes32 (UInt32.ofNat image.length) ++ (digest image).toList

/-- What `update_op` sends; a `DATA` frame is sent by the chunk loop. -/
def Call.frame : Call → List UInt8
  | .begin_ image target => otaOpBegin :: target.asU8 :: beginBody digest image
  | .data _ => []
  | .end_ target => [otaOpEnd, target.asU8]
  | .abort target => [otaOpAbort, target.asU8]
  | .activate => [otaOpActivate, UpdateTarget.device.asU8]

end

abbrev heldUpdatesMax : Nat := 64

/-- A reply long enough to be one, for this op. -/
def replyFor (op : UInt8) : List UInt8 → Option (UpdateStatus × UInt32)
  | o :: _ :: status :: a :: b :: c :: d :: _ =>
    if o = op then some (status, fromLeBytes32 a b c d) else none
  | _ => none

/-- What every caller on one link shares: the reply channel and the replies parked. -/
structure Updates (ρ : Type) where
  rx : List ρ
  held : List ρ

section

variable {ρ : Type}

def Updates.holdUpdate (u : Updates ρ) (p : ρ) : Updates ρ :=
  { u with held := (if u.held.length ≥ heldUpdatesMax then u.held.drop 1 else u.held) ++ [p] }

variable (payload : ρ → List UInt8)

def Updates.takeHeld (u : Updates ρ) (op : UInt8) : Option (ρ × Updates ρ) :=
  (u.held.find? fun p => (replyFor op (payload p)).isSome).map fun p =>
    (p, { u with held := u.held.eraseP fun p => (replyFor op (payload p)).isSome })

def Updates.dropHeld (u : Updates ρ) (op : UInt8) : Updates ρ :=
  { u with held := u.held.filter fun p => (payload p).head? ≠ some op }

end

/-- Where one caller stands.  `drain` to `send` are `update_op`, `take` to `park` are
`recv_update`, the rest is `stage_firmware`. -/
inductive Point (ρ : Type)
  | drain (call : Call)
  | drainHold (call : Call) (p : ρ)
  | purge (call : Call)
  | send (call : Call)
  | take (call : Call)
  | receive (call : Call)
  | park (call : Call) (p : ρ)
  | purgeData (image : List UInt8) (target : UpdateTarget) (credit : UInt32)
  | chunks (plan : ChunkPlan)
  | returned (result : Except Error (Option UInt32))

/-- What the outside decides at a step: a send that fails, a wait whose time is up. -/
inductive Luck
  | fine | sendFails | timeUp
  deriving DecidableEq

/-- What a step gives off: a frame, a progress report, the reply its wait ended with. -/
structure Effect (ρ : Type) where
  sent : Option (List UInt8) := none
  progress : Option UpdateProgress := none
  took : Option ρ := none

section

variable {ρ : Type}

/-- What follows a reply. -/
def Call.onReply (call : Call) (status : UpdateStatus) (arg : UInt32) :
    Point ρ × Option UpdateProgress :=
  match call with
  | .begin_ image target =>
    if status ≠ UpdateStatus.ready then (.returned (.error (.update otaOpBegin status arg)), none)
    else (.purgeData image target arg, none)
  | .data plan =>
    match plan.onAck status arg with
    | .error e => (.returned (.error e), none)
    | .ok (plan, progress) => (.chunks plan, some progress)
  | .end_ _ =>
    if status ≠ UpdateStatus.staged then (.returned (.error (.update otaOpEnd status arg)), none)
    else (.returned (.ok (some arg)), none)
  | .abort _ =>
    if status ≠ UpdateStatus.ok then (.returned (.error (.update otaOpAbort status arg)), none)
    else (.returned (.ok none), none)
  | .activate =>
    if status ≠ UpdateStatus.ok then
      (.returned (.error (.update otaOpActivate status arg)), none)
    else (.returned (.ok none), none)

variable (payload : ρ → List UInt8)

def Call.finish (call : Call) (p : ρ) (u : Updates ρ) : Point ρ × Updates ρ × Effect ρ :=
  match replyFor call.op (payload p) with
  | some (status, arg) =>
    let (point, progress) := call.onReply status arg
    (point, u, { progress := progress, took := some p })
  | none => (.take call, u, {})

variable (digest : List UInt8 → Vector UInt8 32)

def Point.step : Point ρ → Luck → Updates ρ → Point ρ × Updates ρ × Effect ρ
  | .drain call, _, u =>
    match u.rx with
    | [] => (.purge call, u, {})
    | p :: rx =>
      if (payload p).head? ≠ some call.op then (.drainHold call p, { u with rx := rx }, {})
      else (.drain call, { u with rx := rx }, {})
  | .drainHold call p, _, u => (.drain call, u.holdUpdate p, {})
  | .purge call, _, u => (.send call, u.dropHeld payload call.op, {})
  | .send _, .sendFails, u => (.returned (.error .io), u, {})
  | .send call, _, u => (.take call, u, { sent := some (call.frame digest) })
  | .take call, luck, u =>
    match u.takeHeld payload call.op with
    | some (p, u) => call.finish payload p u
    | none =>
      match luck with
      | .timeUp => (.returned (.error .queryTimeout), u, {})
      | _ => (.receive call, u, {})
  | .receive call, _, u =>
    match u.rx with
    | [] => (.take call, u, {})
    | p :: rx =>
      if (replyFor call.op (payload p)).isSome then call.finish payload p { u with rx := rx }
      else (.park call p, { u with rx := rx }, {})
  | .park call p, _, u => (.take call, u.holdUpdate p, {})
  | .purgeData image target credit, _, u =>
    (.chunks (.new image target credit), u.dropHeld payload otaOpData, {})
  | .chunks plan, luck, u =>
    if plan.done then (.drain (.end_ plan.target), u, {})
    else
      match plan.nextFrame with
      | some (frame, plan') =>
        match luck with
        | .sendFails => (.returned (.error .io), u, {})
        | _ => (.chunks plan', u, { sent := some frame })
      | none => if plan.awaitingAck then (.take (.data plan), u, {}) else (.chunks plan, u, {})
  | .returned result, _, u => (.returned result, u, {})

end

def stageFirmware {ρ : Type} (target : UpdateTarget) (image : List UInt8) : Point ρ :=
  if image.isEmpty then .returned (.error (.update otaOpBegin UpdateStatus.tooBig 0))
  else .drain (.begin_ image target)

def abortUpdate {ρ : Type} (target : UpdateTarget) : Point ρ := .drain (.abort target)

def activateFirmware {ρ : Type} : Point ρ := .drain .activate

end Medius.Device
