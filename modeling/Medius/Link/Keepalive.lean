import Medius.Lib.Rely
import Medius.Link.Reconcile
import Medius.Link.Restart

/-! The keepalive thread, one access of what it shares at a time. -/

namespace Medius.Link

open Medius.Types

inductive Query
  | caps | deviceInfo | stats | clip
  deriving DecidableEq

inductive Reply
  | caps (nHid nButtons : UInt8)
  | deviceInfo (vid pid : UInt16)
  | stats (session : UInt16)
  | clip (status : ClipStatus)

/-- What happened, of the things a recovery is about: a hello that moved the counter, a release
the box counted, a clip its ring lost, an append or clear; and of the thread's own steps, a
recovery's reading of the hellos, its re-send begun and finished, the boot flag taken, a recovery
done; a tick's ring reading begun (`looked`) and over (`glanced`), and a query answered, of such a
reading (`tick`) or not, with the session counter then recorded. -/
inductive Event
  | hello
  | released
  | emptied
  | loaded
  | sampled
  | began
  | resent
  | took (cause : Cause)
  | recovered
  | looked
  | answered (tick : Bool) (reply : Reply) (recorded : Option UInt16)
  | glanced

def Reply.session : Reply → Option UInt16
  | .stats session => some session
  | _ => none

def Reply.ring : Reply → Option ClipStatus
  | .clip status => some status
  | _ => none

/-- `pending` is the thread's own; `log` is history, newest first, which nothing reads, and so is
`deciding`, that the thread has read the session counter and not acted on it yet; `env` is the
rest of the world. -/
structure Shared (E : Type) where
  watch : Watch := {}
  desired : DesiredState := .default
  restarts : Nat := 0
  pending : Option Cause := none
  deciding : Bool := false
  log : List Event := []
  env : E

/-- What the thread is given from outside: which way a clock comparison goes, or what a query or
a write comes back with. -/
inductive Input
  | go
  | choice (b : Bool)
  | reply (r : Option Reply)

namespace Shared

variable {E : Type}

def noteReply (s : Shared E) : Shared E := { s with watch := s.watch.noteReply }

def noteHello (s : Shared E) (proto : Option UInt8) (wasRefused : Bool) : Shared E :=
  let watch := s.watch.noteHello proto wasRefused
  { s with watch, log := if watch.hellos = s.watch.hellos then s.log else .hello :: s.log }

def begin (s : Shared E) : Shared E :=
  { s with watch := s.watch.begin, log := .hello :: s.log }

end Shared

namespace Keepalive

variable {E : Type}

abbrev Program (E α : Type) := Thread (Shared E) Input α

section Access

variable {β : Type}

def access (f : Shared E → Shared E × β) : Program E β := .atomic fun s _ => some (f s)

/-- A comparison with the clock. -/
def clock : Program E Bool := .atomic fun s i =>
  match i with
  | .choice b => some (s, b)
  | _ => none

def takeOwed : Program E Bool :=
  access fun s => ({ s with watch := s.watch.takeOwed.1 }, s.watch.takeOwed.2)

def pending : Program E (Option Cause) := access fun s => (s, s.pending)

def setPending (cause : Cause) : Program E Unit :=
  access fun s => ({ s with pending := some cause, deciding := false }, ())

def dropPending : Program E Unit :=
  access fun s => ({ s with pending := none, log := .recovered :: s.log }, ())

def isIdle : Program E Bool := access fun s => (s, s.desired.isIdle)

def hellos : Program E Nat := access fun s => (s, s.watch.hellos)

/-- The reading of the hellos a tick's ring reading is held to. -/
def lookHellos : Program E Nat :=
  access fun s => ({ s with log := .looked :: s.log }, s.watch.hellos)

/-- The reading of the hellos a recovery ends by. -/
def sampleHellos : Program E Nat :=
  access fun s => ({ s with log := .sampled :: s.log }, s.watch.hellos)

def sessionMoved (session : UInt16) : Program E Bool :=
  access fun s => ({ s with
    watch := (s.watch.sessionMoved session).1
    deciding := (s.watch.sessionMoved session).2 }, (s.watch.sessionMoved session).2)

def sessionIs (session : UInt16) : Program E Bool :=
  access fun s => (s, s.watch.sessionIs session)

def noteSession (session : UInt16) : Program E Unit :=
  access fun s => ({ s with watch := s.watch.noteSession session }, ())

def beginRelease : Program E Unit :=
  access fun s => ({ s with watch := s.watch.beginRelease }, ())

def takeBooted (cause : Cause) : Program E Bool :=
  access fun s => ({ s with watch := s.watch.takeBooted.1, log := .took cause :: s.log },
    s.watch.takeBooted.2)

def incRestarts : Program E Unit := access fun s => ({ s with restarts := s.restarts + 1 }, ())

def finish (seen : Nat) : Program E Bool :=
  access fun s => ({ s with watch := (s.watch.finish seen).1 }, (s.watch.finish seen).2)

def noteDeclaredButtons (nButtons : UInt8) : Program E Unit :=
  access fun s => ({ s with desired := s.desired.noteDeclaredButtons nButtons }, ())

def clipRingGen : Program E Nat := access fun s => (s, s.desired.clip.ringGen)

def clipRingHeld : Program E Bool := access fun s => (s, s.desired.clip.ring)

def clipNoteRing (seen : Nat) (status : ClipStatus) (released : Bool) : Program E Unit :=
  access fun s => ({ s with desired := s.desired.clipNoteRing seen status released }, ())

end Access

/-! `ask` is a query of a recovery or of the session counter, `glance` one of a tick's ring
reading, `resend` the re-send of everything held, `keep` a tick's own frames. -/

variable (ask glance : Query → Program E (Option Reply)) (resend : Program E Bool)
  (keep : Program E Unit)

def readStats : Program E (Option UInt16) := do return (← ask .stats).bind Reply.session

def readClip : Program E (Option ClipStatus) := do return (← ask .clip).bind Reply.ring

def isCloned : Program E (Option UInt8) := do
  match ← ask .deviceInfo with
  | some (.deviceInfo vid pid) => return if vid ≠ 0 ∨ pid ≠ 0 then some 0 else none
  | _ => return none

/-- Declared button count when a clone is up. -/
def cloneUp : Program E (Option UInt8) := do
  match ← ask .caps with
  | some (.caps nHid nButtons) => if nHid > 0 then return some nButtons else isCloned ask
  | _ => return none

def sessionReleased : Program E Bool := do
  match ← readStats ask with
  | some session => sessionMoved session
  | none => return false

def noteUnmoved (seen hellosBefore : Nat) (status : ClipStatus) (session : UInt16) :
    Program E Unit := do
  let now ← hellos
  if now ≠ hellosBefore then return ()
  else if ← sessionIs session then clipNoteRing seen status false
  else return ()

/-- A read across a release or boot is left to that recovery. -/
def readRing : Program E Unit := do
  let seen ← clipRingGen
  let hellosBefore ← lookHellos
  match ← readClip glance with
  | some status =>
    match ← readStats glance with
    | some session => noteUnmoved seen hellosBefore status session
    | none => return ()
  | none => return ()

def declare (buttons : UInt8) : Program E Unit :=
  if buttons > 0 then noteDeclaredButtons buttons else return ()

def settled (up : Option UInt8) (before : UInt16) : Program E Bool := do
  if up.isSome then return (← readStats ask) = some before else return false

def noteRelease (ringSeen : Nat) (ring : Option ClipStatus) : Program E Unit :=
  match ring with
  | some status => clipNoteRing ringSeen status true
  | none => return ()

def countBoot (cause : Cause) : Program E Unit := do
  if (← takeBooted cause) ∨ cause = .restart then incRestarts else return ()

def conclude (cause : Cause) (seen : Nat) (before : UInt16) (ringSeen : Nat)
    (ring : Option ClipStatus) : Program E Outcome := do
  noteRelease ringSeen ring
  noteSession before
  countBoot cause
  return if ← finish seen then .done else .again

/-- After the re-send: whether it took, and how the recovery ends. -/
def settle (cause : Cause) (seen : Nat) (before : UInt16) : Program E Outcome := do
  let up ← cloneUp ask
  let ringSeen ← clipRingGen
  let ring ← readClip ask
  if ← settled ask up before then conclude cause seen before ringSeen ring else return .wait

def step (cause : Cause) : Program E Outcome := do
  match ← cloneUp ask with
  | some buttons =>
    let seen ← sampleHellos
    declare buttons
    match ← readStats ask with
    | some before => if ← resend then settle ask cause seen before else return .wait
    | none => return .wait
  | none => return .wait

def adopt : Program E Unit := do
  if ← takeOwed then setPending .restart else return ()

def recover (cause : Cause) : Program E Unit := do
  match ← step ask resend cause with
  | .done => dropPending
  | .again => setPending .restart
  | .wait => return ()

def watchSession (otherwise : Program E Unit) : Program E Unit := do
  if ← sessionReleased ask then
    beginRelease
    setPending .released
  else otherwise

/-- Between ticks: after a command that can present the clone again, every slice checks. -/
def slice (recovering idle : Bool) : Program E Unit := do
  if recovering ∨ idle then return ()
  else if ← clock then watchSession ask (return ())
  else return ()

def readHeldRing : Program E Unit := do
  if ← clipRingHeld then readRing glance else return ()

def keepHeld : Program E Unit := do
  readHeldRing glance
  keep

def tick (recovering : Bool) : Program E Unit :=
  if recovering then keepHeld glance keep else watchSession ask (keepHeld glance keep)

def rest (recovering : Bool) : Program E Unit := do
  let idle ← isIdle
  if ← clock then slice ask recovering idle
  else if idle then return ()
  else tick ask glance keep recovering

/-- One turn of the loop. -/
def turn : Program E Unit := do
  adopt
  match ← pending with
  | some cause => if ← clock then recover ask resend cause else rest ask glance keep true
  | none => rest ask glance keep false

end Keepalive

end Medius.Link
