import Medius.Link.Operation
import Medius.Mock.Session
import Medius.Link.Keepalive

/-! The box and its clip ring beside the keepalive, and how far a loss of the ring has come. -/

namespace Medius.Recovery.Clip

open Link Keepalive Thread Medius.Types

/-- `unread`: the hellos the box has said and the reader has not read.  A box that has booted says
hello again on the first frame it hears (`greeted`). -/
structure Box where
  session : Mock.Session ClipStatus
  nHid : UInt8
  nButtons : UInt8
  vid : UInt16
  pid : UInt16
  unread : Nat := 0
  greeted : Bool := true

/-- With no clone the identity and every field read zero. -/
def Box.reply (b : Box) : Query → Reply
  | .caps => if b.session.cloneUp then .caps b.nHid b.nButtons else .caps 0 0
  | .deviceInfo => if b.session.cloneUp then .deviceInfo b.vid b.pid else .deviceInfo 0 0
  | .stats => .stats b.session.counter
  | .clip => .clip b.session.held

abbrev State := Shared Box

def ask (tick : Bool) (q : Query) : Program Box (Option Reply) := .atomic fun s i =>
  match i with
  | .go =>
    some ({ s with log := .answered tick (s.env.reply q) s.watch.session :: s.log },
      some (s.env.reply q))
  | .reply none => some (s, none)
  | _ => none

def markDirty (s : State) : State :=
  { s with env := { s.env with session := s.env.session.markDirty } }

def beginResend : Program Box Unit :=
  access fun s => ({ markDirty s with log := .began :: s.log }, ())

def endResend : Program Box Bool := .atomic fun s i =>
  match i with
  | .choice true => some ({ markDirty s with log := .resent :: s.log }, true)
  | .choice false => some (s, false)
  | _ => none

def resend : Program Box Bool := do
  beginResend
  endResend

/-- A tick's frames, if anything they keep is held; its ring reading is over. -/
def keep : Program Box Unit := .atomic fun s i =>
  match i with
  | .choice b => some ({ (if b then markDirty s else s) with log := .glanced :: s.log }, ())
  | _ => none

def loop : Program Box Unit := turn (ask false) (ask true) resend keep

inductive Other
  | box (e : Mock.SessionEvent)
  | restart
  | greet
  | noteHello (wasRefused : Bool)
  | noteReply
  | begin
  | append (n : UInt32)
  | clearRing
  | reset
  | command
  | play (status : ClipStatus)
  | perform (op : DesiredOp)

def release (_ : ClipStatus) : ClipStatus := .default

/-- The box's session moves on; a ring emptied by it is a loss if the host knew of the clip. -/
def moveSession (s : State) (session : Mock.Session ClipStatus) (counted : Bool) : State :=
  let emptied := counted && ringHolds s.env.session.held && !ringHolds session.held &&
    s.desired.clip.ring && s.watch.session.isSome
  { s with
    env := { s.env with session }
    log := if emptied then .emptied :: s.log else s.log }

def loadRing (s : State) (held : ClipStatus) : State :=
  { s with
    env := { s.env with session := { s.env.session.markDirty with held } }
    log := .loaded :: s.log }

/-- An operation that answers for the clip, or adopts what a reconnect read back. -/
def reloads : DesiredOp → Bool
  | .clipLoaded _ | .clear | .clipAdopt _ _ => true
  | _ => false

def notesRing : DesiredOp → Bool
  | .clipNoteRing _ _ _ => true
  | _ => false

/-- A chunk's frame and the note that it was sent are two steps, and so are a clear's and a
reset's.  A clip plays on by itself; only the keepalive notes a ring reading. -/
def others (s : State) : Other → Option State
  | .box e =>
    let session := s.env.session.advance release e
    some (moveSession s session (session.counter ≠ s.env.session.counter))
  | .restart => some { moveSession s (s.env.session.restart release) true with env := { s.env with
      session := s.env.session.restart release
      unread := s.env.unread + 1
      greeted := false } }
  | .greet =>
    if s.env.greeted then none
    else some { s with env := { s.env with unread := s.env.unread + 1, greeted := true } }
  | .noteHello wasRefused =>
    if s.env.unread = 0 then none
    else some { s.noteHello (some Protocol.protoVer) wasRefused with
      env := { s.env with unread := s.env.unread - 1 } }
  | .noteReply => some s.noteReply
  | .begin => some s.begin
  | .append n =>
    let held := s.env.session.held
    let total := UInt32.ofNat (min (held.total.toNat + n.toNat) 0xFFFFFFFF)
    some (loadRing s (if s.env.session.cloneUp then { held with total } else held))
  | .clearRing =>
    some (loadRing s { s.env.session.held with total := 0, played := 0, state := .idle })
  | .reset => some { s with env := { s.env with session := s.env.session.countRelease } }
  | .command => some (markDirty s)
  | .play status =>
    if ringHolds s.env.session.held then
      some { s with env := { s.env with session := { s.env.session with held := status } } }
    else none
  | .perform op =>
    if notesRing op then none
    else some { s with
      desired := s.desired.perform op
      log := if reloads op then .loaded :: s.log else s.log }

def Moves (s s' : State) : Prop := ∃ l, others s l = some s'

def next := Thread.next others fun _ => some loop

def start (box : Box) : State := { env := box }

/-- How far the last loss has come: a re-send has begun after it, that recovery's CLIP query has been
answered, the recovery has gone on to its end, a recovery since is done. -/
inductive Phase
  | loaded | emptied | begun | read | noted | recovered
  deriving DecidableEq

def Phase.advance : Phase → Event → Phase
  | _, .loaded => .loaded
  | _, .emptied => .emptied
  | .emptied, .began | .read, .began => .begun
  | .begun, .answered false (.clip _) _ => .read
  | .read, .took _ => .noted
  | .begun, .recovered | .read, .recovered | .noted, .recovered => .recovered
  | phase, _ => phase

def phase (log : List Event) : Phase := log.foldr (fun e p => p.advance e) .loaded

/-- No recovery has had its reading of the emptied ring and gone on to its end. -/
def Phase.Open (p : Phase) : Prop := p = .emptied ∨ p = .begun ∨ p = .read

instance (p : Phase) : Decidable p.Open := inferInstanceAs (Decidable (_ ∨ _))

/-- How far a tick's ring reading has come: begun, the ring read empty with no hello since, the
counter read as it is recorded. -/
inductive Glance
  | over | looking | empty | passed
  deriving DecidableEq

def Glance.advance : Glance → Event → Glance
  | _, .looked => .looking
  | _, .glanced => .over
  | .looking, .hello | .empty, .hello => .over
  | .looking, .answered true (.clip status) _ => if ringHolds status then .over else .empty
  | .empty, .answered true (.stats session) recorded =>
    if recorded = some session then .passed else .over
  | glance, _ => glance

def glance (log : List Event) : Glance := log.foldr (fun e g => g.advance e) .over

/-- A recovery is done whose re-send began after the loss and whose CLIP query was not answered. -/
def unread : Phase → Event → Bool
  | .begun, .recovered => true
  | _, _ => false

/-- No tick has read the emptied ring at the recorded counter while the loss is open, and no
recovery is done that has not had its own reading of it. -/
def Spared (p : Phase) (g : Glance) (e : Event) : Prop :=
  ¬(g.advance e = .passed ∧ (p.advance e).Open) ∧ unread p e = false

instance (p : Phase) (g : Glance) (e : Event) : Decidable (Spared p g e) :=
  inferInstanceAs (Decidable (_ ∧ _))

def Fair : List Event → Prop
  | [] => True
  | e :: log => Spared (phase log) (glance log) e ∧ Fair log

instance decidableFair : (log : List Event) → Decidable (Fair log)
  | [] => .isTrue trivial
  | e :: log =>
    have := decidableFair log
    inferInstanceAs (Decidable (Spared (phase log) (glance log) e ∧ Fair log))

end Medius.Recovery.Clip
