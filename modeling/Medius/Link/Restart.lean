import Medius.Protocol.Opcode

/-! The hellos the reader sees, the recovery one owes, and the session counter. -/

namespace Medius.Link

open Protocol

inductive Cause
  | restart | released
  deriving DecidableEq

inductive Outcome
  | done | wait | again
  deriving DecidableEq

/-- `armed`: the chip has replied since its last hello, so another is a new boot.  `recovering`:
a second hello of the same boot lands while this is set.  `booted`: a hello landed while a
recovery was running. -/
structure Watch where
  armed : Bool := false
  recovering : Bool := false
  owed : Bool := false
  hellos : Nat := 0
  booted : Bool := false
  session : Option UInt16 := none
  deriving DecidableEq

namespace Watch

def noteReply (w : Watch) : Watch := { w with armed := true }

/-- `proto` is what the payload parses to; `wasRefused` that the transport was refused before this
hello was accepted. -/
def noteHello (w : Watch) (proto : Option UInt8) (wasRefused : Bool) : Watch :=
  if proto ≠ some protoVer then w
  else
    let w := { w with armed := w.armed || wasRefused }
    if w.recovering then { w with hellos := w.hellos + 1, booted := true }
    else if !w.armed then w
    else { w with armed := false, recovering := true, owed := true, hellos := w.hellos + 1 }

/-- A reconnect found the chip freshly booted. -/
def begin (w : Watch) : Watch :=
  { w with recovering := true, owed := true, hellos := w.hellos + 1 }

def takeOwed (w : Watch) : Watch × Bool :=
  ({ w with recovering := w.recovering || w.owed, owed := false }, w.owed)

/-- Ends the recovery unless a hello arrived after `seen`. -/
def finish (w : Watch) (seen : Nat) : Watch × Bool :=
  if w.hellos ≠ seen then (w, false) else ({ w with recovering := false }, true)

def noteSession (w : Watch) (session : UInt16) : Watch := { w with session := some session }

def sessionIs (w : Watch) (session : UInt16) : Bool := w.session = some session

/-- Records `session` and says whether it moved since the last reading. -/
def sessionMoved (w : Watch) (session : UInt16) : Watch × Bool :=
  ({ w with session := some session }, w.session.any (· ≠ session))

def beginRelease (w : Watch) : Watch := { w with recovering := true }

def takeBooted (w : Watch) : Watch × Bool := ({ w with booted := false }, w.booted)

end Watch

end Medius.Link
