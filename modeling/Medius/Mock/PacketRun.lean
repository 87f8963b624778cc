import Medius.Lib.Top
import Medius.Mock.PacketTriggers

namespace Medius.Mock

open Protocol

/-- The first `n` match bytes against the head, under the mask. -/
def pktHeadEq (matchBytes mask : List UInt8) (n : Nat) (head : List UInt8) : Bool :=
  head.length ≥ n &&
    (List.range n).all fun j => head.getD j 0 &&& mask.getD j 0 = matchBytes.getD j 0

def countOnes (b : UInt8) : Nat := (List.range 8).countP fun j => b.toNat.testBit j

namespace MockPacketTrigger

def idRank (r : MockPacketTrigger) (class_ : UInt8) (id : UInt16) : Option Nat :=
  if r.class_ ≠ class_ then none
  else if r.id = id then some 2
  else if r.id = catchIdAny then some 1
  else none

/-- How specific the trigger is for a packet, `none` when it is no candidate. -/
def score (r : MockPacketTrigger) (class_ : UInt8) (id : UInt16) (dir : UInt8)
    (head : List UInt8) : Option Nat :=
  (r.idRank class_ id).bind fun idRank =>
    if r.dir ≠ lockDirBoth ∧ dir ≠ lockDirBoth ∧ r.dir ≠ dir then none
    else if ¬pktHeadEq r.matchBytes r.mask r.matchBytes.length head then none
    else
      let bits := (r.mask.map countOnes).sum
      some (idRank * 100000 + bits * 10 + if r.dir ≠ lockDirBoth then 1 else 0)

def isRun (r : MockPacketTrigger) : Bool := r.flags &&& clipTrigFRun ≠ 0

/-- A run on the packet's exact address takes note of a packet of its stream. -/
def observe (r : MockPacketTrigger) (class_ : UInt8) (id : UInt16) (dir : UInt8)
    (head : List UInt8) : MockPacketTrigger :=
  if ¬r.isRun ∨ (r.class_, r.id, r.dir) ≠ (class_, id, dir) then r
  else if ¬pktHeadEq r.matchBytes r.mask r.slen.toNat head then r
  else { r with live := pktHeadEq r.matchBytes r.mask r.matchBytes.length head }

/-- One hit more, up to the counter's end. -/
def hit (r : MockPacketTrigger) : MockPacketTrigger :=
  { r with hits := UInt32.ofNat (min (r.hits.toNat + 1) (2 ^ 32 - 1)) }

end MockPacketTrigger

namespace PacketTriggers

/-- What a packet does to the triggers, with the action it runs and whether it is consumed. -/
def packet (rows : Rows) (class_ : UInt8) (id : UInt16) (dir : UInt8) (head : List UInt8) :
    Rows × Option UInt8 × Bool :=
  let top := Top.top (fun r => r.score class_ id dir head) rows
  let wasLive := top.any fun t => rows[t.1]?.any (·.live)
  let rows := rows.map fun r => r.observe class_ id dir head
  match top with
  | none => (rows, none, false)
  | some (i, _) =>
    match rows[i]? with
    | none => (rows, none, false)
    | some r =>
      let midRun := r.isRun && wasLive
      (rows.modify i MockPacketTrigger.hit, if midRun then none else some r.action,
        r.flags &&& clipTrigFConsume ≠ 0)

end PacketTriggers

end Medius.Mock
