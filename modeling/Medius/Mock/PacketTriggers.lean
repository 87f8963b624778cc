import Medius.Protocol.Command

namespace Medius.Mock

open Protocol

/-- The wire's fields, the hit count, and whether a run's last stream packet met its condition. -/
structure MockPacketTrigger where
  class_ : UInt8
  id : UInt16
  dir : UInt8
  action : UInt8
  flags : UInt8
  slen : UInt8
  matchBytes : List UInt8
  mask : List UInt8
  hits : UInt32
  live : Bool
  deriving DecidableEq

def MockPacketTrigger.key (r : MockPacketTrigger) :
    UInt8 × UInt16 × UInt8 × List UInt8 × List UInt8 :=
  (r.class_, r.id, r.dir, r.matchBytes, r.mask)

/-- An identical re-set keeps the run and the count. -/
def MockPacketTrigger.overwrite (old new : MockPacketTrigger) : MockPacketTrigger :=
  if (old.action, old.flags, old.slen) ≠ (new.action, new.flags, new.slen) then
    { old with
      action := new.action, flags := new.flags, slen := new.slen, hits := 0, live := false }
  else old

namespace PacketTriggers

abbrev Rows := List MockPacketTrigger

def matchUsed (rows : Rows) : Nat := (rows.map (·.matchBytes.length)).sum

def isSurface (class_ : UInt8) : Bool := catchClsHidIn ≤ class_ && class_ ≤ catchClsEmit

/-- Whether a packet could match the key at all. -/
def addressable (class_ dir : UInt8) (matchBytes mask : List UInt8) : Bool :=
  let oneWayIn := class_ = catchClsHidIn ∨ class_ = catchClsEmit
  if ¬isSurface class_ ∨ dir > lockDirNeg ∨ matchBytes.length > pktMatchMax ∨
      mask.length ≠ matchBytes.length then false
  else if (dir = lockDirNeg ∧ oneWayIn) ∨ (dir = lockDirPos ∧ class_ = catchClsHidOut) then false
  else !(matchBytes.zip mask).any fun p => p.1 &&& ~~~p.2 ≠ 0

/-- Whether the box takes the fields a set brings under its key. -/
def admissible (class_ : UInt8) (id : UInt16) (dir action flags slen : UInt8) (mask : List UInt8)
    (imperfect : Bool) : Bool :=
  let ctl := class_ = catchClsControl
  if action > clipOpToggle ∨
      flags &&& ~~~(clipTrigFPresent ||| clipTrigFConsume ||| clipTrigFRun) ≠ 0 then false
  else if flags &&& clipTrigFConsume ≠ 0 ∧ (ctl ∨ ¬imperfect) then false
  else if flags &&& clipTrigFRun ≠ 0 then
    -- With no masked bit past the selector, every packet of the stream meets the condition.
    !decide (ctl ∨ id = catchIdAny ∨ dir = lockDirBoth ∨
      (mask.drop slen.toNat).all fun k => k = 0)
  else slen = 0

/-- Adds, overwrites or removes one trigger, or refuses the frame whole; with the index of the
trigger it set or removed. -/
def set (rows : Rows) (class_ : UInt8) (id : UInt16) (dir action flags slen : UInt8)
    (matchBytes mask : List UInt8) (imperfect : Bool) : Option (Rows × Nat) :=
  if ¬addressable class_ dir matchBytes mask then none
  else
    let found := rows.findIdx? fun r => r.key = (class_, id, dir, matchBytes, mask)
    if flags &&& clipTrigFPresent = 0 then found.map fun i => (rows.eraseIdx i, i)
    else if ¬admissible class_ id dir action flags slen mask imperfect then none
    else
      let row : MockPacketTrigger :=
        { class_ := class_
          id := id
          dir := dir
          action := action
          flags := flags &&& (clipTrigFConsume ||| clipTrigFRun)
          slen := slen
          matchBytes := matchBytes
          mask := mask
          hits := 0
          live := false }
      match found with
      | some i => some (rows.modify i fun r => r.overwrite row, i)
      | none =>
        if rows.length ≥ clipPktTrigMax ∨
            matchUsed rows + matchBytes.length > clipPktMatchPool then none
        else some (rows ++ [row], rows.length)

/-- The opt-in went off, and consuming a packet is dropping traffic. -/
def dropConsuming (rows : Rows) : Rows := rows.filter fun r => r.flags &&& clipTrigFConsume = 0

/-- A traffic class makes it a packet trigger; the clear-all sentinel drops every trigger. -/
def applyClipTriggerFrame (rows : Rows) (imperfect : Bool) (p : List UInt8) : Rows :=
  match p with
  | class_ :: idLo :: idHi :: dir :: action :: flags :: rest =>
    if isSurface class_ then
      match rest with
      | slen :: framed :: body =>
        let mlen := framed.toNat
        -- A match or mask cut short.
        if body.length < 2 * mlen then rows
        else
          let set := set rows class_ (fromLeBytes idLo idHi) dir action flags slen
            (body.take mlen) ((body.drop mlen).take mlen) imperfect
          set.elim rows Prod.fst
      | _ => rows
    else if class_ = clipCondAnyClass ∧ fromLeBytes idLo idHi = clipCondAnyId ∧
        dir = lockDirBoth ∧ flags &&& clipTrigFPresent = 0 then []
    else rows
  | _ => rows

end PacketTriggers

end Medius.Mock
