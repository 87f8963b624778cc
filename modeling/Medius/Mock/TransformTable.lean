import Medius.Protocol.Command

namespace Medius.Mock

open Protocol

structure MockTransform where
  op : UInt8
  sclass : UInt8
  sid : UInt16
  dclass : UInt8
  did : UInt16
  deriving DecidableEq

def MockTransform.key (t : MockTransform) : UInt8 × UInt16 × UInt8 × UInt16 :=
  (t.sclass, t.sid, t.dclass, t.did)

/-- What `RESP(CAPS)` says of the clone's fields. -/
structure Caps where
  hasX : Bool
  hasY : Bool
  hasWheel : Bool
  pan : Bool
  nButtons : UInt8
  nKeys : UInt8
  hasConsumer : Bool
  deriving DecidableEq

/-- Mirrors the firmware's `transform_field_present`. -/
def transformFieldPresent (caps : Caps) (cloneUp : Bool) (cls : UInt8) (id : UInt16) : Bool :=
  if ¬cloneUp then false
  else if cls = catchClsAxis then
    if id = 0 then caps.hasX
    else if id = 1 then caps.hasY
    else if id = 2 then caps.hasWheel
    else if id = 3 then caps.pan
    else false
  else if cls = catchClsBtn then id < caps.nButtons.toUInt16 && id < maxButtons.toUInt16
  else if cls = catchClsKey then caps.nKeys > 0 && 0x04 ≤ id && id ≤ 0xFF
  else if cls = catchClsMedia then caps.hasConsumer && id ≠ 0
  else false

/-- Which op and class pair a transform can take; neither op takes one field as both ends. -/
def transformPairOk (op sc : UInt8) (si : UInt16) (dc : UInt8) (di : UInt16) : Bool :=
  if sc = dc ∧ si = di then false
  else if op = tfSwap then sc = catchClsAxis && dc = catchClsAxis
  else if op = tfRemap then
    (sc = catchClsAxis && dc = catchClsAxis) || (sc = catchClsBtn && dc = catchClsBtn) ||
      (sc = catchClsBtn && dc = catchClsKey) || (sc = catchClsBtn && dc = catchClsMedia)
  else false

/-- The box's transform table. -/
structure TransformTable where
  transforms : List MockTransform
  full : Bool
  deriving DecidableEq

namespace TransformTable

def default : TransformTable where
  transforms := []
  full := false

def remove (t : TransformTable) (key : UInt8 × UInt16 × UInt8 × UInt16) : TransformTable :=
  match t.transforms.findIdx? fun e => e.key = key with
  | some i => { transforms := t.transforms.eraseIdx i, full := false }
  | none => t

/-- A held key takes the new op in its place. -/
def set (t : TransformTable) (row : MockTransform) : TransformTable :=
  match t.transforms.findIdx? fun e => e.key = row.key with
  | some i => { t with transforms := t.transforms.modify i fun e => { e with op := row.op } }
  | none =>
    if t.transforms.length ≥ transformMaxEntries then { t with full := true }
    else { t with transforms := t.transforms ++ [row] }

/-- Modelled on `transform_tab_set`: faithful, so it runs whatever the opt-in. -/
def applyTransformFrame (t : TransformTable) (caps : Caps) (cloneUp : Bool) :
    List UInt8 → TransformTable
  | op :: sclass :: sidLo :: sidHi :: dclass :: didLo :: didHi :: state :: _ =>
    let sid := fromLeBytes sidLo sidHi
    let did := fromLeBytes didLo didHi
    if state = 0 ∧ sclass = 0xFF ∧ dclass = 0xFF ∧ sid = 0xFFFF ∧ did = 0xFFFF then .default
    else if state = 0 then t.remove (sclass, sid, dclass, did)
    -- `2` is the retired SCALE op, which a stale host still sends.
    else if op ≥ tfOpCount ∨ ¬transformPairOk op sclass sid dclass did ∨
        ¬transformFieldPresent caps cloneUp sclass sid ∨
        ¬transformFieldPresent caps cloneUp dclass did then t
    else t.set { op := op, sclass := sclass, sid := sid, dclass := dclass, did := did }
  | _ => t

end TransformTable

end Medius.Mock
