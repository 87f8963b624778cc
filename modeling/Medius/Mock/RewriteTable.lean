import Medius.Protocol.Command

namespace Medius.Mock

open Protocol

structure MockRewrite where
  class_ : UInt8
  id : UInt16
  dir : UInt8
  action : UInt8
  offset : UInt16
  matchBytes : List UInt8
  mask : List UInt8
  payload : List UInt8
  hits : UInt16
  deriving DecidableEq

def MockRewrite.key (r : MockRewrite) : UInt8 × UInt16 × UInt8 × List UInt8 × List UInt8 :=
  (r.class_, r.id, r.dir, r.matchBytes, r.mask)

/-- The box's rewrite table. -/
structure RewriteTable where
  rewrites : List MockRewrite
  gen : UInt8
  full : Bool
  deriving DecidableEq

abbrev headControl : Nat := 8 + 2048

/-- Mirrors the firmware's `rewrite_action_ok`. -/
def rewriteAdmissible (cls action : UInt8) (offset : UInt16) (payload : List UInt8) : Bool :=
  let ctl : Bool := cls = catchClsControl
  let any : Bool := cls = catchClsAny
  let head := if ctl then headControl else 64
  let fits : Bool :=
    if action = rwPatch ∨ action = rwReplyPatch then offset.toNat + payload.length ≤ head
    else if action = rwReplace then payload.length ≤ head
    else if action = rwAnswer ∨ action = rwReplyReplace then payload.length ≤ headControl
    else true
  fits &&
    if action = rwPass ∨ action = rwPatch ∨ action = rwReplace then true
    else if action = rwDrop then !ctl && !any
    else if action = rwAnswer ∨ action = rwStall ∨ action = rwNak ∨ action = rwReplyPatch ∨
      action = rwReplyReplace then ctl
    else false

def rewritable (cls : UInt8) : Bool :=
  cls ∈ [catchClsHidIn, catchClsHidOut, catchClsVendIntr, catchClsVendBulk, catchClsControl,
    catchClsEmit, catchClsAny]

namespace RewriteTable

def default : RewriteTable where
  rewrites := []
  gen := 0
  full := false

/-- The generation outlives the clear. -/
def clear (t : RewriteTable) : RewriteTable where
  rewrites := []
  gen := if t.rewrites.isEmpty then t.gen else t.gen + 1
  full := false

def remove (t : RewriteTable) (r : MockRewrite) : RewriteTable :=
  match t.rewrites.findIdx? fun e => e.key = r.key with
  | some i => { rewrites := t.rewrites.eraseIdx i, gen := t.gen + 1, full := false }
  | none => t

/-- The payload is costed against the pool less what an overwrite frees, then the entry count.
An overwrite moves to the end, and the same rule again changes nothing. -/
def set (t : RewriteTable) (r : MockRewrite) : RewriteTable :=
  let pos := t.rewrites.findIdx? fun e => e.key = r.key
  let same := (pos.bind (t.rewrites[·]?)).any fun e =>
    e.action = r.action && e.offset = r.offset && e.payload = r.payload
  if same then t
  else
    let used := ((t.rewrites.filter fun e => e.key ≠ r.key).map (·.payload.length)).sum
    if used + r.payload.length > rewritePayloadPool ∨
        (pos.isNone ∧ t.rewrites.length ≥ rewriteMaxEntries) then
      { t with full := true }
    else
      let rewrites := match pos with
        | some i => t.rewrites.eraseIdx i
        | none => t.rewrites
      { rewrites := rewrites ++ [r], gen := t.gen + 1, full := false }

/-- What a framed rule does, once its lengths and the opt-in let it in. -/
def applyRule (t : RewriteTable) (state : UInt8) (r : MockRewrite) : RewriteTable :=
  if state = 0 ∧ r.class_ = 0xFF ∧ r.id = 0xFFFF then t.clear
  else if ¬rewritable r.class_ ∨ r.dir > lockDirNeg then t
  else if r.matchBytes.length > rewriteMatchMax then t
  else if state ≠ 0 ∧ ¬rewriteAdmissible r.class_ r.action r.offset r.payload then t
  else if state = 0 then t.remove r
  else t.set r

/-- Dropped whole when truncated, when the read-back reply could not carry the rule, or while
the opt-in is off, the whole-table clear apart. -/
def applyRewriteFrame (t : RewriteTable) (allowed : Bool) : List UInt8 → RewriteTable
  | cls :: idLo :: idHi :: dir :: state :: action :: offLo :: offHi :: framed :: rest =>
    let mlen := framed.toNat
    if rest.length < 2 * mlen ∨ 11 + rest.length > maxPayload then t
    else if ¬allowed ∧ ¬(state = 0 ∧ cls = 0xFF ∧ idLo = 0xFF ∧ idHi = 0xFF) then t
    else
      t.applyRule state
        { class_ := cls
          id := fromLeBytes idLo idHi
          dir := dir
          action := action
          offset := fromLeBytes offLo offHi
          matchBytes := rest.take mlen
          mask := (rest.drop mlen).take mlen
          payload := rest.drop (2 * mlen)
          hits := 0 }
  | _ => t

/-- The rule in the `REWRITE` command's shape, with state 1. -/
def rewriteEntryRespPayload (t : RewriteTable) (index : UInt8) : List UInt8 :=
  qRewriteEntry :: index :: match t.rewrites[index.toNat]? with
    | some r => rewritePayload r.class_ r.id r.dir 1 r.action r.offset r.matchBytes r.mask r.payload
    | none => []

end RewriteTable

end Medius.Mock
