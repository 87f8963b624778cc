import Medius.Device.Lock

namespace Medius.Device

open Protocol Link Medius.Types

def toStored (rule : RewriteRule) : StoredRewrite where
  class_ := rule.class_.asU8
  id := rule.id
  direction := rule.direction.asU8
  action := rule.action.asU8
  offset := rule.offset
  matchBytes := rule.matchBytes
  mask := rule.mask
  payload := rule.payload

abbrev entryHdr : Nat := 11
abbrev headReport : Nat := 64
abbrev headControl : Nat := 8 + 2048

/-- Whether the rule's bytes run over the head the box holds for its class, and the cap they
meet. -/
def headCap (rule : RewriteRule) : Bool × Nat :=
  let plen := rule.payload.length
  let off := rule.offset.toNat
  let reportCap := if rule.class_ = .control then headControl else headReport
  match rule.action with
  | .patch | .replyPatch => (off + plen > reportCap, reportCap)
  | .replace => (plen > reportCap, reportCap)
  | .answer | .replyReplace => (plen > headControl, headControl)
  | _ => (false, 0)

def validateRule (rule : RewriteRule) : Except Error Unit :=
  let plen := rule.payload.length
  let room := maxPayload - entryHdr - 2 * rule.matchBytes.length
  if rule.matchBytes.length ≠ rule.mask.length then
    .error (.rewriteMaskLength rule.matchBytes.length rule.mask.length)
  else if rule.matchBytes.length > rewriteMatchMax then
    .error (.rewriteMatchTooLong rule.matchBytes.length rewriteMatchMax)
  else if rule.direction.isRelative then
    .error (.relativeDirection rule.direction "rewrite rule")
  else if ¬rule.action.isValidFor rule.class_ then
    .error (.rewriteActionClass rule.action rule.class_)
  else if plen > room then
    .error (.rewritePayloadTooLarge rule.action rule.class_ plen rule.offset.toNat room)
  else if (headCap rule).1 then
    .error (.rewritePayloadTooLarge rule.action rule.class_ plen rule.offset.toNat
      (headCap rule).2)
  else .ok ()

def requireImperfect (allowed : Bool) : Except Error Unit :=
  if allowed then .ok () else .error .imperfectRequired

/-- Costed like the box: the payload against what an overwrite leaves of the pool, then the
entry count for a new key. -/
def rewriteCapacity (d : DesiredState) (rule : RewriteRule) : Except Error Unit :=
  let key := (toStored rule).key
  let free := rewritePayloadPool - d.rewritePoolUsedExcept key
  if rule.payload.length > free then
    .error (.rewritePoolFull rule.payload.length free rewritePayloadPool)
  else if ¬d.holdsRewrite key ∧ d.rewriteCount ≥ rewriteMaxEntries then
    .error (.rewriteTableFull rewriteMaxEntries)
  else .ok ()

variable {β : Type}

def setRewriteSend (send : FrameType → List UInt8 → Except Error β) (d : DesiredState)
    (rule : RewriteRule) : DesiredState × Except Error β :=
  let (d, undo) := d.applyRewrite (toStored rule)
  recorded d (d.restoreRewrite undo) <| send .rewrite <|
    rewritePayload rule.class_.asU8 rule.id rule.direction.asU8 1 rule.action.asU8 rule.offset
      rule.matchBytes rule.mask rule.payload

def setRewriteChecked (send : FrameType → List UInt8 → Except Error β) (d : DesiredState)
    (rule : RewriteRule) : DesiredState × Except Error β :=
  match rewriteCapacity d rule with
  | .error e => (d, .error e)
  | .ok () => setRewriteSend send d rule

def setRewrite (allowed : Bool) (send : FrameType → List UInt8 → Except Error β)
    (d : DesiredState) (rule : RewriteRule) : DesiredState × Except Error β :=
  match validateRule rule with
  | .error e => (d, .error e)
  | .ok () =>
    match requireImperfect allowed with
    | .error e => (d, .error e)
    | .ok () => setRewriteChecked send d rule

def removeRewrite (send : FrameType → List UInt8 → Except Error β) (d : DesiredState)
    (rule : RewriteRule) : DesiredState × Except Error β :=
  if rule.matchBytes.length ≠ rule.mask.length then
    (d, .error (.rewriteMaskLength rule.matchBytes.length rule.mask.length))
  else
    let (d, undo) := d.removeRewrite (toStored rule).key
    recorded d (d.restoreRewrite undo) <| send .rewrite <|
      rewritePayload rule.class_.asU8 rule.id rule.direction.asU8 0 rule.action.asU8 rule.offset
        rule.matchBytes rule.mask []

def clearRewrite (send : FrameType → List UInt8 → Except Error β) (d : DesiredState) :
    DesiredState × Except Error β :=
  let held := d.heldRewrites
  let d := d.clearRewrites
  recorded d (held.foldl (fun d r => (d.applyRewrite r).1) d) <| send .rewrite <|
    rewritePayload RewriteClass.any.asU8 rewriteClearId Direction.both.asU8 0 0 0 [] [] []

end Medius.Device
