import Medius.Types.Direction

namespace Medius.Types

open Protocol

/-- Traffic class a rewrite rule may address; `any` is the wire wildcard. -/
inductive RewriteClass
  | hidIn | hidOut | vendorInterrupt | vendorBulk | control | emit | any
  deriving DecidableEq

def RewriteClass.asU8 : RewriteClass → UInt8
  | .hidIn => catchClsHidIn
  | .hidOut => catchClsHidOut
  | .vendorInterrupt => catchClsVendIntr
  | .vendorBulk => catchClsVendBulk
  | .control => catchClsControl
  | .emit => catchClsEmit
  | .any => 0xFF

theorem RewriteClass.asU8_injective : Function.Injective asU8 := by
  intro a b
  cases a <;> cases b <;> decide

def RewriteClass.fromU8 (v : UInt8) : Option RewriteClass :=
  if v = catchClsHidIn then some .hidIn
  else if v = catchClsHidOut then some .hidOut
  else if v = catchClsVendIntr then some .vendorInterrupt
  else if v = catchClsVendBulk then some .vendorBulk
  else if v = catchClsControl then some .control
  else if v = catchClsEmit then some .emit
  else if v = 0xFF then some .any
  else none

@[simp] theorem RewriteClass.fromU8_asU8 (c : RewriteClass) : fromU8 c.asU8 = some c := by
  cases c <;> rfl

def RewriteClass.isControl (c : RewriteClass) : Bool := c = .control

inductive RewriteAction
  | pass | drop | patch | replace | answer | stall | nak | replyPatch | replyReplace
  deriving DecidableEq

def RewriteAction.asU8 : RewriteAction → UInt8
  | .pass => rwPass
  | .drop => rwDrop
  | .patch => rwPatch
  | .replace => rwReplace
  | .answer => rwAnswer
  | .stall => rwStall
  | .nak => rwNak
  | .replyPatch => rwReplyPatch
  | .replyReplace => rwReplyReplace

def RewriteAction.fromU8 (v : UInt8) : Option RewriteAction :=
  if v = rwPass then some .pass
  else if v = rwDrop then some .drop
  else if v = rwPatch then some .patch
  else if v = rwReplace then some .replace
  else if v = rwAnswer then some .answer
  else if v = rwStall then some .stall
  else if v = rwNak then some .nak
  else if v = rwReplyPatch then some .replyPatch
  else if v = rwReplyReplace then some .replyReplace
  else none

@[simp] theorem RewriteAction.fromU8_asU8 (a : RewriteAction) : fromU8 a.asU8 = some a := by
  cases a <;> rfl

/-- Mirrors the box's `rewrite_action_ok`. -/
def RewriteAction.isValidFor (a : RewriteAction) (c : RewriteClass) : Bool :=
  match a with
  | .pass | .patch | .replace => true
  | .drop => !c.isControl && c ≠ .any
  | .answer | .stall | .nak | .replyPatch | .replyReplace => c.isControl

structure RewriteRule where
  class_ : RewriteClass
  id : UInt16
  direction : Direction
  action : RewriteAction
  offset : UInt16
  matchBytes : List UInt8
  mask : List UInt8
  payload : List UInt8
  deriving DecidableEq

/-- `[what][index][cls][id u16][dir][state=1][action][off u16][mlen][match][mask][payload]`, decoded
into the rule that replays it. -/
def rewriteEntryFromPayload : List UInt8 → Option RewriteRule
  | _ :: _ :: cls :: idLo :: idHi :: dir :: _ :: action :: offLo :: offHi :: framed :: rest => do
    let class_ ← RewriteClass.fromU8 cls
    let direction ← Direction.fromU8 dir
    let action ← RewriteAction.fromU8 action
    let mlen := framed.toNat
    if rest.length < 2 * mlen then none
    else
      return {
        class_ := class_
        id := fromLeBytes idLo idHi
        direction := direction
        action := action
        offset := fromLeBytes offLo offHi
        matchBytes := rest.take mlen
        mask := (rest.drop mlen).take mlen
        payload := rest.drop (2 * mlen) }
  | _ => none

/-- The whole-table clear's id. -/
abbrev rewriteClearId : UInt16 := catchIdAny

end Medius.Types
