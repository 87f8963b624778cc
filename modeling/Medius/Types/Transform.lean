import Medius.Types.Usage

namespace Medius.Types

open Protocol

inductive TransformOp
  | remap | swap
  deriving DecidableEq

def TransformOp.asU8 : TransformOp → UInt8
  | .remap => tfRemap
  | .swap => tfSwap

/-- Whether the op takes the pair; the box alone checks that the fields are declared. -/
def TransformOp.admits (op : TransformOp) (source dest : LockTarget) : Bool :=
  if source = dest then false
  else
    match op, source, dest with
    | .swap, .axis _, .axis _ => true
    | .swap, _, _ => false
    | .remap, .axis _, .axis _ => true
    | .remap, .usage s, .usage d =>
      s.class_ = .button && (d.class_ = .button || d.class_ = .key || d.class_ = .media)
    | .remap, _, _ => false

structure Transform where
  op : TransformOp
  source : LockTarget
  dest : LockTarget
  deriving DecidableEq

end Medius.Types
