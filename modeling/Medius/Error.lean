import Medius.Types.Catch
import Medius.Types.Rewrite
import Medius.Types.Transform
import Medius.Types.Update

namespace Medius

open Medius.Types

inductive Error
  | io
  | queryTimeout
  | disconnected
  | frameTooLong
  | lockScaleRange (scale min max : Int16)
  | lockScaleUsage (scale : Int16) (class_ : UInt8)
  | relativeDirection (direction : Direction) (what : String)
  | imperfectRequired
  | rewriteMaskLength (matchLen maskLen : Nat)
  | rewriteMatchTooLong (len limit : Nat)
  | rewriteTableFull (limit : Nat)
  | rewritePoolFull (len free limit : Nat)
  | rewriteActionClass (action : RewriteAction) (class_ : RewriteClass)
  | rewritePayloadTooLarge (action : RewriteAction) (class_ : RewriteClass) (len offset cap : Nat)
  | catchTableFull (needed limit : Nat)
  | emptySubscription
  | captureNotApplicable (class_ : CatchClass)
  | reservedId (class_ : CatchClass) (id : UInt16)
  | transformOpFields (op : TransformOp) (src dst : LockTarget)
  | transformTableFull (limit : Nat)
  | rawDirection (direction : Direction)
  | clipFrameCount (what : String) (count limit : Nat)
  | clipFrameTooLong (len : Nat)
  | clipTransferData (want got : Nat)
  | clipPacketTrigger (reason : String)
  | update (op : UInt8) (status : UpdateStatus) (arg : UInt32)
  | badProtoVer (got : UInt8)
  | notFound
  deriving DecidableEq

end Medius
