import Medius.Link.Catch

namespace Medius.Link

open Protocol

/-- Everything held, in the order it is sent again; `withClip` adds the clip's settings and
triggers, for a box that restarted and holds none of them. -/
def reapplyFrames (d : DesiredState) (withClip : Bool) : List (FrameType × List UInt8) :=
  d.held.map (fun h => (.inject, injectPayload h.1.classId.1 h.1.classId.2 h.2.asU8)) ++
    d.heldLocks.map (fun c => (.lock, lockPayload c.1.1 c.1.2.1 c.1.2.2 c.2)) ++
    d.catch_.values.map (fun f => (.catch_, catchFrame 1 f)) ++
    d.heldRewrites.map (fun r => (.rewrite, rewritePayload r.class_ r.id r.direction 1 r.action
      r.offset r.matchBytes r.mask r.payload)) ++
    d.heldTransforms.map (fun t => (.transform, transformPayload t.op t.sclass t.sid t.dclass
      t.did 1)) ++
    if withClip then d.clipConfigFrames else []

/-- The frames written before the first that is too long to be one, where the reapply stops. -/
def reapply (d : DesiredState) (withClip : Bool) : List (FrameType × List UInt8) :=
  (reapplyFrames d withClip).takeWhile fun f => f.2.length ≤ maxPayload

end Medius.Link
