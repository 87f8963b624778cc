import Medius.Protocol.Word
import Medius.Types.Update

/-! The box's side of an update session, as the firmware sequences it. -/

namespace Medius.Mock

open Protocol Medius.Types

abbrev mockSlotSize : Nat := 0xF0000

structure MockUpdate where
  active : Bool := false
  size : Nat := 0
  got : Nat := 0
  nextSeq : UInt16 := 0
  sinceAck : Nat := 0
  sha : List UInt8 := List.replicate 32 0
  hasher : List UInt8 := []
  staged : Bool := false
  deriving DecidableEq

namespace MockUpdate

def begin_ (s : MockUpdate) (body : List UInt8) : MockUpdate × UpdateStatus × UInt32 :=
  match body with
  | a :: b :: c :: d :: rest =>
    if rest.length < 32 then (s, UpdateStatus.badState, 0)
    else if s.active then (s, UpdateStatus.busy, 0)
    else
      let size := (fromLeBytes32 a b c d).toNat
      if size = 0 ∨ size > mockSlotSize then
        (s, UpdateStatus.tooBig, UInt32.ofNat mockSlotSize)
      else
        ({ s with
            active := true
            staged := false
            size := size
            got := 0
            nextSeq := 0
            sinceAck := 0
            hasher := []
            sha := rest.take 32 }, UpdateStatus.ready, 16)
  | _ => (s, UpdateStatus.badState, 0)

/-- A reply only when the box owes one: a chunk inside an open window is written
unacknowledged. -/
def data (s : MockUpdate) (body : List UInt8) : MockUpdate × Option (UpdateStatus × UInt32) :=
  match body with
  | lo :: hi :: b :: bytes' =>
    let bytes := b :: bytes'
    if !s.active then (s, some (UpdateStatus.badState, 0))
    else
      let seq := fromLeBytes lo hi
      if 0 < s.nextSeq ∧ seq = s.nextSeq - 1 then
        (s, some (UpdateStatus.ack, s.nextSeq.toUInt32))
      else if seq ≠ s.nextSeq then
        ({ s with active := false }, some (UpdateStatus.seqGap, s.nextSeq.toUInt32))
      else if bytes.isEmpty ∨ bytes.length > 504 then
        ({ s with active := false }, some (UpdateStatus.badState, 504))
      else if s.got + bytes.length > s.size then
        ({ s with active := false }, some (UpdateStatus.tooBig, UInt32.ofNat s.size))
      else
        let s := { s with
          hasher := s.hasher ++ bytes
          got := s.got + bytes.length
          nextSeq := s.nextSeq + 1
          sinceAck := s.sinceAck + 1 }
        if s.sinceAck ≥ 16 ∨ s.got = s.size then
          ({ s with sinceAck := 0 }, some (UpdateStatus.ack, s.nextSeq.toUInt32))
        else (s, none)
  | _ => (s, some (UpdateStatus.badState, 1))

variable (digest : List UInt8 → Vector UInt8 32)

def end_ (s : MockUpdate) : MockUpdate × UpdateStatus × UInt32 :=
  if !s.active then (s, UpdateStatus.badState, 0)
  else if s.got ≠ s.size then
    ({ s with active := false }, UpdateStatus.badState, UInt32.ofNat (s.size - s.got))
  else if (digest s.hasher).toList ≠ s.sha then
    ({ s with active := false }, UpdateStatus.badSha, 0)
  else ({ s with active := false, staged := true }, UpdateStatus.staged, UInt32.ofNat s.size)

end MockUpdate

/-- One session per chip. -/
structure UpdateState where
  device : MockUpdate := {}
  host : MockUpdate := {}
  refuseActivate : Option UpdateStatus := none
  deriving DecidableEq

namespace UpdateState

def session (st : UpdateState) : UpdateTarget → MockUpdate
  | .device => st.device
  | .host => st.host

def setSession (st : UpdateState) (s : MockUpdate) : UpdateTarget → UpdateState
  | .device => { st with device := s }
  | .host => { st with host := s }

@[simp] theorem session_setSession (st : UpdateState) (s : MockUpdate) (target : UpdateTarget) :
    (st.setSession s target).session target = s := by
  cases target <;> rfl

def target? : UInt8 → Option UpdateTarget
  | 0 => some .device
  | 1 => some .host
  | _ => none

@[simp] theorem target?_asU8 (target : UpdateTarget) : target? target.asU8 = some target := by
  cases target <;> rfl

variable (digest : List UInt8 → Vector UInt8 32)

/-- The reply's target, status and argument, or nothing when the box owes none. -/
def updateOp (st : UpdateState) (payload : List UInt8) :
    UpdateState × Option (UInt8 × UpdateStatus × UInt32) :=
  match payload with
  | op :: target :: body =>
    if op = otaOpActivate then
      match st.refuseActivate with
      | some status => ({ st with refuseActivate := none }, some (0, status, 0))
      | none =>
        if st.device.staged || st.host.staged then ({ st with device := {}, host := {} },
          some (0, UpdateStatus.ok, 0))
        else (st, some (0, UpdateStatus.nothingStaged, 0))
    else
      match target? target with
      | none => (st, none)
      | some chip =>
        let s := st.session chip
        if op = otaOpBegin then
          let (s, status, arg) := s.begin_ body
          (st.setSession s chip, some (target, status, arg))
        else if op = otaOpData then
          let (s, reply) := s.data body
          (st.setSession s chip, reply.map fun r => (target, r))
        else if op = otaOpEnd then
          let (s, status, arg) := s.end_ digest
          (st.setSession s chip, some (target, status, arg))
        else if op = otaOpAbort then
          (st.setSession {} chip, some (target, UpdateStatus.ok, 0))
        else (st, none)
  | _ => (st, none)

/-- The payload of the reply frame to one `UPDATE` frame. -/
def onUpdate (st : UpdateState) (payload : List UInt8) : UpdateState × Option (List UInt8) :=
  let (st, reply) := st.updateOp digest payload
  (st, reply.map fun r => payload.headD 0 :: r.1 :: r.2.1 :: toLeBytes32 r.2.2)

variable {digest} (st : UpdateState) (target : UpdateTarget)

theorem onUpdate_begin (body : List UInt8) :
    st.onUpdate digest (otaOpBegin :: target.asU8 :: body) =
      let r := (st.session target).begin_ body
      (st.setSession r.1 target,
        some (otaOpBegin :: target.asU8 :: r.2.1 :: toLeBytes32 r.2.2)) := by
  cases target <;> rfl

theorem onUpdate_data (body : List UInt8) :
    st.onUpdate digest (otaOpData :: target.asU8 :: body) =
      let r := (st.session target).data body
      (st.setSession r.1 target,
        r.2.map fun r => otaOpData :: target.asU8 :: r.1 :: toLeBytes32 r.2) := by
  have h : ∀ reply : Option (UpdateStatus × UInt32),
      (reply.map fun r => (target.asU8, r)).map (fun r =>
        otaOpData :: r.1 :: r.2.1 :: toLeBytes32 r.2.2) =
      reply.map fun r => otaOpData :: target.asU8 :: r.1 :: toLeBytes32 r.2 := by
    intro reply
    cases reply <;> rfl
  refine Eq.trans ?_ (congrArg (Prod.mk _) (h _))
  cases target <;> rfl

theorem onUpdate_end (body : List UInt8) :
    st.onUpdate digest (otaOpEnd :: target.asU8 :: body) =
      let r := (st.session target).end_ digest
      (st.setSession r.1 target,
        some (otaOpEnd :: target.asU8 :: r.2.1 :: toLeBytes32 r.2.2)) := by
  cases target <;> rfl

end UpdateState

end Medius.Mock
