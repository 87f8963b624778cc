import Medius.Lib.Transducer
import Medius.Protocol.Crc
import Medius.Protocol.Opcode

/-! The wire packet codec: `[SOF][TYPE][SEQ][LEN_LO][LEN_HI][PAYLOAD..][CRC_LO][CRC_HI]`. -/

namespace Medius.Protocol

inductive FrameError
  | payloadTooLong (len : Nat)
  deriving DecidableEq

structure DecodedFrame where
  ty : FrameType
  seq : UInt8
  payload : List UInt8
  deriving DecidableEq

/-- What the CRC covers. -/
def crcInput (ty seq : UInt8) (payload : List UInt8) : List UInt8 :=
  ty :: seq :: toLeBytes (UInt16.ofNat payload.length) ++ payload

def encode (ty : FrameType) (seq : UInt8) (payload : List UInt8) :
    Except FrameError (List UInt8) :=
  if payload.length > maxPayload then .error (.payloadTooLong payload.length)
  else
    let body := crcInput ty.asU8 seq payload
    .ok (sof :: body ++ toLeBytes (crc16Ccitt body))

namespace FrameDecoder

inductive State
  | sof | type | seq | lenLo | lenHi | payload | crcLo | crcHi
  deriving DecidableEq

end FrameDecoder

structure FrameDecoder where
  state : FrameDecoder.State
  ty : UInt8
  seq : UInt8
  len : Nat
  buf : List UInt8
  crcRx : UInt16
  crcErrorCount : Nat

namespace FrameDecoder

def new : FrameDecoder where
  state := .sof
  ty := 0
  seq := 0
  len := 0
  buf := []
  crcRx := 0
  crcErrorCount := 0

def finishFrame (d : FrameDecoder) : FrameDecoder × Option DecodedFrame :=
  if crc16Ccitt (crcInput d.ty d.seq d.buf) ≠ d.crcRx then
    ({ d with crcErrorCount := d.crcErrorCount + 1 }, none)
  else
    match FrameType.tryFrom d.ty with
    | .ok ty => ({ d with buf := [] }, some ⟨ty, d.seq, d.buf⟩)
    | .error _ => (d, none)

def feedByte (d : FrameDecoder) (b : UInt8) : FrameDecoder × Option DecodedFrame :=
  match d.state with
  | .sof => (if b = sof then { d with state := .type } else d, none)
  | .type => ({ d with ty := b, state := .seq }, none)
  | .seq => ({ d with seq := b, state := .lenLo }, none)
  | .lenLo => ({ d with len := b.toNat, state := .lenHi }, none)
  | .lenHi =>
    let len := d.len ||| b.toNat <<< 8
    ({ d with
        len := len
        buf := []
        state := if len > maxPayload then .sof else if len = 0 then .crcLo else .payload }, none)
  | .payload =>
    let buf := d.buf ++ [b]
    ({ d with buf := buf, state := if buf.length ≥ d.len then .crcLo else .payload }, none)
  | .crcLo => ({ d with crcRx := b.toUInt16, state := .crcHi }, none)
  | .crcHi =>
    let (d, frame) := finishFrame { d with crcRx := d.crcRx ||| b.toUInt16 <<< 8 }
    ({ d with state := .sof }, frame)

abbrev feed : FrameDecoder → List UInt8 → FrameDecoder × List DecodedFrame :=
  Transducer.feed feedByte

/-- Successive calls of `feed`, one for each chunk. -/
abbrev feedAll : FrameDecoder → List (List UInt8) → FrameDecoder × List DecodedFrame :=
  Transducer.feedAll feedByte

theorem crcErrorCount_le_feedByte (d : FrameDecoder) (b : UInt8) :
    d.crcErrorCount ≤ (d.feedByte b).1.crcErrorCount := by
  cases h : d.state <;> simp only [feedByte, h]
  case sof => split <;> rfl
  case crcHi =>
    simp only [finishFrame]
    split
    · exact Nat.le_succ _
    · split <;> rfl
  all_goals rfl

theorem crcErrorCount_le_feed (d : FrameDecoder) (bytes : List UInt8) :
    d.crcErrorCount ≤ (d.feed bytes).1.crcErrorCount := by
  induction bytes generalizing d with
  | nil => exact le_rfl
  | cons b bytes ih => exact (crcErrorCount_le_feedByte d b).trans (ih _)

end FrameDecoder

end Medius.Protocol
