import Mathlib

namespace Medius.Protocol

def crcShift (crc : UInt16) : UInt16 :=
  if crc &&& 0x8000 ≠ 0 then (crc <<< 1) ^^^ 0x1021 else crc <<< 1

def crcByte (crc : UInt16) (b : UInt8) : UInt16 :=
  (List.range 8).foldl (fun crc _ => crcShift crc) (crc ^^^ (b.toUInt16 <<< 8))

/-- CRC16-CCITT-FALSE: poly `0x1021`, init `0xFFFF`, MSB-first. -/
def crc16Ccitt (data : List UInt8) : UInt16 := data.foldl crcByte 0xFFFF

example : crc16Ccitt [0x31, 0x32, 0x33, 0x34, 0x35, 0x36, 0x37, 0x38, 0x39] = 0x29B1 := by
  decide +kernel

end Medius.Protocol
