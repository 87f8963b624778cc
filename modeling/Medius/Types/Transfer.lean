import Medius.Protocol.Opcode

namespace Medius.Types

open Protocol

/-- A control transfer's setup packet. -/
structure Setup where
  requestType : UInt8
  request : UInt8
  value : UInt16
  index : UInt16
  length : UInt16
  deriving DecidableEq

namespace Setup

def toBytes (s : Setup) : List UInt8 :=
  [s.requestType, s.request] ++ toLeBytes s.value ++ toLeBytes s.index ++ toLeBytes s.length

def isIn (s : Setup) : Bool := s.requestType &&& 0x80 ≠ 0

@[simp] theorem length_toBytes (s : Setup) : s.toBytes.length = 8 := rfl

theorem toBytes_injective {s t : Setup} (h : s.toBytes = t.toBytes) : s = t := by
  obtain ⟨rt, r, v, i, l⟩ := s
  obtain ⟨rt', r', v', i', l'⟩ := t
  obtain ⟨h, hl⟩ := List.append_inj' h rfl
  obtain ⟨h, hi⟩ := List.append_inj' h rfl
  obtain ⟨h, hv⟩ := List.append_inj' h rfl
  obtain rfl := toLeBytes_injective hl
  obtain rfl := toLeBytes_injective hi
  obtain rfl := toLeBytes_injective hv
  simp only [List.cons.injEq, and_true] at h
  obtain ⟨rfl, rfl⟩ := h
  rfl

end Setup

end Medius.Types
