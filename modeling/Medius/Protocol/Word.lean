import Medius.Protocol.Opcode

namespace Medius.Protocol

/-- Four bytes, low first. -/
def toLeBytes32 (v : UInt32) : List UInt8 :=
  [UInt8.ofNat v.toNat, UInt8.ofNat (v.toNat / 256), UInt8.ofNat (v.toNat / 65536),
    UInt8.ofNat (v.toNat / 16777216)]

def fromLeBytes32 (a b c d : UInt8) : UInt32 :=
  UInt32.ofNat (a.toNat + 256 * b.toNat + 65536 * c.toNat + 16777216 * d.toNat)

@[simp] theorem length_toLeBytes32 (v : UInt32) : (toLeBytes32 v).length = 4 := rfl

@[simp] theorem fromLeBytes32_toLeBytes32 (v : UInt32) :
    fromLeBytes32 (UInt8.ofNat v.toNat) (UInt8.ofNat (v.toNat / 256))
      (UInt8.ofNat (v.toNat / 65536)) (UInt8.ofNat (v.toNat / 16777216)) = v := by
  have hv : v.toNat < 4294967296 := v.toNat_lt
  apply UInt32.toNat_inj.mp
  simp only [fromLeBytes32, UInt8.toNat_ofNat', UInt32.toNat_ofNat']
  omega

end Medius.Protocol
