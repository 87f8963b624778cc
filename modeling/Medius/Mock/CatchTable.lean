import Medius.Lib.BTreeMap
import Medius.Protocol.Command

namespace Medius.Mock

open Protocol

abbrev CatchKey := UInt8 × UInt16 × UInt8

/-- The box's catch table: what each entry keeps of a packet, as the wire byte. -/
abbrev CatchTable := BTreeMap CatchKey UInt8

namespace CatchTable

/-- A state-0 frame to the wildcard clears the table, whatever its direction. -/
def applyFrame (t : CatchTable) : List UInt8 → CatchTable
  | [class_, idLo, idHi, dir, state, snaplen] =>
    let id := fromLeBytes idLo idHi
    if state = 0 then
      if class_ = catchClsAny ∧ id = catchIdAny then ∅ else t.erase (class_, id, dir)
    else t.insert (class_, id, dir) snaplen
  | _ => t

def applyFrames (t : CatchTable) (frames : List (List UInt8)) : CatchTable :=
  frames.foldl applyFrame t

@[simp] theorem applyFrames_nil (t : CatchTable) : applyFrames t [] = t := rfl

@[simp] theorem applyFrames_cons (t : CatchTable) (p : List UInt8) (frames : List (List UInt8)) :
    applyFrames t (p :: frames) = applyFrames (applyFrame t p) frames := rfl

theorem applyFrames_append (t : CatchTable) (ps qs : List (List UInt8)) :
    applyFrames t (ps ++ qs) = applyFrames (applyFrames t ps) qs :=
  List.foldl_append

theorem applyFrame_set (t : CatchTable) (class_ : UInt8) (id : UInt16) (dir snaplen : UInt8) :
    applyFrame t (catchPayload class_ id dir 1 snaplen) = t.insert (class_, id, dir) snaplen := by
  simp only [applyFrame, catchPayload, toLeBytes, List.cons_append, List.nil_append,
    fromLeBytes_toLeBytes]
  exact if_neg (by decide)

theorem applyFrame_remove (t : CatchTable) {class_ : UInt8} {id : UInt16} (dir snaplen : UInt8)
    (h : ¬(class_ = catchClsAny ∧ id = catchIdAny)) :
    applyFrame t (catchPayload class_ id dir 0 snaplen) = t.erase (class_, id, dir) := by
  simp only [applyFrame, catchPayload, toLeBytes, List.cons_append, List.nil_append,
    fromLeBytes_toLeBytes, if_neg h, if_true]

theorem applyFrame_clear (t : CatchTable) (dir snaplen : UInt8) :
    applyFrame t (catchPayload catchClsAny catchIdAny dir 0 snaplen) = ∅ := rfl

theorem mem_of_mem_applyFrame_remove {t : CatchTable} {class_ : UInt8} {id : UInt16}
    {dir snaplen : UInt8} {k : CatchKey}
    (hk : k ∈ applyFrame t (catchPayload class_ id dir 0 snaplen)) : k ∈ t := by
  by_cases h : class_ = catchClsAny ∧ id = catchIdAny
  · rw [h.1, h.2, applyFrame_clear] at hk
    exact absurd hk Std.ExtTreeMap.not_mem_empty
  · rw [applyFrame_remove t dir snaplen h] at hk
    exact Std.ExtTreeMap.mem_of_mem_erase hk

theorem size_applyFrame_remove (t : CatchTable) (class_ : UInt8) (id : UInt16) (dir snaplen : UInt8) :
    (applyFrame t (catchPayload class_ id dir 0 snaplen)).size ≤ t.size := by
  by_cases h : class_ = catchClsAny ∧ id = catchIdAny
  · rw [h.1, h.2, applyFrame_clear]
    exact Nat.zero_le _
  · rw [applyFrame_remove t dir snaplen h]
    exact Std.ExtTreeMap.size_erase_le

end CatchTable

end Medius.Mock
