import Medius.Lib.Writes
import Medius.Link.Reconcile

/-! What a `LOCK` history means: a table of rows by wire address, in which a button blanket
is the same write to every declared button. -/

namespace Medius.Locks

open Protocol Link

abbrev Address := UInt8 × UInt16

abbrev Rows := Address → Slots

abbrev Command := LockKey × Int16

abbrev MediaId := {id : UInt16 // id ≠ 0 ∧ id ≠ lockIdAll}

/-- A row the box holds. -/
inductive Field
  | axis (id : Fin 4)
  | button (b : Fin 16)
  | keys
  | key (u : UInt8)
  | mediaAll
  | media (id : MediaId)
  deriving DecidableEq

def Field.address : Field → Address
  | .axis id => (lockClsAxis, UInt16.ofNat id)
  | .button b => (lockClsBtn, UInt16.ofNat b)
  | .keys => (lockClsKey, lockIdAll)
  | .key u => (lockClsKey, u.toUInt16)
  | .mediaAll => (lockClsMedia, lockIdAll)
  | .media id => (lockClsMedia, id.val)

def act (r : Slots) (c : UInt8 × Int16) : Slots := r.write c.1 c.2

def Rows.clear : Rows := fun _ => Slots.default

def buttonAddresses (n : Nat) : List Address :=
  (List.range n).map fun b => (lockClsBtn, UInt16.ofNat b)

/-- The single-row writes one command stands for. -/
def rowWrites (n : Nat) (c : Command) : List (Address × (UInt8 × Int16)) :=
  let w := (c.1.2.2, momentaryScale c.1.1 c.2)
  if c.1.1 = lockClsBtn ∧ c.1.2.1 = lockIdAll then (buttonAddresses n).map fun a => (a, w)
  else [((c.1.1, c.1.2.1), w)]

/-- A command `sendLock` lets through, for a box with `n` buttons. -/
inductive Accepted (n : Nat) : Command → Prop
  | axis (a : Fin 4) (d : Types.Direction) (scale : Int16) :
    Accepted n ((lockClsAxis, UInt16.ofNat a, d.asU8), scale)
  | buttons {d : Types.Direction} {scale : Int16} (hd : d.isRelative = false) (hs : 0 ≤ scale) :
    Accepted n ((lockClsBtn, lockIdAll, d.asU8), scale)
  | button {b : Fin 16} {d : Types.Direction} {scale : Int16} (hb : b.val < n)
    (hd : d.isRelative = false) (hs : 0 ≤ scale) :
    Accepted n ((lockClsBtn, UInt16.ofNat b, d.asU8), scale)
  | keys {d : Types.Direction} {scale : Int16} (hd : d.isRelative = false) (hs : 0 ≤ scale) :
    Accepted n ((lockClsKey, lockIdAll, d.asU8), scale)
  | key {u : UInt8} {d : Types.Direction} {scale : Int16} (hu : 0x04 ≤ u)
    (hd : d.isRelative = false) (hs : 0 ≤ scale) :
    Accepted n ((lockClsKey, u.toUInt16, d.asU8), scale)
  | mediaAll {scale : Int16} (hs : 0 ≤ scale) :
    Accepted n ((lockClsMedia, lockIdAll, Types.Direction.both.asU8), scale)
  | media {id : MediaId} {scale : Int16} (hs : 0 ≤ scale) :
    Accepted n ((lockClsMedia, id.val, Types.Direction.both.asU8), scale)

/-- A row of a class that carries one bit for each edge. -/
structure Momentary (r : Slots) : Prop where
  one_bit : ∀ i, r i = lockScaleBlock ∨ r i = lockScalePass
  no_bearing : r 2 = lockScalePass ∧ r 3 = lockScalePass

theorem Momentary.default : Momentary Slots.default where
  one_bit _ := .inr rfl
  no_bearing := ⟨rfl, rfl⟩

theorem momentaryScale_one_bit {class_ : UInt8} (h : class_ ≠ lockClsAxis) (scale : Int16) :
    momentaryScale class_ scale = lockScaleBlock ∨ momentaryScale class_ scale = lockScalePass := by
  unfold momentaryScale
  split
  · contradiction
  · split
    · exact .inl rfl
    · exact .inr rfl

theorem Momentary.write {r : Slots} (h : Momentary r) {d : Types.Direction}
    (hd : d.isRelative = false) {scale : Int16}
    (hs : scale = lockScaleBlock ∨ scale = lockScalePass) : Momentary (r.write d.asU8 scale) := by
  by_cases hb : d = .both
  · subst hb
    refine ⟨fun i => ?_, rfl, rfl⟩
    fin_cases i
    · exact hs
    · exact hs
    · exact .inr rfl
    · exact .inr rfl
  · rw [Slots.write_named r (Types.Direction.asU8_eq_both.not.mpr hb)]
    refine ⟨fun i => ?_, ?_⟩
    · by_cases hi : slotDirs i = d.asU8
      · simpa only [if_pos hi] using hs
      · simpa only [if_neg hi] using h.one_bit i
    · cases d with
      | both => contradiction
      | positive | negative => exact h.no_bearing
      | with_ | against => cases hd

theorem buttonAddresses_nodup {n : Nat} (hn : n ≤ 16) : (buttonAddresses n).Nodup := by
  refine List.Nodup.map_on ?_ List.nodup_range
  intro a ha b hb h
  have ha := List.mem_range.mp ha
  have hb := List.mem_range.mp hb
  have hab := congrArg (fun a : Address => a.2.toNat) h
  simp only [UInt16.toNat_ofNat'] at hab
  omega

theorem mem_buttonAddresses {n : Nat} (hn : n ≤ 16) (a : Address) :
    a ∈ buttonAddresses n ↔ a.1 = lockClsBtn ∧ a.2.toNat < n := by
  simp only [buttonAddresses, List.mem_map, List.mem_range]
  constructor
  · rintro ⟨b, hb, rfl⟩
    refine ⟨rfl, ?_⟩
    simp only [UInt16.toNat_ofNat']
    omega
  · rintro ⟨hc, hb⟩
    exact ⟨a.2.toNat, hb, Prod.ext hc.symm (UInt16.ofNat_toNat)⟩

theorem blanket_not_mem_buttonAddresses {n : Nat} (hn : n ≤ 16) :
    (lockClsBtn, lockIdAll) ∉ buttonAddresses n := by
  rw [mem_buttonAddresses hn]
  rintro ⟨-, h⟩
  have : lockIdAll.toNat = 65535 := rfl
  simp only at h
  omega

theorem writeAll_rowWrites_blanket {n : Nat} (hn : n ≤ 16) (W : Rows) (c : Command)
    (h : c.1.1 = lockClsBtn ∧ c.1.2.1 = lockIdAll) (a : Address) :
    Writes.writeAll act W (rowWrites n c) a =
      if a ∈ buttonAddresses n then (W a).write c.1.2.2 (momentaryScale c.1.1 c.2) else W a := by
  rw [rowWrites, if_pos h, Writes.writeAll_map_apply _ _ (buttonAddresses_nodup hn)]
  by_cases ha : a ∈ buttonAddresses n
  · simp only [if_pos ha, act]
  · simp only [if_neg ha]

theorem writeAll_rowWrites_single (n : Nat) (W : Rows) (c : Command)
    (h : ¬(c.1.1 = lockClsBtn ∧ c.1.2.1 = lockIdAll)) (a : Address) :
    Writes.writeAll act W (rowWrites n c) a =
      if a = (c.1.1, c.1.2.1) then (W a).write c.1.2.2 (momentaryScale c.1.1 c.2) else W a := by
  rw [rowWrites, if_neg h, Writes.writeAll_cons, Writes.writeAll_nil, Writes.write_apply]
  rfl

end Medius.Locks
