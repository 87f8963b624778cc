import Medius.Mock.PacketRun
import Medius.Packets.Exact

/-! Of the triggers a packet matches, the most specific acts, and the earlier of two alike. -/

namespace Medius.Packets

open Protocol Mock Mock.PacketTriggers

structure Packet where
  class_ : UInt8
  id : UInt16
  dir : UInt8
  head : List UInt8

/-- The packet meets every field of the trigger. -/
structure Matches (r : MockPacketTrigger) (p : Packet) : Prop where
  class_ : r.class_ = p.class_
  id : r.id = p.id ∨ r.id = catchIdAny
  dir : r.dir = lockDirBoth ∨ p.dir = lockDirBoth ∨ r.dir = p.dir
  head : pktHeadEq r.matchBytes r.mask r.matchBytes.length p.head

def maskBits (r : MockPacketTrigger) : Nat := (r.mask.map countOnes).sum

/-- An exact id first, then the mask's bits, then a named direction. -/
def rank (r : MockPacketTrigger) (p : Packet) : Nat ×ₗ Nat ×ₗ Nat :=
  toLex (if r.id = p.id then 1 else 0, toLex (maskBits r, if r.dir = lockDirBoth then 0 else 1))

abbrev scoreFor (p : Packet) (r : MockPacketTrigger) : Option Nat :=
  r.score p.class_ p.id p.dir p.head

theorem countOnes_le (b : UInt8) : countOnes b ≤ 8 := by
  exact List.countP_le_length.trans (List.length_range).le

theorem maskBits_le (r : MockPacketTrigger) : maskBits r ≤ 8 * r.mask.length := by
  unfold maskBits
  induction r.mask with
  | nil => exact Nat.le_refl _
  | cons b mask ih =>
    have hb := countOnes_le b
    simp only [List.map_cons, List.sum_cons, List.length_cons]
    omega

/-- The digits of a rank in one number. -/
def packed (exact_ bits named : Nat) : Nat := exact_ * 100000 + (bits * 10 + named)

theorem packed_lt_iff {e e' b b' n n' : Nat} (hb : b < 9999) (hb' : b' < 9999) (hn : n < 10)
    (hn' : n' < 10) :
    packed e b n < packed e' b' n' ↔ toLex (e, toLex (b, n)) < toLex (e', toLex (b', n')) := by
  rw [packed, packed, Top.digits_lt_iff (by omega) (by omega), Prod.Lex.toLex_lt_toLex,
    Prod.Lex.toLex_lt_toLex, Top.digits_lt_iff hn hn']

/-- The rank in the weights of the score. -/
def weight (r : MockPacketTrigger) (p : Packet) : Nat :=
  packed (if r.id = p.id then 1 else 0) (maskBits r) (if r.dir = lockDirBoth then 0 else 1)

theorem weight_lt_iff {r r' : MockPacketTrigger} {p : Packet} (hr : maskBits r < 9999)
    (hr' : maskBits r' < 9999) : weight r p < weight r' p ↔ rank r p < rank r' p :=
  packed_lt_iff hr hr' (by split <;> omega) (by split <;> omega)

theorem weight_le_iff {r r' : MockPacketTrigger} {p : Packet} (hr : maskBits r < 9999)
    (hr' : maskBits r' < 9999) : weight r p ≤ weight r' p ↔ rank r p ≤ rank r' p := by
  rw [← not_lt, weight_lt_iff hr' hr, not_lt]

theorem idRank_eq_some {r : MockPacketTrigger} {p : Packet} {n : Nat} :
    r.idRank p.class_ p.id = some n ↔ r.class_ = p.class_ ∧ (r.id = p.id ∨ r.id = catchIdAny) ∧
      n = 1 + if r.id = p.id then 1 else 0 := by
  unfold MockPacketTrigger.idRank
  by_cases hclass : r.class_ = p.class_
  · by_cases hexact : r.id = p.id
    · simp [hclass, hexact, eq_comm]
    · by_cases hany : r.id = catchIdAny
      · rw [if_neg (not_not.mpr hclass), if_neg hexact, if_pos hany, if_neg hexact]
        simp [hclass, hany, eq_comm]
      · simp [hclass, hexact, hany]
  · simp [hclass]

theorem score_of_matches {r : MockPacketTrigger} {p : Packet} (h : Matches r p) :
    scoreFor p r = some (100000 + weight r p) := by
  have hdir : ¬(r.dir ≠ lockDirBoth ∧ p.dir ≠ lockDirBoth ∧ r.dir ≠ p.dir) := by
    rintro ⟨hr, hp, hne⟩
    exact h.dir.elim hr fun h => h.elim hp hne
  rw [scoreFor, MockPacketTrigger.score, idRank_eq_some.mpr ⟨h.class_, h.id, rfl⟩,
    Option.bind_some, if_neg hdir, if_neg (not_not.mpr h.head), weight, packed, maskBits]
  refine congrArg some ?_
  by_cases hboth : r.dir = lockDirBoth
  · rw [if_neg (not_not.mpr hboth), if_pos hboth]
    ring
  · rw [if_pos hboth, if_neg hboth]
    ring

theorem matches_of_score {r : MockPacketTrigger} {p : Packet} {s : Nat}
    (h : scoreFor p r = some s) : Matches r p := by
  obtain ⟨n, hn, h⟩ := Option.bind_eq_some_iff.mp h
  obtain ⟨hclass, hid, -⟩ := idRank_eq_some.mp hn
  by_cases hdir : r.dir ≠ lockDirBoth ∧ p.dir ≠ lockDirBoth ∧ r.dir ≠ p.dir
  · rw [if_pos hdir] at h
    cases h
  · by_cases hhead : pktHeadEq r.matchBytes r.mask r.matchBytes.length p.head
    · exact ⟨hclass, hid, by tauto, hhead⟩
    · rw [if_neg hdir, if_pos hhead] at h
      cases h

theorem score_eq_none {r : MockPacketTrigger} {p : Packet} :
    scoreFor p r = none ↔ ¬Matches r p := by
  constructor
  · intro h hm
    rw [score_of_matches hm] at h
    cases h
  · intro h
    by_contra hs
    obtain ⟨s, hs⟩ := Option.ne_none_iff_exists'.mp hs
    exact h (matches_of_score hs)

/-- The trigger that acts: none matches better, and none before it as well. -/
structure Chosen (rows : Rows) (p : Packet) (i : Nat) (r : MockPacketTrigger) : Prop where
  row : rows[i]? = some r
  matches_ : Matches r p
  greatest : ∀ r' ∈ rows, Matches r' p → rank r' p ≤ rank r p
  earliest : ∀ j < i, ∀ r' ∈ rows[j]?, Matches r' p → rank r' p < rank r p

/-- The widest mask a row can have stays clear of the id's weight. -/
theorem maskBits_lt {r : MockPacketTrigger} (h : r.mask.length ≤ pktMatchMax) :
    maskBits r < 9999 := by
  have hbits := maskBits_le r
  have hlen : r.mask.length ≤ 16 := h
  omega

theorem chosen_of_first {rows : Rows} (hrows : ∀ r ∈ rows, r.mask.length ≤ pktMatchMax)
    {p : Packet} {i s : Nat} (h : Top.First (scoreFor p) rows i s) : ∃ r, Chosen rows p i r := by
  obtain ⟨r, hrow, hs⟩ := h.scored
  have hr := maskBits_lt (hrows r (List.mem_of_getElem? hrow))
  have hm := matches_of_score hs
  obtain rfl : 100000 + weight r p = s := Option.some.inj ((score_of_matches hm).symm.trans hs)
  refine ⟨r, hrow, hm, fun r' hr' hm' => ?_, fun j hj r' hr' hm' => ?_⟩
  · have hle := h.greatest r' hr' _ (score_of_matches hm')
    exact (weight_le_iff (maskBits_lt (hrows r' hr')) hr).mp (Nat.le_of_add_le_add_left hle)
  · have hlt := h.earliest j hj r' hr' _ (score_of_matches hm')
    exact (weight_lt_iff (maskBits_lt (hrows r' (List.mem_of_getElem? hr'))) hr).mp
      (Nat.lt_of_add_lt_add_left hlt)

end Medius.Packets
