import Medius.Device.Update
import Medius.Mock.Update

/-! Both sides of a transfer after `k` chunks, as functions of `k`. -/

namespace Medius.Update

open Protocol Medius.Types Medius.Device Medius.Mock

section

variable (image : List UInt8) (target : UpdateTarget)

def chunkCount : Nat := (image.length + 503) / 504

def sentAt (k : Nat) : Nat := min (504 * k) image.length

/-- The plan with `k` chunks sent and `a` of them acknowledged. -/
def planAt (a k : Nat) : ChunkPlan where
  image := image
  target := target
  credit := 16
  seq := UInt16.ofNat k
  sent := sentAt image k
  unacked := k - a

def chunkBytes (k : Nat) : List UInt8 :=
  (image.drop (sentAt image k)).take (sentAt image (k + 1) - sentAt image k)

def chunkFrame (k : Nat) : List UInt8 :=
  otaOpData :: target.asU8 :: toLeBytes (UInt16.ofNat k) ++ chunkBytes image k

variable (digest : List UInt8 → Vector UInt8 32)

/-- The session with `k` chunks written. -/
def sessionAt (k : Nat) : MockUpdate where
  active := true
  size := image.length
  got := sentAt image k
  nextSeq := UInt16.ofNat k
  sinceAck := if k = chunkCount image then 0 else k % 16
  sha := (digest image).toList
  hasher := image.take (sentAt image k)
  staged := false

/-- The session once the image is staged. -/
def sessionStaged : MockUpdate :=
  { sessionAt image digest (chunkCount image) with active := false, staged := true }

end

section

variable {image : List UInt8} {k : Nat}

theorem sentAt_le (image : List UInt8) (k : Nat) : sentAt image k ≤ image.length :=
  Nat.min_le_right _ _

@[simp] theorem sentAt_zero (image : List UInt8) : sentAt image 0 = 0 := by simp [sentAt]

@[simp] theorem sentAt_chunkCount (image : List UInt8) :
    sentAt image (chunkCount image) = image.length := by
  simp only [sentAt, chunkCount]
  omega

theorem chunkCount_pos (hne : image ≠ []) : 0 < chunkCount image := by
  have := List.length_pos_of_ne_nil hne
  simp only [chunkCount]
  omega

theorem sentAt_lt_length (hk : k < chunkCount image) : sentAt image k < image.length := by
  simp only [sentAt, chunkCount] at hk ⊢
  omega

theorem length_le_sentAt (hk : chunkCount image ≤ k) : image.length ≤ sentAt image k := by
  simp only [sentAt, chunkCount] at hk ⊢
  omega

theorem sentAt_lt_sentAt {a : Nat} (hak : a < k) (hk : k ≤ chunkCount image) :
    sentAt image a < sentAt image k := by
  simp only [sentAt, chunkCount] at hk ⊢
  omega

theorem sentAt_succ (hk : k < chunkCount image) :
    min (sentAt image k + otaChunk) image.length = sentAt image (k + 1) := by
  simp only [sentAt, chunkCount, otaChunk] at hk ⊢
  omega

theorem sentAt_succ_sub_le (image : List UInt8) (k : Nat) :
    sentAt image (k + 1) - sentAt image k ≤ 504 := by
  simp only [sentAt]
  omega

theorem sentAt_succ_eq_length (hk : k < chunkCount image) :
    sentAt image (k + 1) = image.length ↔ k + 1 = chunkCount image := by
  simp only [sentAt, chunkCount] at hk ⊢
  omega

theorem length_chunkBytes (image : List UInt8) (k : Nat) :
    (chunkBytes image k).length = sentAt image (k + 1) - sentAt image k := by
  simp only [chunkBytes, List.length_take, List.length_drop, sentAt]
  omega

theorem take_append_chunkBytes (hk : k < chunkCount image) :
    image.take (sentAt image k) ++ chunkBytes image k = image.take (sentAt image (k + 1)) := by
  have hlt := sentAt_lt_sentAt (Nat.lt_add_one k) hk
  rw [chunkBytes, ← List.take_add, Nat.add_sub_cancel' hlt.le]

end

/-! ## The host's plan -/

section

variable {image : List UInt8} {target : UpdateTarget} {a k : Nat}

theorem nextFrame_planAt (hk : k < chunkCount image) (ha : k < a + 16) (hak : a ≤ k) :
    (planAt image target a k).nextFrame =
      some (chunkFrame image target k, planAt image target a (k + 1)) := by
  have hlt := sentAt_lt_length hk
  have hnot : ¬(sentAt image k ≥ image.length ∨ k - a ≥ 16) := by omega
  have hseq : UInt16.ofNat k + 1 = UInt16.ofNat (k + 1) := by simp
  have hunacked : k - a + 1 = k + 1 - a := by omega
  simp only [ChunkPlan.nextFrame, planAt, if_neg hnot, sentAt_succ hk, hseq, hunacked]
  rfl

theorem nextFrame_planAt_none (h : chunkCount image ≤ k ∨ a + 16 ≤ k) :
    (planAt image target a k).nextFrame = none := by
  have hstop : sentAt image k ≥ image.length ∨ k - a ≥ 16 :=
    h.imp length_le_sentAt fun h => by omega
  exact if_pos hstop

theorem awaitingAck_planAt (hak : a < k) (h : chunkCount image ≤ k ∨ a + 16 ≤ k) :
    (planAt image target a k).awaitingAck = true := by
  have hstop : k - a ≥ 16 ∨ sentAt image k ≥ image.length :=
    h.symm.imp (fun h => by omega) length_le_sentAt
  have hpos : k - a > 0 := by omega
  simpa [ChunkPlan.awaitingAck, planAt, hpos] using hstop

theorem done_planAt (image : List UInt8) (target : UpdateTarget) (a k : Nat) :
    (planAt image target a k).done = true ↔ chunkCount image ≤ k ∧ k ≤ a := by
  have h : sentAt image k ≥ image.length ↔ chunkCount image ≤ k := by
    simp only [sentAt, chunkCount]
    omega
  simp [ChunkPlan.done, planAt, h, Nat.sub_eq_zero_iff_le]

theorem onAck_planAt :
    (planAt image target a k).onAck UpdateStatus.ack (UInt16.ofNat k).toUInt32 =
      .ok (planAt image target k k, ⟨target, sentAt image k, image.length⟩) := by
  simp [ChunkPlan.onAck, planAt]

theorem new_eq_planAt :
    ChunkPlan.new image target 16 = planAt image target 0 0 := by
  simp [ChunkPlan.new, planAt]

end

/-! ## The box's session -/

section

variable {image : List UInt8} {digest : List UInt8 → Vector UInt8 32} {k : Nat}

theorem begin_inactive {s : MockUpdate} (hs : s.active = false) (hne : image ≠ [])
    (hlen : image.length ≤ mockSlotSize) :
    s.begin_ (beginBody digest image) = (sessionAt image digest 0, UpdateStatus.ready, 16) := by
  have hpos := List.length_pos_of_ne_nil hne
  have hsize : (UInt32.ofNat image.length).toNat = image.length := by
    simp only [mockSlotSize] at hlen
    rw [UInt32.toNat_ofNat']
    omega
  have hround := fromLeBytes32_toLeBytes32 (UInt32.ofNat image.length)
  rw [hsize] at hround
  have hbad : ¬(image.length = 0 ∨ image.length > mockSlotSize) := by omega
  have htake : (digest image).toList.take 32 = (digest image).toList :=
    List.take_of_length_le (by simp)
  simp only [MockUpdate.begin_, beginBody, toLeBytes32, hsize, List.cons_append, List.nil_append,
    hround, hs, if_neg hbad, htake]
  simp [sessionAt]

theorem data_sessionAt (hk : k < chunkCount image) :
    (sessionAt image digest k).data (toLeBytes (UInt16.ofNat k) ++ chunkBytes image k) =
      (sessionAt image digest (k + 1),
        if (k + 1) % 16 = 0 ∨ k + 1 = chunkCount image then
          some (UpdateStatus.ack, (UInt16.ofNat (k + 1)).toUInt32)
        else none) := by
  have hlt := sentAt_lt_sentAt (Nat.lt_add_one k) hk
  have hchunk := length_chunkBytes image k
  have hsmall := sentAt_succ_sub_le image k
  have htop := sentAt_le image (k + 1)
  obtain ⟨b, bs, hb⟩ : ∃ b bs, chunkBytes image k = b :: bs :=
    List.exists_cons_of_length_pos (by omega)
  have hhash := take_append_chunkBytes hk
  rw [hb] at hchunk hhash
  have hgot : sentAt image k + (b :: bs).length = sentAt image (k + 1) := by omega
  have hold : ¬(UInt16.ofNat k = UInt16.ofNat k - 1) := by grind
  have hlong : ¬((b :: bs).length > 504) := by omega
  have hfit : ¬(sentAt image (k + 1) > image.length) := by omega
  have hsince : ¬k = chunkCount image := by omega
  have hseq : UInt16.ofNat k + 1 = UInt16.ofNat (k + 1) := by simp
  have hdue : k % 16 + 1 ≥ 16 ∨ sentAt image (k + 1) = image.length ↔
      (k + 1) % 16 = 0 ∨ k + 1 = chunkCount image := by
    rw [sentAt_succ_eq_length hk]
    omega
  rw [hb]
  simp only [MockUpdate.data, toLeBytes, List.cons_append, List.nil_append, sessionAt,
    fromLeBytes_toLeBytes, hold, hlong, hgot, hfit, hsince, hseq, hhash,
    Bool.not_true, Bool.false_eq_true, and_false, if_false, ne_eq, not_true, List.isEmpty_cons,
    or_self, hdue]
  by_cases h : (k + 1) % 16 = 0 ∨ k + 1 = chunkCount image
  · have hzero : (if k + 1 = chunkCount image then 0 else (k + 1) % 16) = 0 := by
      split <;> omega
    rw [if_pos h, if_pos h, hzero]
  · have hopen : k % 16 + 1 = if k + 1 = chunkCount image then 0 else (k + 1) % 16 := by
      split <;> omega
    rw [if_neg h, if_neg h, hopen]

theorem end_sessionAt :
    (sessionAt image digest (chunkCount image)).end_ digest =
      (sessionStaged image digest, UpdateStatus.staged, UInt32.ofNat image.length) := by
  simp [MockUpdate.end_, sessionAt, sessionStaged]

end

end Medius.Update
