import Medius.Device.Patch
import Medius.Lib.Keyed
import Medius.Lib.Steps
import Medius.Mock.PatchStore

/-! What the host reads back of the patches it stored. -/

namespace Medius.Readback

open Protocol Mock Medius.Types

def boxedPatch (p : Patch) : MockPatch := ⟨p.section_.asU8, p.cfg, p.index, p.offset, p.bytes⟩

def patchFrame (p : Patch) : List UInt8 :=
  patchPayload p.section_.asU8 p.cfg p.index p.offset p.bytes

section Frame

variable (allowed grace : Bool)

theorem applyPatchFrame_patchFrame (s : PatchStore) (p : Patch) :
    s.applyPatchFrame allowed grace (patchFrame p) = s.put (boxedPatch p) := by
  have happly : p.section_.asU8 ≠ patchApply := by cases p.section_ <;> decide
  have hclear : p.section_.asU8 ≠ patchClear := by cases p.section_ <;> decide
  change (if p.section_.asU8 = patchApply then _ else if p.section_.asU8 = patchClear then _ else
    if (PatchSection.fromU8 p.section_.asU8).isNone then s else s.put _) = _
  rw [if_neg happly, if_neg hclear, PatchSection.fromU8_asU8, fromLeBytes_toLeBytes]
  rfl

/-- A frame reaches the box, or is too long to be one. -/
def deliverPatch (s : PatchStore) (frame : FrameType) (payload : List UInt8) :
    Except Error PatchStore :=
  if payload.length > maxPayload then .error Error.frameTooLong
  else .ok (if frame = .patch then s.applyPatchFrame allowed grace payload else s)

def setPatch (s : PatchStore) (p : Patch) : Option PatchStore :=
  (Device.setPatch (deliverPatch allowed grace s) p).toOption

theorem length_patchFrame (p : Patch) : (patchFrame p).length = 5 + p.bytes.length := by
  simp only [patchFrame, patchPayload, List.length_append, List.length_cons, length_toLeBytes]

theorem setPatch_eq (s : PatchStore) (p : Patch) :
    setPatch allowed grace s p =
      if 5 + p.bytes.length > maxPayload then none else some (s.put (boxedPatch p)) := by
  unfold setPatch Device.setPatch deliverPatch
  change Except.toOption (if (patchFrame p).length > maxPayload then .error Error.frameTooLong
    else .ok (s.applyPatchFrame allowed grace (patchFrame p))) = _
  rw [length_patchFrame, applyPatchFrame_patchFrame]
  split <;> rfl

theorem setPatch_eq_some {s s' : PatchStore} {p : Patch}
    (h : setPatch allowed grace s p = some s') : s' = s.put (boxedPatch p) := by
  rw [setPatch_eq] at h
  split at h
  · cases h
  · exact (Option.some.inj h).symm

end Frame

/-- Each key once, and under it the bytes of a patch. -/
structure Kept (s : PatchStore) : Prop where
  keyed : (s.patches.map MockPatch.key).Nodup
  held : ∀ q ∈ s.patches, q.bytes ≠ [] ∧ ∃ p, q = boxedPatch p

theorem Kept.default : Kept .default where
  keyed := List.nodup_nil
  held := fun _ h => absurd h List.not_mem_nil

/-- A frame leaves the set alone, takes a patch out, or puts one last. -/
theorem put_cases (s : PatchStore) (q : MockPatch) :
    (s.put q).patches = s.patches ∨
      (s.put q).patches = Keyed.remove MockPatch.key s.patches q.key ∨
      q.bytes ≠ [] ∧ (s.put q).patches = Keyed.remove MockPatch.key s.patches q.key ++ [q] := by
  unfold PatchStore.put Keyed.remove Keyed.position
  dsimp only
  split
  next hb =>
    refine .inr (.inl ?_)
    cases s.patches.findIdx? fun e => e.key = q.key <;> rfl
  next hb =>
    split
    · exact .inl rfl
    · split
      · exact .inl rfl
      · refine .inr (.inr ⟨by simpa using hb, ?_⟩)
        cases s.patches.findIdx? fun e => e.key = q.key <;> rfl

theorem Kept.put {s : PatchStore} (h : Kept s) (p : Patch) : Kept (s.put (boxedPatch p)) := by
  have hrest : ∀ q ∈ Keyed.remove MockPatch.key s.patches (boxedPatch p).key,
      q ∈ s.patches ∧ q.key ≠ (boxedPatch p).key := fun q => (Keyed.mem_remove _ h.keyed).mp
  have hnodup := Keyed.remove_nodup MockPatch.key h.keyed (boxedPatch p).key
  obtain hsame | hout | ⟨hbytes, hlast⟩ := put_cases s (boxedPatch p)
  · exact ⟨hsame ▸ h.keyed, hsame ▸ h.held⟩
  · exact ⟨hout ▸ hnodup, fun q hq => h.held q (hrest q (hout ▸ hq)).1⟩
  · refine ⟨?_, fun q hq => ?_⟩
    · rw [hlast]
      exact Keyed.append_nodup _ hnodup fun q hq => (hrest q hq).2
    · rw [hlast, List.mem_append, List.mem_singleton] at hq
      obtain hq | rfl := hq
      · exact h.held q (hrest q hq).1
      · exact ⟨hbytes, p, rfl⟩

/-- The bytes a key holds already change nothing. -/
theorem put_of_mem {s : PatchStore} (h : Kept s) {q : MockPatch} (hq : q ∈ s.patches) :
    s.put q = s := by
  have hb := (h.held q hq).1
  unfold PatchStore.put
  cases hi : s.patches.findIdx? fun e => e.key = q.key with
  | none => exact absurd rfl ((Keyed.position_eq_none _ _ _).mp hi q hq)
  | some i =>
    have hget := (Keyed.getElem?_position MockPatch.key h.keyed hi q rfl).mpr hq
    simp [hb, hget]

theorem kept_of_run {allowed grace : Bool} {calls : List Patch} {s : PatchStore}
    (hr : Steps.run (setPatch allowed grace) .default calls = some s) : Kept s :=
  Steps.run_induction (fun _ p _ h (_ : True) hs => setPatch_eq_some allowed grace hs ▸ h.put p)
    .default (.of_forall (fun _ _ _ => trivial) _) hr

/-- The bytes the header of the read-back reply leaves a patch. -/
abbrev patchReplyRoom : Nat := maxPayload - 7

/-- The reply at `index` fits a frame and decodes to a patch that is the stored one, and that
set again changes nothing. -/
structure PatchReads (allowed grace : Bool) (s : PatchStore) (index : UInt8) (q : MockPatch) :
    Prop where
  fits : (s.patchEntryRespPayload index).length ≤ maxPayload
  decodes : ∃ p, patchEntryFromPayload (s.patchEntryRespPayload index) = some p ∧
    boxedPatch p = q ∧ setPatch allowed grace s p = some s

theorem patchEntryRespPayload_eq {s : PatchStore} {index : UInt8} {p : Patch}
    (hq : s.patches[index.toNat]? = some (boxedPatch p)) :
    s.patchEntryRespPayload index = qPatchEntry :: index :: patchFrame p := by
  unfold PatchStore.patchEntryRespPayload
  rw [hq]
  rfl

theorem patchEntryFromPayload_patchFrame (index : UInt8) (p : Patch) :
    patchEntryFromPayload (qPatchEntry :: index :: patchFrame p) = some p := by
  change (do
    let section_ ← PatchSection.fromU8 p.section_.asU8
    return (⟨section_, p.cfg, p.index, fromLeBytes _ _, p.bytes⟩ : Patch)) = some p
  rw [PatchSection.fromU8_asU8, fromLeBytes_toLeBytes]
  rfl

/-- After any calls, a stored patch is read back exactly when the reply's longer header has room
for its bytes. -/
theorem patch_reads_back_iff (allowed grace : Bool) (calls : List Patch) (s : PatchStore)
    (hr : Steps.run (setPatch allowed grace) .default calls = some s) (index : UInt8)
    (q : MockPatch) (hq : s.patches[index.toNat]? = some q) :
    PatchReads allowed grace s index q ↔ q.bytes.length ≤ patchReplyRoom := by
  have hkept := kept_of_run hr
  have hmem := List.mem_of_getElem? hq
  obtain ⟨-, p, rfl⟩ := hkept.held q hmem
  have hreply := patchEntryRespPayload_eq hq
  have hlen : (s.patchEntryRespPayload index).length = 7 + p.bytes.length := by
    rw [hreply, List.length_cons, List.length_cons, length_patchFrame]
    omega
  have hbytes : (boxedPatch p).bytes = p.bytes := rfl
  rw [hbytes]
  refine ⟨fun h => ?_, fun h => ⟨?_, p, ?_, rfl, ?_⟩⟩
  · have hfits := h.fits
    simp only [hlen, maxPayload, patchReplyRoom] at hfits ⊢
    omega
  · simp only [hlen, maxPayload, patchReplyRoom] at h ⊢
    omega
  · rw [hreply, patchEntryFromPayload_patchFrame]
  · have hsent : ¬5 + p.bytes.length > maxPayload := by
      simp only [maxPayload, patchReplyRoom] at h ⊢
      omega
    rw [setPatch_eq, if_neg hsent, put_of_mem hkept hmem]

/-- A patch on the device descriptor. -/
def bytesPatch (n : Nat) : Patch := ⟨.device, 0, 0, 8, List.replicate n 0⟩

@[simp] theorem length_bytesPatch (n : Nat) : (bytesPatch n).bytes.length = n :=
  List.length_replicate

/-- A fresh store takes any patch that a frame carries. -/
theorem run_bytesPatch {n : Nat} (hpos : 0 < n) (hle : n ≤ 507) :
    Steps.run (setPatch false false) .default [bytesPatch n] =
      some { PatchStore.default with patches := [boxedPatch (bytesPatch n)] } := by
  have hsent : ¬5 + (bytesPatch n).bytes.length > maxPayload := by
    simp only [length_bytesPatch, maxPayload]
    omega
  have hroom : ¬n > patchPool := by
    simp only [patchPool]
    omega
  rw [Steps.run_cons, setPatch_eq, if_neg hsent, Option.bind_some, Steps.run_nil]
  simp [PatchStore.put, PatchStore.default, boxedPatch, bytesPatch, hroom, hpos.ne']

theorem patch_reads_back_505 :
    ∃ s, Steps.run (setPatch false false) .default [bytesPatch 505] = some s ∧
      PatchReads false false s 0 (boxedPatch (bytesPatch 505)) :=
  ⟨_, run_bytesPatch (by decide) (by decide),
    (patch_reads_back_iff false false [bytesPatch 505] _ (run_bytesPatch (by decide) (by decide)) 0
      (boxedPatch (bytesPatch 505)) rfl).mpr (length_bytesPatch 505).le⟩

/-- A patch that the command carries and no reply can. -/
theorem patch_506_not_read_back :
    ¬∀ (calls : List Patch) (s : PatchStore),
      Steps.run (setPatch false false) .default calls = some s →
        ∀ (index : UInt8) (q : MockPatch), s.patches[index.toNat]? = some q →
          PatchReads false false s index q := by
  intro h
  have hrun := run_bytesPatch (n := 506) (by decide) (by decide)
  have hreads := h [bytesPatch 506] _ hrun 0 (boxedPatch (bytesPatch 506)) rfl
  have hfits := hreads.fits
  rw [patchEntryRespPayload_eq rfl, List.length_cons, List.length_cons, length_patchFrame,
    length_bytesPatch] at hfits
  exact absurd hfits (by decide)

end Medius.Readback
