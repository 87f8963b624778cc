import Medius.Types.Indexed

/-! What the indexed decoders of the events and of the stored entries read is what the pattern
decoders read, so they never step outside. -/

namespace Medius.Decode

open Protocol Medius.Types Checked Checked.Reading

theorem motion_eq (p : List UInt8) :
    MotionEvent.readPayload p = ofOption (MotionEvent.fromPayload p) := by
  rcases p with _ | ⟨t₀, _ | ⟨t₁, _ | ⟨t₂, _ | ⟨t₃, _ | ⟨clk, _ | ⟨xl, _ | ⟨xh, _ | ⟨yl, _ | ⟨yh,
    _ | ⟨zl, _ | ⟨zh, _ | ⟨pl, _ | ⟨ph, rest⟩⟩⟩⟩⟩⟩⟩⟩⟩⟩⟩⟩⟩ <;> rfl

theorem usages_eq (p : List UInt8) :
    UsageSnapshot.readPayload p = ofOption (UsageSnapshot.fromPayload p) := by
  rcases p with _ | ⟨t₀, _ | ⟨t₁, _ | ⟨t₂, _ | ⟨t₃, _ | ⟨clk, _ | ⟨cls, _ | ⟨dir, rest⟩⟩⟩⟩⟩⟩⟩
  on_goal 8 =>
    cases hc : Class.fromU8 cls <;> cases hd : Direction.fromU8 dir <;>
      cases hu : Usage.decodeList rest <;>
        simp [UsageSnapshot.readPayload, UsageSnapshot.fromPayload, le32, sliceFrom, eventHdr,
          hc, hd, hu]
  all_goals rfl

theorem traffic_eq (p : List UInt8) :
    TrafficEvent.readPayload p = ofOption (TrafficEvent.fromPayload p) := by
  rcases p with _ | ⟨t₀, _ | ⟨t₁, _ | ⟨t₂, _ | ⟨t₃, _ | ⟨clk, _ | ⟨cls, _ | ⟨il, _ | ⟨ih, _ | ⟨dir,
    _ | ⟨flags, _ | ⟨ll, _ | ⟨lh, bytes⟩⟩⟩⟩⟩⟩⟩⟩⟩⟩⟩⟩
  on_goal 13 =>
    cases hc : CatchClass.fromU8 cls <;> cases hd : Direction.fromU8 dir <;>
      simp [TrafficEvent.readPayload, TrafficEvent.fromPayload, le32, le16, sliceFrom, hc, hd]
  all_goals rfl

theorem patchEntry_eq (p : List UInt8) :
    readPatchEntry p = ofOption (patchEntryFromPayload p) := by
  rcases p with _ | ⟨what, _ | ⟨i, _ | ⟨sec, _ | ⟨cfg, _ | ⟨idx, _ | ⟨lo, _ | ⟨hi, bytes⟩⟩⟩⟩⟩⟩⟩
  on_goal 8 =>
    cases hs : PatchSection.fromU8 sec <;>
      simp [readPatchEntry, patchEntryFromPayload, slice?, sliceFrom?, le16, hs]
  all_goals rfl

/-- The three variable parts of a stored rule lie end to end. -/
theorem rewriteTail_eq {α : Type} (rest : List UInt8) (m : Nat)
    (f : List UInt8 → List UInt8 → List UInt8 → α) :
    (do
      let matchBytes ← ofOption (slice? rest 0 m)
      let mask ← ofOption (slice? rest m (2 * m))
      let payload ← ofOption (sliceFrom? rest (2 * m))
      pure (f matchBytes mask payload)) =
    ofOption (if rest.length < 2 * m then none
      else some (f (rest.take m) ((rest.drop m).take m) (rest.drop (2 * m)))) := by
  unfold slice? sliceFrom?
  by_cases h : rest.length < 2 * m
  · have htail : ¬2 * m ≤ rest.length := Nat.not_le.mpr h
    by_cases hm : m ≤ rest.length
    · simp [h, hm, htail]
    · simp [h, hm]
  · have htail : 2 * m ≤ rest.length := Nat.le_of_not_lt h
    have hm : m ≤ rest.length := by omega
    have hmask : (rest.take (2 * m)).drop m = (rest.drop m).take m := by
      rw [List.drop_take]
      congr 1
      omega
    have hle : m ≤ 2 * m := by omega
    simp [h, hm, htail, hmask, hle]

theorem rewriteEntry_eq (p : List UInt8) :
    readRewriteEntry p = ofOption (rewriteEntryFromPayload p) := by
  rcases p with _ | ⟨what, _ | ⟨i, _ | ⟨cls, _ | ⟨il, _ | ⟨ih, _ | ⟨dir, _ | ⟨state, _ | ⟨action,
    _ | ⟨ol, _ | ⟨oh, _ | ⟨mlen, rest⟩⟩⟩⟩⟩⟩⟩⟩⟩⟩⟩
  on_goal 12 =>
    let hdr := [what, i, cls, il, ih, dir, state, action, ol, oh, mlen]
    have hhdr : slice? (hdr ++ rest) 0 11 = some hdr := by simp [hdr, slice?]
    have hmatch : slice? (hdr ++ rest) 11 (11 + mlen.toNat) = slice? rest 0 mlen.toNat :=
      slice?_append hdr rest 0 mlen.toNat
    have hmask : slice? (hdr ++ rest) (11 + mlen.toNat) (11 + 2 * mlen.toNat) =
        slice? rest mlen.toNat (2 * mlen.toNat) :=
      slice?_append hdr rest mlen.toNat (2 * mlen.toNat)
    have hpayload : sliceFrom? (hdr ++ rest) (11 + 2 * mlen.toNat) =
        sliceFrom? rest (2 * mlen.toNat) := sliceFrom?_append hdr rest (2 * mlen.toNat)
    change readRewriteEntry (hdr ++ rest) = _
    have hcls : index hdr 2 = .value cls := rfl
    have hid : le16 hdr 3 = .value (fromLeBytes il ih) := rfl
    have hdir : index hdr 5 = .value dir := rfl
    have haction : index hdr 7 = .value action := rfl
    have hoffset : le16 hdr 8 = .value (fromLeBytes ol oh) := rfl
    have hmlen : index hdr 10 = .value mlen := rfl
    simp only [readRewriteEntry, hhdr, hcls, hid, hdir, haction, hoffset, hmlen, hmatch, hmask,
      hpayload, ofOption_some, value_bind]
    rw [rewriteEntryFromPayload, ofOption_bind]
    refine bind_congr fun class_ => ?_
    rw [ofOption_bind]
    refine bind_congr fun direction => ?_
    rw [ofOption_bind]
    refine bind_congr fun ruleAction => ?_
    exact rewriteTail_eq rest mlen.toNat _
  all_goals rfl

end Medius.Decode
