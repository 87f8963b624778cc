import Medius.Types.Indexed

/-! The two views of `RESP(CLIP)`: the check of its shape, made once, covers every later index. -/

namespace Medius.Decode

open Protocol Medius.Types Checked Checked.Reading

theorem clipPacketSize_drop (p : List UInt8) (o : Nat) :
    clipPacketSize (p.drop o) = p[o + 7]?.bind fun mlen =>
      if mlen.toNat > pktMatchMax then none else some ((), clipPktTrigEntry + 2 * mlen.toNat) := by
  rw [clipPacketSize, List.getElem?_drop]
  rfl

theorem skipPackets_eq (p : List UInt8) (n o : Nat) :
    skipPackets p n o = ofOption ((Records.walk clipPacketSize p n o).map Prod.snd) := by
  induction n generalizing o with
  | zero => rfl
  | succ n ih =>
    rw [skipPackets, Records.walk, clipPacketSize_drop, Checked.get]
    cases p[o + 7]? with
    | none => rfl
    | some mlen =>
      by_cases hlong : mlen.toNat > pktMatchMax
      · simp [hlong]
      · simp only [ofOption_some, value_bind, if_neg hlong, ih, Option.bind_eq_bind,
          Option.bind_some]
        cases Records.walk clipPacketSize p n (o + (clipPktTrigEntry + 2 * mlen.toNat)) <;> rfl

theorem configOffset_eq (p : List UInt8) :
    readConfigOffset p = ofOption (clipConfigOffset p) := by
  unfold readConfigOffset clipConfigOffset
  by_cases hlen : p.length < respClipHdr
  · have hheld : p[respClipHdr - 1]? = none := by
      have hlen : p.length < 31 := hlen
      exact List.getElem?_eq_none (show p.length ≤ 30 by omega)
    rw [if_pos hlen, hheld]
    rfl
  · obtain ⟨held, hheld⟩ : ∃ held, p[respClipHdr - 1]? = some held := by
      have hlen : ¬p.length < 31 := hlen
      exact ⟨_, List.getElem?_eq_getElem (show 30 < p.length by omega)⟩
    rw [if_neg hlen, hheld, index_eq_value.mpr hheld]
    simp only [value_bind, Option.bind_eq_bind, Option.bind_some, Checked.get]
    cases p[respClipHdr + held.toNat * 3 + 2]? with
    | none => rfl
    | some nTrig =>
      by_cases htrig : nTrig.toNat > clipTrigMax
      · simp only [ofOption_some, value_bind, Option.bind_some, if_pos htrig, ofOption_none]
      · simp only [ofOption_some, value_bind, Option.bind_some, if_neg htrig]
        cases p[respClipHdr + held.toNat * 3 + 3 + nTrig.toNat * 6]? with
        | none => rfl
        | some nPkt =>
          by_cases hpkt : nPkt.toNat > clipPktTrigMax
          · simp only [ofOption_some, value_bind, Option.bind_some, if_pos hpkt, ofOption_none]
          · simp only [ofOption_some, value_bind, Option.bind_some, if_neg hpkt, skipPackets_eq]
            cases Records.walk clipPacketSize p nPkt.toNat
                (respClipHdr + held.toNat * 3 + 3 + nTrig.toNat * 6 + 1) with
            | none => rfl
            | some tail =>
              by_cases hend : p.length = tail.2
              · simp [hend]
              · simp [hend]

/-- The lengths of a payload's packet entries, one after another from `o` on. -/
def Entries (p : List UInt8) : Nat → List UInt8 → Prop
  | _, [] => True
  | o, mlen :: mlens =>
    p[o + 7]? = some mlen ∧ Entries p (o + (clipPktTrigEntry + 2 * mlen.toNat)) mlens

def entriesLength (mlens : List UInt8) : Nat :=
  (mlens.map fun mlen => clipPktTrigEntry + 2 * mlen.toNat).sum

/-- A payload's counts and match lengths, and the length they make up. -/
structure ClipShape (p : List UInt8) where
  held : UInt8
  nTrig : UInt8
  nPkt : UInt8
  mlens : List UInt8
  heldAt : p[respClipHdr - 1]? = some held
  nTrigAt : p[respClipHdr + held.toNat * 3 + 2]? = some nTrig
  nPktAt : p[respClipHdr + held.toNat * 3 + 3 + nTrig.toNat * 6]? = some nPkt
  count : mlens.length = nPkt.toNat
  entries : Entries p (respClipHdr + held.toNat * 3 + 3 + nTrig.toNat * 6 + 1) mlens
  length : p.length =
    respClipHdr + held.toNat * 3 + 3 + nTrig.toNat * 6 + 1 + entriesLength mlens

theorem entries_of_walk {p : List UInt8} {n o stop : Nat} {us : List Unit}
    (h : Records.walk clipPacketSize p n o = some (us, stop)) :
    ∃ mlens, mlens.length = n ∧ Entries p o mlens ∧ stop = o + entriesLength mlens := by
  induction n generalizing o us with
  | zero =>
    obtain ⟨-, rfl⟩ := Prod.mk.inj (Option.some.inj h)
    exact ⟨[], rfl, trivial, rfl⟩
  | succ n ih =>
    rw [Records.walk, clipPacketSize_drop] at h
    obtain ⟨⟨u, size⟩, hsize, h⟩ := Option.bind_eq_some_iff.mp h
    obtain ⟨⟨rest, stop'⟩, hrest, h⟩ := Option.bind_eq_some_iff.mp h
    obtain ⟨-, rfl⟩ := Prod.mk.inj (Option.some.inj h)
    obtain ⟨mlen, hmlen, hsize⟩ := Option.bind_eq_some_iff.mp hsize
    split at hsize
    · cases hsize
    · obtain ⟨-, rfl⟩ := Prod.mk.inj (Option.some.inj hsize)
      obtain ⟨mlens, hlen, hentries, hstop⟩ := ih hrest
      refine ⟨mlen :: mlens, by rw [List.length_cons, hlen], ⟨hmlen, hentries⟩, ?_⟩
      rw [hstop, entriesLength, entriesLength, List.map_cons, List.sum_cons, Nat.add_assoc]

/-- The offset comes back only for a payload as long as its counts say. -/
theorem shape_of_configOffset {p : List UInt8} {cfg : Nat} (h : clipConfigOffset p = some cfg) :
    ∃ s : ClipShape p, cfg = respClipHdr + s.held.toNat * 3 := by
  unfold clipConfigOffset at h
  obtain ⟨held, hheld, h⟩ := Option.bind_eq_some_iff.mp h
  obtain ⟨nTrig, hnTrig, h⟩ := Option.bind_eq_some_iff.mp h
  split at h
  · cases h
  obtain ⟨nPkt, hnPkt, h⟩ := Option.bind_eq_some_iff.mp h
  split at h
  · cases h
  obtain ⟨⟨us, stop⟩, hwalk, h⟩ := Option.bind_eq_some_iff.mp h
  dsimp only at h
  split at h
  next hend =>
    obtain ⟨mlens, hcount, hentries, hstop⟩ := entries_of_walk hwalk
    exact ⟨⟨held, nTrig, nPkt, mlens, hheld, hnTrig, hnPkt, hcount, hentries, hend.trans hstop⟩,
      (Option.some.inj h).symm⟩
  · cases h

theorem readAt_drop (p : List UInt8) (o : Nat) :
    ClipTrigger.readAt (p.drop o) 0 = ClipTrigger.readAt p o := by
  simp only [ClipTrigger.readAt, le16, index_drop, Nat.add_assoc, Nat.zero_add, Nat.add_zero]

theorem clipTrigger_eq {q : List UInt8} (h : 6 ≤ q.length) :
    ∃ t, ClipTrigger.readAt q 0 = .value t ∧ ClipTrigger.read q = some (t, 6) := by
  rcases q with _ | ⟨cls, _ | ⟨lo, _ | ⟨hi, _ | ⟨edge, _ | ⟨action, _ | ⟨consume, rest⟩⟩⟩⟩⟩⟩
  on_goal 7 =>
    refine ⟨_, ?_, rfl⟩
    cases hc : Class.fromU8 cls <;> cases he : Edge.fromU8 edge <;>
      cases ha : ClipAction.fromU8 action <;> simp [ClipTrigger.readAt, le16, hc, he, ha]
  all_goals simp at h

/-- Six bytes for each input trigger, all of them there. -/
theorem readTriggers_eq {p : List UInt8} {n o : Nat} (h : o + n * 6 ≤ p.length) :
    ∃ ts, readTriggers p n o = .value (ts, o + n * 6) ∧
      Records.walk ClipTrigger.read p n o = some (ts, o + n * 6) := by
  induction n generalizing o with
  | zero => exact ⟨[], rfl, rfl⟩
  | succ n ih =>
    obtain ⟨t, hread, hwalk⟩ := clipTrigger_eq (q := p.drop o) (by rw [List.length_drop]; omega)
    obtain ⟨ts, hreads, hwalks⟩ := ih (o := o + 6) (by omega)
    have hstop : o + 6 + n * 6 = o + (n + 1) * 6 := by omega
    rw [readAt_drop] at hread
    refine ⟨t :: ts, ?_, ?_⟩
    · rw [readTriggers, hread, value_bind, hreads, value_bind, hstop]
      rfl
    · rw [Records.walk, hwalk, Option.bind_eq_bind, Option.bind_some]
      dsimp only
      rw [hwalks, hstop]
      rfl

theorem readWire_eq {e : List UInt8} {mlen : UInt8}
    (hlen : e.length = clipPktTrigEntry + 2 * mlen.toNat) (hm : e[7]? = some mlen) :
    ClipPacketTriggerEntry.readWire e = ofOption (ClipPacketTriggerEntry.fromWire e) := by
  have hlen : e.length = 10 + 2 * mlen.toNat := hlen
  rcases e with _ | ⟨cls, _ | ⟨lo, _ | ⟨hi, _ | ⟨dir, _ | ⟨action, _ | ⟨flags, _ | ⟨slen,
    _ | ⟨framed, _ | ⟨h₀, _ | ⟨h₁, body⟩⟩⟩⟩⟩⟩⟩⟩⟩⟩
  on_goal 11 =>
    obtain rfl : framed = mlen := Option.some.inj hm
    simp only [List.length_cons] at hlen
    have hbody : framed.toNat ≤ body.length := by omega
    let hdr := [cls, lo, hi, dir, action, flags, slen, framed, h₀, h₁]
    have hfrom : sliceFrom (hdr ++ body) clipPktTrigEntry = .value body := by
      rw [sliceFrom, if_pos (by simp [hdr, clipPktTrigEntry])]
      rfl
    have hmatch : slice body 0 framed.toNat = .value (body.take framed.toNat) := by
      rw [slice, if_pos ⟨Nat.zero_le _, hbody⟩, List.drop_zero]
    have hmask : sliceFrom body framed.toNat = .value (body.drop framed.toNat) := by
      rw [sliceFrom, if_pos hbody]
    have hcls : index (hdr ++ body) 0 = .value cls := rfl
    have hdir : index (hdr ++ body) 3 = .value dir := rfl
    have haction : index (hdr ++ body) 4 = .value action := rfl
    have hframed : index (hdr ++ body) 7 = .value framed := rfl
    have hid : le16 (hdr ++ body) 1 = .value (fromLeBytes lo hi) := rfl
    have hflags : index (hdr ++ body) 5 = .value flags := rfl
    have hslen : index (hdr ++ body) 6 = .value slen := rfl
    have hhits : le16 (hdr ++ body) 8 = .value (fromLeBytes h₀ h₁) := rfl
    change ClipPacketTriggerEntry.readWire (hdr ++ body) = _
    simp only [ClipPacketTriggerEntry.readWire, hcls, hdir, haction, hframed, hfrom, hid, hmatch,
      hmask, hflags, hslen, hhits, value_bind]
    rw [ClipPacketTriggerEntry.fromWire, ofOption_bind]
    refine bind_congr fun class_ => ?_
    rw [ofOption_bind]
    refine bind_congr fun traffic => ?_
    rw [ofOption_bind]
    refine bind_congr fun direction => ?_
    rw [ofOption_bind]
    refine bind_congr fun clipAction => ?_
    split <;> rfl
  all_goals
    simp only [List.length_cons, List.length_nil] at hlen
    omega

/-- Each packet entry is as long as its own match length says, and all of them are there. -/
theorem readPackets_eq {p mlens : List UInt8} {o : Nat} (h : Entries p o mlens)
    (hlen : o + entriesLength mlens ≤ p.length) :
    ∃ es, readPackets p mlens.length o = .value es ∧
      Records.walk ClipPacketTriggerEntry.read p mlens.length o =
        some (es, o + entriesLength mlens) := by
  induction mlens generalizing o with
  | nil => exact ⟨[], rfl, rfl⟩
  | cons mlen mlens ih =>
    obtain ⟨hmlen, hentries⟩ := h
    have hsum : entriesLength (mlen :: mlens) =
        clipPktTrigEntry + 2 * mlen.toNat + entriesLength mlens := by
      rw [entriesLength, List.map_cons, List.sum_cons]
      rfl
    rw [hsum] at hlen ⊢
    obtain ⟨es, hreads, hwalks⟩ := ih hentries (by omega)
    have hslice : slice p o (o + (clipPktTrigEntry + 2 * mlen.toNat)) =
        .value ((p.drop o).take (clipPktTrigEntry + 2 * mlen.toNat)) := by
      rw [slice, if_pos ⟨Nat.le_add_right _ _, by omega⟩, List.drop_take, Nat.add_sub_cancel_left]
    have hentry : ((p.drop o).take (clipPktTrigEntry + 2 * mlen.toNat))[7]? = some mlen := by
      rw [List.getElem?_take_of_lt (by simp only [clipPktTrigEntry]; omega), List.getElem?_drop,
        hmlen]
    have hwire := readWire_eq (by rw [List.length_take, List.length_drop]; omega) hentry
    refine ⟨ClipPacketTriggerEntry.fromWire
      ((p.drop o).take (clipPktTrigEntry + 2 * mlen.toNat)) :: es, ?_, ?_⟩
    · rw [List.length_cons, readPackets, index_eq_value.mpr hmlen]
      simp only [value_bind, hslice, hwire, attempt_ofOption, hreads]
      rfl
    · rw [List.length_cons, Records.walk, ClipPacketTriggerEntry.read, List.getElem?_drop, hmlen]
      simp only [Option.bind_eq_bind, Option.bind_some, Option.pure_def, hwalks, Nat.add_assoc]

theorem status_eq (p : List UInt8) :
    ClipStatus.readPayload p = ofOption (ClipStatus.fromPayload p) := by
  rw [ClipStatus.readPayload, configOffset_eq, ClipStatus.fromPayload, ofOption_bind]
  cases hcfg : clipConfigOffset p with
  | none => rfl
  | some cfg =>
    obtain ⟨s, -⟩ := shape_of_configOffset hcfg
    have hlen : respClipHdr - 1 ≤ p.length := by
      have hlength := s.length
      omega
    have hheld : sliceFrom p (respClipHdr - 1) = .value (p.drop (respClipHdr - 1)) := by
      rw [sliceFrom, if_pos hlen]
    rw [ofOption_some, value_bind, value_bind, hheld, value_bind, ofOption_bind]
    refine bind_congr fun held => ?_
    rcases p with _ | ⟨b₀, _ | ⟨state, _ | ⟨f₀, _ | ⟨f₁, _ | ⟨f₂, _ | ⟨f₃, _ | ⟨t₀, _ | ⟨t₁,
      _ | ⟨t₂, _ | ⟨t₃, _ | ⟨p₀, _ | ⟨p₁, _ | ⟨p₂, _ | ⟨p₃, _ | ⟨k₀, _ | ⟨k₁, _ | ⟨k₂, _ | ⟨k₃,
      _ | ⟨u₀, _ | ⟨u₁, _ | ⟨o₀, _ | ⟨o₁, _ | ⟨s₀, _ | ⟨s₁, _ | ⟨x₀, _ | ⟨x₁, _ | ⟨e₀, _ | ⟨e₁,
      _ | ⟨g₀, _ | ⟨g₁, rest⟩⟩⟩⟩⟩⟩⟩⟩⟩⟩⟩⟩⟩⟩⟩⟩⟩⟩⟩⟩⟩⟩⟩⟩⟩⟩⟩⟩⟩⟩
    on_goal 31 =>
      rw [ofOption_bind]
      exact bind_congr fun state => rfl
    all_goals
      have hlen : 30 ≤ _ := hlen
      simp at hlen

theorem settings_eq (p : List UInt8) :
    ClipSettings.readPayload p = ofOption (ClipSettings.fromPayload p) := by
  rw [ClipSettings.readPayload, configOffset_eq, ClipSettings.fromPayload, ofOption_bind]
  cases hcfg : clipConfigOffset p with
  | none => rfl
  | some cfg =>
    obtain ⟨s, rfl⟩ := shape_of_configOffset hcfg
    have hlength := s.length
    obtain ⟨autolock, hautolock⟩ : ∃ b, p[respClipHdr + s.held.toNat * 3]? = some b :=
      ⟨_, List.getElem?_eq_getElem (by omega)⟩
    obtain ⟨flags, hflags⟩ : ∃ b, p[respClipHdr + s.held.toNat * 3 + 1]? = some b :=
      ⟨_, List.getElem?_eq_getElem (by omega)⟩
    obtain ⟨ts, hreadTs, hwalkTs⟩ := readTriggers_eq (p := p) (n := s.nTrig.toNat)
      (o := respClipHdr + s.held.toNat * 3 + 3) (by omega)
    obtain ⟨es, hreadEs, hwalkEs⟩ := readPackets_eq s.entries (by omega)
    rw [s.count] at hreadEs hwalkEs
    simp only [ofOption_some, value_bind, index_eq_value.mpr hautolock, index_eq_value.mpr hflags,
      index_eq_value.mpr s.nTrigAt, index_eq_value.mpr s.nPktAt, hautolock, hflags, s.nTrigAt,
      s.nPktAt, hreadTs, hwalkTs, hreadEs, hwalkEs, Option.bind_eq_bind, Option.bind_some]
    rfl

end Medius.Decode
