import Medius.Device.ClipAppend

/-! The chunks of an append are the clip's entries, whole and in order. -/

namespace Medius.Clips

open Protocol Link Medius.Types Device

def entryBytes : ClipEntry → List UInt8
  | .gap n => clipTagGap :: toLeBytes n
  | .frame f => frameBytes f

/-- What an append takes for a frame. -/
structure Fits (f : ClipFrame) : Prop where
  edges : f.edges.length ≤ clipEdgesMax
  raw : f.raw.length ≤ clipRawMax
  directions : ∀ item ∈ f.raw, validateRawDirection item.direction = .ok ()
  data : ∀ item ∈ f.transfers, item.out.length = outLen item.setup
  len : f.byteLen ≤ clipEntryMax

def EntryFits : ClipEntry → Prop
  | .gap _ => True
  | .frame f => Fits f

theorem forM_ok {α : Type} {f : α → Except Error Unit} {xs : List α}
    (h : xs.forM f = .ok ()) : ∀ x ∈ xs, f x = .ok () := by
  induction xs with
  | nil => nofun
  | cons x xs ih =>
    simp only [List.forM] at h
    cases hx : f x with
    | error e =>
      rw [hx] at h
      cases h
    | ok u =>
      rw [hx] at h
      intro y hy
      obtain rfl | hy := List.mem_cons.mp hy
      · exact hx
      · exact ih h y hy

theorem encodeFrame_ok {f : ClipFrame} {bytes : List UInt8} (h : encodeFrame f = .ok bytes) :
    Fits f ∧ bytes = frameBytes f := by
  unfold encodeFrame at h
  split at h
  · cases h
  next hedges =>
    split at h
    · cases h
    next hraw =>
      split at h
      · cases h
      next hdirections =>
        split at h
        · cases h
        next hdata =>
          split at h
          · cases h
          next hlen =>
            refine ⟨⟨not_lt.mp hedges, not_lt.mp hraw, forM_ok hdirections, fun item hi => ?_,
              not_lt.mp hlen⟩, (Except.ok.inj h).symm⟩
            have hitem := forM_ok hdata item hi
            unfold validateTransferData at hitem
            split at hitem
            · cases hitem
            next heq => exact not_not.mp heq

theorem orFlags_spec (xy wheel pan edges raw xfer : Bool) :
    (orFlags xy wheel pan edges raw xfer &&& clipFXy ≠ 0 ↔
        xy ∨ ¬wheel ∧ ¬pan ∧ ¬edges ∧ ¬raw ∧ ¬xfer) ∧
      (orFlags xy wheel pan edges raw xfer &&& clipFWheel ≠ 0 ↔ wheel) ∧
      (orFlags xy wheel pan edges raw xfer &&& clipFPan ≠ 0 ↔ pan) ∧
      (orFlags xy wheel pan edges raw xfer &&& clipFEdges ≠ 0 ↔ edges) ∧
      (orFlags xy wheel pan edges raw xfer &&& clipFRaw ≠ 0 ↔ raw) ∧
      (orFlags xy wheel pan edges raw xfer &&& clipFXfer ≠ 0 ↔ xfer) ∧
      orFlags xy wheel pan edges raw xfer ≠ clipTagGap := by
  cases xy <;> cases wheel <;> cases pan <;> cases edges <;> cases raw <;> cases xfer <;> decide

/-- Which fields a frame has. -/
theorem flags_spec (f : ClipFrame) :
    (frameFlags f &&& clipFXy ≠ 0 ↔ f.dx ≠ 0 ∨ f.dy ≠ 0 ∨ (f.wheel = 0 ∧ f.pan = 0 ∧
        f.edges = [] ∧ f.raw = [] ∧ f.transfers = [])) ∧
      (frameFlags f &&& clipFWheel ≠ 0 ↔ f.wheel ≠ 0) ∧
      (frameFlags f &&& clipFPan ≠ 0 ↔ f.pan ≠ 0) ∧
      (frameFlags f &&& clipFEdges ≠ 0 ↔ f.edges ≠ []) ∧
      (frameFlags f &&& clipFRaw ≠ 0 ↔ f.raw ≠ []) ∧
      (frameFlags f &&& clipFXfer ≠ 0 ↔ f.transfers ≠ []) ∧ frameFlags f ≠ clipTagGap := by
  unfold frameFlags
  have h := orFlags_spec (f.dx ≠ 0 || f.dy ≠ 0) (f.wheel ≠ 0) (f.pan ≠ 0) (f.edges ≠ [])
    (f.raw ≠ []) (f.transfers ≠ [])
  simpa only [Bool.or_eq_true, decide_eq_true_eq, not_not, or_assoc] using h

theorem length_optional {α : Type} {c : Prop} [Decidable c] (xs : List α) :
    (if c then xs else []).length = if c then xs.length else 0 := by
  split <;> rfl

theorem length_counted {α : Type} (items : List α) (len : α → Nat) :
    (if items ≠ [] then (items.map len).sum + 1 else 0) =
      (items.map len).sum + if items ≠ [] then 1 else 0 := by
  cases items with
  | nil => rfl
  | cons a items => simp

theorem length_frameBytes (f : ClipFrame) : (frameBytes f).length = f.byteLen := by
  obtain ⟨hxy, hwheel, hpan, hedges, hraw, hxfer, -⟩ := flags_spec f
  have hedge : (f.edges.flatMap edgeBytes).length = f.edges.length * 4 := by
    have hlen : ∀ e, (edgeBytes e).length = 4 := fun _ => rfl
    simp [List.length_flatMap, hlen]
  have hitem : (f.raw.flatMap rawBytes).length = (f.raw.map fun r => 4 + r.bytes.length).sum := by
    rw [List.length_flatMap]
    exact congrArg List.sum (List.map_congr_left fun r _ => by simp [rawBytes]; omega)
  have htransfer : (f.transfers.flatMap transferBytes).length =
      (f.transfers.map fun t => 9 + t.out.length).sum := by
    rw [List.length_flatMap]
    exact congrArg List.sum (List.map_congr_left fun t _ => by simp [transferBytes]; omega)
  unfold frameBytes ClipFrame.byteLen
  simp only [hxy, hwheel, hpan, hedges, hraw, hxfer, List.length_append, length_optional,
    length_toLeBytes, List.length_cons, List.length_nil, hedge, hitem, htransfer, length_counted]
  have hnone : (if f.wheel ≠ 0 then 2 else 0) + (if f.pan ≠ 0 then 2 else 0) +
      ((if f.edges ≠ [] then 1 + f.edges.length * 4 else 0) +
        (f.raw.map fun r => 4 + r.bytes.length).sum + (if f.raw ≠ [] then 1 else 0) +
        (f.transfers.map fun t => 9 + t.out.length).sum +
        (if f.transfers ≠ [] then 1 else 0)) = 0 ↔
      f.wheel = 0 ∧ f.pan = 0 ∧ f.edges = [] ∧ f.raw = [] ∧ f.transfers = [] := by
    constructor
    · intro h
      simp only [Nat.add_eq_zero_iff, ite_eq_right_iff, OfNat.ofNat_ne_zero, one_ne_zero, imp_false,
        false_and, not_not] at h
      tauto
    · rintro ⟨hw, hp, he, hr, ht⟩
      simp [hw, hp, he, hr, ht]
  simp only [hnone]
  split_ifs <;> omega

theorem encodeEntry_ok {e : ClipEntry} {bytes : List UInt8} (h : encodeEntry e = .ok bytes) :
    EntryFits e ∧ bytes = entryBytes e := by
  cases e with
  | gap n => exact ⟨trivial, (Except.ok.inj h).symm⟩
  | frame f => exact encodeFrame_ok h

theorem encodeEntries_ok {limit : Nat} {es : List ClipEntry} {s s' : List (List UInt8) × List UInt8}
    (h : encodeEntries limit s es = .ok s') :
    (∀ e ∈ es, EntryFits e) ∧ s' = (es.map entryBytes).foldl (Packing.push limit) s := by
  induction es generalizing s with
  | nil => exact ⟨nofun, (Except.ok.inj h).symm⟩
  | cons e es ih =>
    rw [encodeEntries] at h
    cases he : encodeEntry e with
    | error err =>
      rw [he] at h
      cases h
    | ok bytes =>
      rw [he] at h
      obtain ⟨hfits, rfl⟩ := encodeEntry_ok he
      obtain ⟨hrest, hs⟩ := ih h
      refine ⟨fun e' he' => ?_, hs⟩
      obtain rfl | he' := List.mem_cons.mp he'
      · exact hfits
      · exact hrest e' he'

theorem encodeChunks_ok {clip : ClipBuilder} {limit : Nat} {chunks : List (List UInt8)}
    (h : encodeChunks clip limit = .ok chunks) : (∀ e ∈ clip.entries, EntryFits e) ∧
      chunks = Packing.pack limit (clip.entries.map entryBytes) := by
  unfold encodeChunks at h
  cases hs : encodeEntries limit ([], []) clip.entries with
  | error e =>
    rw [hs] at h
    cases h
  | ok s =>
    rw [hs] at h
    obtain ⟨hfits, rfl⟩ := encodeEntries_ok hs
    exact ⟨hfits, (Except.ok.inj h).symm⟩

theorem length_entryBytes (e : ClipEntry) : (entryBytes e).length = match e with
    | .gap _ => 3
    | .frame f => f.byteLen := by
  cases e with
  | gap n => rfl
  | frame f => exact length_frameBytes f

theorem EntryFits.length_le {e : ClipEntry} (h : EntryFits e) :
    (entryBytes e).length ≤ maxPayload := by
  cases e with
  | gap n => exact (show 3 ≤ 512 by decide)
  | frame f => exact (length_frameBytes f).trans_le h.len

theorem entryBytes_ne_nil (e : ClipEntry) : entryBytes e ≠ [] := by
  cases e with
  | gap n => simp [entryBytes]
  | frame f => simp [entryBytes, frameBytes]

/-- No count or length is cut to its width. -/
structure Counted (f : ClipFrame) : Prop where
  edges : (count f.edges).toNat = f.edges.length
  raw : (count f.raw).toNat = f.raw.length
  transfers : (count f.transfers).toNat = f.transfers.length
  rawLen : ∀ item ∈ f.raw, (rawLen item).toNat = item.bytes.length

theorem Fits.counted {f : ClipFrame} (h : Fits f) : Counted f := by
  have hlen := h.len
  have hedges := h.edges
  have hraw := h.raw
  unfold ClipFrame.byteLen at hlen
  simp only [clipEntryMax, maxPayload, clipEdgesMax, clipRawMax] at hlen hedges hraw
  have htransfers : f.transfers.length * 9 ≤ (f.transfers.map fun t => 9 + t.out.length).sum := by
    simp
  refine ⟨?_, ?_, ?_, fun item hi => ?_⟩
  · exact UInt8.toNat_ofNat_of_lt' (by simp only [UInt8.size]; omega)
  · exact UInt8.toNat_ofNat_of_lt' (by simp only [UInt8.size]; omega)
  · exact UInt8.toNat_ofNat_of_lt' (by simp only [UInt8.size]; omega)
  · have hle : 4 + item.bytes.length ≤ (f.raw.map fun r => 4 + r.bytes.length).sum :=
      List.single_le_sum (by simp) _ (List.mem_map_of_mem hi)
    exact UInt16.toNat_ofNat_of_lt' (by simp only [UInt16.size]; omega)

/-- Over a link without state it is what is modelled of an append elsewhere. -/
theorem append_stateless (send : FrameType → List UInt8 → Except Error Unit) (d : DesiredState)
    (clip : ClipBuilder) :
    (ClipHandle.append (fun _ chunk => ((), send .clipAppend chunk)) () d clip).2 =
      appendEncoded send d (encodeChunks clip maxPayload) := by
  unfold ClipHandle.append appendEncoded
  cases encodeChunks clip maxPayload with
  | error e => rfl
  | ok chunks =>
    dsimp only
    induction chunks generalizing d with
    | nil => rfl
    | cons chunk chunks ih =>
      rw [ClipHandle.sendChunks, clipAppend]
      cases send .clipAppend chunk with
      | error e => rfl
      | ok u => exact ih _

/-- Over a link that cannot write, an append records nothing. -/
theorem append_unsent {send : FrameType → List UInt8 → Except Error Unit}
    (hsend : Refuses send) (d : DesiredState) (clip : ClipBuilder) :
    (ClipHandle.append (fun _ chunk => ((), send .clipAppend chunk)) () d clip).2.1 = d := by
  rw [append_stateless]
  exact appendEncoded_unsent hsend d _

/-- A list as an entry has it: nothing if it is empty, else its whole length in one byte and then
each of its items. -/
inductive Numbered {α : Type} (item : α → List UInt8 → Prop) : List α → List UInt8 → Prop
  | none : Numbered item [] []
  | some {xs : List α} {codes : List (List UInt8)} {n : UInt8} : xs ≠ [] → n.toNat = xs.length →
    List.Forall₂ item xs codes → Numbered item xs (n :: codes.flatten)

theorem Numbered.of_count {α : Type} {item : α → List UInt8 → Prop} {xs : List α} {c : Prop}
    [Decidable c] (enc : α → List UInt8) (hc : c ↔ xs ≠ [])
    (hn : (count xs).toNat = xs.length) (h : ∀ x ∈ xs, item x (enc x)) :
    Numbered item xs (if c then count xs :: xs.flatMap enc else []) := by
  by_cases hxs : xs = []
  · subst hxs
    rw [if_neg fun h => hc.mp h rfl]
    exact .none
  · rw [if_pos (hc.mpr hxs), List.flatMap_def]
    exact .some hxs hn (List.forall₂_map_right_iff.mpr (List.forall₂_same.mpr h))

/-- A report's bytes, after its endpoint, its direction and its whole length in two bytes. -/
def RawCoded (item : RawItem) (code : List UInt8) : Prop :=
  ∃ low high, code = (item.ep &&& 0x0F) :: item.direction.asU8 :: low :: high :: item.bytes ∧
    low.toNat + 256 * high.toNat = item.bytes.length

/-- The bytes a tag says come before the lists. -/
def motionLen (tag : UInt8) : Nat :=
  (if tag &&& clipFXy ≠ 0 then 4 else 0) + (if tag &&& clipFWheel ≠ 0 then 2 else 0) +
    (if tag &&& clipFPan ≠ 0 then 2 else 0)

/-- The entry of a frame: a tag that says which lists are there, the motion, and each list by its
real length, with each report's real length before its bytes. -/
def Coded (f : ClipFrame) (code : List UInt8) : Prop :=
  ∃ tag motion edges raw transfers,
    code = tag :: (motion ++ edges ++ raw ++ transfers) ∧ motion.length = motionLen tag ∧
      (tag &&& clipFEdges ≠ 0 ↔ f.edges ≠ []) ∧ (tag &&& clipFRaw ≠ 0 ↔ f.raw ≠ []) ∧
      (tag &&& clipFXfer ≠ 0 ↔ f.transfers ≠ []) ∧
      Numbered (fun e c => c = edgeBytes e) f.edges edges ∧ Numbered RawCoded f.raw raw ∧
      Numbered (fun t c => c = t.ep :: t.setup.toBytes ++ t.out) f.transfers transfers

theorem rawCoded_rawBytes {item : RawItem} (h : (rawLen item).toNat = item.bytes.length) :
    RawCoded item (rawBytes item) := by
  refine ⟨_, _, rfl, ?_⟩
  have hlow := UInt8.toNat_ofNat' (n := (rawLen item).toNat)
  have hhigh := UInt8.toNat_ofNat' (n := (rawLen item).toNat / 256)
  have hlt := UInt16.toNat_lt (rawLen item)
  rw [← h]
  omega

theorem Counted.coded {f : ClipFrame} (h : Counted f) : Coded f (frameBytes f) := by
  obtain ⟨-, -, -, hedges, hraw, hxfer, -⟩ := flags_spec f
  refine ⟨frameFlags f,
    (if frameFlags f &&& clipFXy ≠ 0 then toLeBytes f.dx.toUInt16 ++ toLeBytes f.dy.toUInt16
      else []) ++ (if frameFlags f &&& clipFWheel ≠ 0 then toLeBytes f.wheel.toUInt16 else []) ++
      (if frameFlags f &&& clipFPan ≠ 0 then toLeBytes f.pan.toUInt16 else []),
    _, _, _, ?_, ?_, hedges, hraw, hxfer, .of_count edgeBytes hedges h.edges fun _ _ => rfl,
    .of_count rawBytes hraw h.raw fun item hi => rawCoded_rawBytes (h.rawLen item hi),
    .of_count transferBytes hxfer h.transfers fun _ _ => rfl⟩
  · simp only [frameBytes, List.append_assoc, List.cons_append, List.nil_append]
  · simp only [List.length_append, length_optional, length_toLeBytes, motionLen]

/-- A refused clip leaves the link as it was; of one that is taken each chunk is whole entries, and
all of them are all of it. -/
theorem append_whole (clip : ClipBuilder) :
    match encodeChunks clip maxPayload with
    | .error e => ∀ (σ : Type) (send : σ → List UInt8 → σ × Except Error Unit) (s : σ)
        (d : DesiredState), ClipHandle.append send s d clip = (s, d, .error e)
    | .ok chunks =>
      (∀ c ∈ chunks, c ≠ [] ∧ c.length ≤ 512) ∧
        (∃ groups : List (List (List UInt8)),
          groups.flatten = clip.entries.map entryBytes ∧ chunks = groups.map List.flatten) ∧
        chunks.flatten = clip.entries.flatMap entryBytes ∧
        (chunks.map List.length).sum = clip.byteLen ∧
        ∀ f, .frame f ∈ clip.entries → Coded f (entryBytes (.frame f)) := by
  cases h : encodeChunks clip maxPayload with
  | error e =>
    intro σ send s d
    rw [ClipHandle.append, h]
  | ok chunks =>
    obtain ⟨hfits, rfl⟩ := encodeChunks_ok h
    obtain ⟨hfull, groups, hgroups, hchunks⟩ := @Packing.pack_spec _ maxPayload
      (clip.entries.map entryBytes) (by simpa using fun e he => (hfits e he).length_le)
      (by simpa using fun e _ => entryBytes_ne_nil e)
    have hflat : (Packing.pack maxPayload (clip.entries.map entryBytes)).flatten =
        clip.entries.flatMap entryBytes := by
      rw [Packing.flatten_pack, List.flatMap_def]
    refine ⟨hfull, ⟨groups, hgroups, hchunks⟩, hflat, ?_, fun f hf => (hfits _ hf).counted.coded⟩
    rw [← List.length_flatten, hflat, List.length_flatMap]
    exact congrArg List.sum (List.map_congr_left fun e _ => length_entryBytes e)

end Medius.Clips
