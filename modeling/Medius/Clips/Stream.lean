import Medius.Clips.Chunks
import Medius.Lib.Delimited

/-! A clip's entries are read back from the bytes alone. -/

namespace Medius.Clips

open Protocol Medius.Types Device Delimited

theorem toUInt16_inj {v w : Int16} (h : v.toUInt16 = w.toUInt16) : v = w := by
  obtain ⟨v⟩ := v
  obtain ⟨w⟩ := w
  exact congrArg Int16.ofUInt16 h

theorem action_inj {a b : Action} (h : a.asU8 = b.asU8) : a = b := by
  cases a <;> cases b <;> first | rfl | exact absurd h (by decide)

theorem usage_inj {u v : Usage} (hc : u.classId.1 = v.classId.1) (hi : u.classId.2 = v.classId.2) :
    u = v := by
  obtain ⟨c, i⟩ := u
  obtain ⟨c', i'⟩ := v
  have hclass : some c = some c' := by
    rw [← Class.fromU8_asU8 c, ← Class.fromU8_asU8 c']
    exact congrArg Class.fromU8 hc
  exact congrArg₂ Usage.mk (Option.some.inj hclass) hi

/-- A report with what its code keeps of the endpoint. -/
def keptReport (item : RawItem) : RawItem := { item with ep := item.ep &&& 0x0F }

def keptFrame (f : ClipFrame) : ClipFrame := { f with raw := f.raw.map keptReport }

def keptEntry : ClipEntry → ClipEntry
  | .gap n => .gap n
  | .frame f => .frame (keptFrame f)

theorem edgeBytes_delimits : Delimits (fun _ _ => True) edgeBytes Eq := by
  refine .of_length (fun _ _ _ => rfl) fun x y _ h => ?_
  obtain ⟨u, a⟩ := x
  obtain ⟨v, b⟩ := y
  simp only [edgeBytes, List.cons_append, List.cons.injEq] at h
  obtain ⟨hid, ha⟩ := List.append_inj h.2 rfl
  exact Prod.ext (usage_inj h.1 (toLeBytes_injective hid)) (action_inj (List.head_eq_of_cons_eq ha))

def LenFits (item : RawItem) : Prop := (rawLen item).toNat = item.bytes.length

/-- A report's length stands before its bytes. -/
theorem rawBytes_delimits :
    Delimits (Both LenFits) rawBytes (fun x y => keptReport x = keptReport y) := by
  have hhead : Delimits (Both LenFits)
      (fun item => [item.ep &&& 0x0F, item.direction.asU8] ++ toLeBytes (rawLen item))
      (fun x y => x.ep &&& 0x0F = y.ep &&& 0x0F ∧ x.direction = y.direction ∧
        rawLen x = rawLen y) := by
    refine .of_length (fun _ _ _ => rfl) fun x y _ h => ?_
    obtain ⟨hhead, hlen⟩ := List.append_inj h rfl
    simp only [List.cons.injEq, and_true] at hhead
    exact ⟨hhead.1, Direction.asU8_injective hhead.2, toLeBytes_injective hlen⟩
  have hbytes : Delimits (fun x y => Both LenFits x y ∧ rawLen x = rawLen y) RawItem.bytes
      (fun x y => x.bytes = y.bytes) :=
    .of_length (fun x y h => by rw [← h.1.1, ← h.1.2, h.2]) fun _ _ _ h => h
  refine (hhead.append (hbytes.mono (fun _ _ h => ⟨h.1, h.2.2.2⟩) fun _ _ _ h => h)).mono
    (fun _ _ h => h) fun x y _ h => ?_
  obtain ⟨⟨hep, hdir, -⟩, hb⟩ := h
  simp only [keptReport, hep, hdir, hb]

def DataFits (item : TransferItem) : Prop := item.out.length = outLen item.setup

/-- A transfer's setup packet says what follows it. -/
theorem transferBytes_delimits : Delimits (Both DataFits) transferBytes Eq := by
  have hhead : Delimits (Both DataFits) (fun item => item.ep :: item.setup.toBytes)
      (fun x y => x.ep = y.ep ∧ x.setup = y.setup) := by
    refine .of_length (fun _ _ _ => rfl) fun x y _ h => ?_
    simp only [List.cons.injEq] at h
    exact ⟨h.1, Setup.toBytes_injective h.2⟩
  have hout : Delimits (fun x y => Both DataFits x y ∧ x.ep = y.ep ∧ x.setup = y.setup)
      TransferItem.out (fun x y => x.out = y.out) :=
    .of_length (fun x y h => by rw [h.1.1, h.1.2, h.2.2]) fun _ _ _ h => h
  refine (hhead.append hout).mono (fun _ _ h => h) fun x y _ h => ?_
  obtain ⟨⟨hep, hsetup⟩, ho⟩ := h
  cases x
  cases y
  simp only at hep hsetup ho
  rw [hep, hsetup, ho]

def CountFits {α : Type} (xs : List α) : Prop := (count xs).toNat = xs.length

/-- Items after their count. -/
theorem counted_delimits {α : Type} {P : α → Prop} {S : α → α → Prop} {enc : α → List UInt8}
    (h : Delimits (Both P) enc S) :
    Delimits (Both fun xs => CountFits xs ∧ ∀ x ∈ xs, P x)
      (fun xs => count xs :: xs.flatMap enc) (List.Forall₂ S) := by
  have hcount : Delimits (Both fun xs => CountFits xs ∧ ∀ x ∈ xs, P x)
      (fun xs : List α => [count xs]) (fun xs ys => count xs = count ys) :=
    .of_length (fun _ _ _ => rfl) fun _ _ _ h => List.head_eq_of_cons_eq h
  refine (hcount.append (h.items.mono (fun xs ys hr => ⟨?_, ?_⟩) fun _ _ _ h => h)).mono
    (fun _ _ h => h) fun _ _ _ h => h.2
  · have hx := hr.1.1.1
    have hy := hr.1.2.1
    unfold CountFits at hx hy
    rw [← hx, ← hy, hr.2]
  · exact fun x hx y hy => ⟨hr.1.1.2 x hx, hr.1.2.2 y hy⟩

/-- What is known of a frame that is taken. -/
def Taken (f : ClipFrame) : Prop := Fits f ∧ Counted f

section Frame

variable {enc : ClipFrame → List UInt8} {S : ClipFrame → ClipFrame → Prop}

/-- A field is in the code if the flags have its bit. -/
theorem field_delimits {bit : UInt8} {has : ClipFrame → Prop}
    (hbit : ∀ f, frameFlags f &&& bit ≠ 0 ↔ has f)
    (h : Delimits (fun f g => Both Taken f g ∧ has f ∧ has g) enc S)
    (hn : ∀ f g, ¬has f → ¬has g → S f g) :
    Delimits (fun f g => Both Taken f g ∧ frameFlags f = frameFlags g)
      (fun f => if frameFlags f &&& bit ≠ 0 then enc f else []) S :=
  .opt (fun f g hr => by rw [hr.2])
    (h.mono (fun f g hr => ⟨hr.1.1, (hbit f).mp hr.2.1, (hbit g).mp hr.2.2⟩) fun _ _ _ h => h)
    fun f g _ hf hg => hn f g (mt (hbit f).mpr hf) (mt (hbit g).mpr hg)

end Frame

theorem word_delimits : Delimits (fun _ _ => True) (fun v : Int16 => toLeBytes v.toUInt16) Eq :=
  .of_length (fun _ _ _ => rfl) fun _ _ _ h => toUInt16_inj (toLeBytes_injective h)

theorem word_field {bit : UInt8} {get : ClipFrame → Int16}
    (hbit : ∀ f, frameFlags f &&& bit ≠ 0 ↔ get f ≠ 0) :
    Delimits (fun f g => Both Taken f g ∧ frameFlags f = frameFlags g)
      (fun f => if frameFlags f &&& bit ≠ 0 then toLeBytes (get f).toUInt16 else [])
      (fun f g => get f = get g) :=
  field_delimits hbit ((word_delimits.comap get).mono (fun _ _ _ => trivial) fun _ _ _ h => h)
    fun _ _ hf hg => (not_not.mp hf).trans (not_not.mp hg).symm

theorem list_field {α : Type} {P : α → Prop} {S : α → α → Prop} {item : α → List UInt8}
    (h : Delimits (Both P) item S) {bit : UInt8} {get : ClipFrame → List α}
    (hbit : ∀ f, frameFlags f &&& bit ≠ 0 ↔ get f ≠ [])
    (hget : ∀ f, Taken f → CountFits (get f) ∧ ∀ x ∈ get f, P x) :
    Delimits (fun f g => Both Taken f g ∧ frameFlags f = frameFlags g)
      (fun f => if frameFlags f &&& bit ≠ 0 then count (get f) :: (get f).flatMap item else [])
      (fun f g => List.Forall₂ S (get f) (get g)) := by
  refine field_delimits hbit (((counted_delimits h).comap get).mono
    (fun f g hr => ⟨hget f hr.1.1, hget g hr.1.2⟩) fun _ _ _ h => h) fun f g hf hg => ?_
  rw [not_not.mp hf, not_not.mp hg]
  exact .nil

theorem frameBytes_delimits :
    Delimits (Both Taken) frameBytes (fun f g => keptFrame f = keptFrame g) := by
  have hflags : Delimits (Both Taken) (fun f => [frameFlags f])
      (fun f g => frameFlags f = frameFlags g) :=
    .of_length (fun _ _ _ => rfl) fun _ _ _ h => List.head_eq_of_cons_eq h
  have hxy := field_delimits (fun f => (flags_spec f).1)
    (((word_delimits.comap ClipFrame.dx).and (word_delimits.comap ClipFrame.dy)).mono
      (fun _ _ _ => trivial) fun _ _ _ h => h) fun f g hf hg => by
        simp only [not_or, not_not] at hf hg
        exact ⟨hf.1.trans hg.1.symm, hf.2.1.trans hg.2.1.symm⟩
  have hwheel := word_field fun f => (flags_spec f).2.1
  have hpan := word_field fun f => (flags_spec f).2.2.1
  have hedges := list_field (P := fun _ => True)
    (edgeBytes_delimits.mono (fun _ _ _ => trivial) fun _ _ _ h => h)
    (fun f => (flags_spec f).2.2.2.1) fun f hf => ⟨hf.2.edges, fun _ _ => trivial⟩
  have hraw := list_field rawBytes_delimits (fun f => (flags_spec f).2.2.2.2.1)
    fun f hf => ⟨hf.2.raw, hf.2.rawLen⟩
  have htransfers := list_field transferBytes_delimits (fun f => (flags_spec f).2.2.2.2.2.1)
    fun f hf => ⟨hf.2.transfers, hf.1.data⟩
  have hframe := hflags.append (((((hxy.and hwheel).and hpan).and hedges).and hraw).and htransfers)
  intro f g s t hr heq
  obtain ⟨⟨-, ⟨⟨⟨⟨hmotion, hw⟩, hp⟩, he⟩, hi⟩, ht⟩, hrest⟩ := hframe hr
    (by simpa only [frameBytes, List.append_assoc] using heq)
  refine ⟨?_, hrest⟩
  rw [List.forall₂_eq_eq_eq] at he ht
  have hkept : f.raw.map keptReport = g.raw.map keptReport := by
    rw [← List.forall₂_eq_eq_eq, List.forall₂_map_left_iff, List.forall₂_map_right_iff]
    exact hi
  cases f
  cases g
  simp only at hmotion hw hp he ht hkept
  simp only [keptFrame, hmotion, hw, hp, he, ht, hkept]

theorem entryBytes_delimits :
    Delimits (Both EntryFits) entryBytes (fun e e' => keptEntry e = keptEntry e') := by
  have hgap : ∀ (n : UInt16) (f : ClipFrame) (s t : List UInt8),
      entryBytes (.gap n) ++ s ≠ entryBytes (.frame f) ++ t := by
    intro n f s t h
    have hhead := congrArg List.head? h
    simp only [entryBytes, frameBytes, List.append_assoc, List.cons_append, List.head?_cons,
      Option.some.injEq] at hhead
    exact (flags_spec f).2.2.2.2.2.2 hhead.symm
  intro e e' s t hr heq
  cases e with
  | gap n =>
    cases e' with
    | gap n' =>
      obtain ⟨hcode, hrest⟩ := List.append_inj heq rfl
      rw [toLeBytes_injective (List.tail_eq_of_cons_eq hcode)]
      exact ⟨rfl, hrest⟩
    | frame g => exact absurd heq (hgap n g s t)
  | frame f =>
    cases e' with
    | gap n' => exact absurd heq.symm (hgap n' f t s)
    | frame g =>
      obtain ⟨hf, hg⟩ := hr
      obtain ⟨hk, hrest⟩ := frameBytes_delimits ⟨⟨hf, Fits.counted hf⟩, ⟨hg, Fits.counted hg⟩⟩ heq
      exact ⟨congrArg ClipEntry.frame hk, hrest⟩

/-- Whatever the limits the chunks were cut by, the bytes alone tell the entries. -/
theorem chunks_decode {a b : ClipBuilder} {l m : Nat} {as bs : List (List UInt8)}
    (ha : encodeChunks a l = .ok as) (hb : encodeChunks b m = .ok bs)
    (h : as.flatten = bs.flatten) : a.entries.map keptEntry = b.entries.map keptEntry := by
  obtain ⟨hfa, rfl⟩ := encodeChunks_ok ha
  obtain ⟨hfb, rfl⟩ := encodeChunks_ok hb
  rw [Packing.flatten_pack, Packing.flatten_pack, ← List.flatMap_def, ← List.flatMap_def] at h
  have hall := entryBytes_delimits.stream (fun e he e' he' => ⟨hfa e he, hfb e' he'⟩)
    (fun e _ => entryBytes_ne_nil e) (fun e _ => entryBytes_ne_nil e) h
  rw [← List.forall₂_eq_eq_eq, List.forall₂_map_left_iff, List.forall₂_map_right_iff]
  exact hall

/-- A gap, and a report on endpoint 2 with a transfer out. -/
def played (ep : UInt8) : ClipBuilder where
  entries := [.gap 5, .frame {
    dy := -2
    edges := [(⟨.button, 1⟩, .press)]
    raw := [⟨ep, .negative, [0x10, 0xFF]⟩]
    transfers := [⟨0, ⟨0x21, 0x09, 0x0300, 0, 2⟩, [4, 1]⟩] }]

def playedBytes : List UInt8 :=
  [0, 5, 0, 53, 0, 0, 254, 255, 1, 0, 1, 0, 1, 1, 2, 2, 2, 0, 16, 255, 1, 0, 33, 9, 0, 3, 0, 0, 2,
    0, 4, 1]

theorem played_decode : (played 0x12).entries.map keptEntry = (played 2).entries.map keptEntry :=
  chunks_decode (show encodeChunks (played 0x12) 512 = .ok [playedBytes] by decide)
    (show encodeChunks (played 2) 512 = .ok [playedBytes] by decide) rfl

end Medius.Clips
