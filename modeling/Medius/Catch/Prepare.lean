import Medius.Catch.Union
import Medius.Device.Catch

/-! What a prepared subscription asks of the box, read back off the wire. -/

namespace Medius.Catch

open Protocol Link Device Medius.Types

/-- The filters that the constructors and their refinements build. -/
inductive Built : CatchFilter → Prop
  | everything : Built .everything
  | exact (class_ : CatchClass) (id : UInt16) : Built (.exact class_ id)
  | blanket (class_ : CatchClass) : Built (.blanket class_)
  | withDirection {f : CatchFilter} (h : Built f) (d : Direction) : Built (f.withDirection d)
  | withCapture {f : CatchFilter} (h : Built f) (c : Capture) : Built (f.withCapture c)

theorem normal_of_none {c : Capture} (h : c.bytes = none) : c.normal = .whole := by
  rw [Capture.normal, h]
  rfl

theorem normal_of_some {c : Capture} {n : UInt8} (h : c.bytes = some n) : c.normal = .first n := by
  rw [Capture.normal, h]
  rfl

theorem normal_normal (c : Capture) : c.normal.normal = c.normal := by
  cases h : c.bytes with
  | none => exact (normal_of_none h).symm ▸ rfl
  | some n =>
    rw [normal_of_some h]
    exact normal_of_some (bytes_first (ne_zero_of_bytes h))

theorem Built.normal {f : CatchFilter} (h : Built f) : f.capture.normal = f.capture := by
  induction h with
  | everything | exact | blanket => rfl
  | withDirection _ _ ih => exact ih
  | withCapture _ c _ => exact normal_normal c

theorem fromU8_asU8_of_normal {c : Capture} (h : c.normal = c) : Capture.fromU8 c.asU8 = c := by
  cases hb : c.bytes with
  | none =>
    rw [← h, normal_of_none hb]
    rfl
  | some n =>
    rw [Capture.asU8, hb, ← h, normal_of_some hb]
    exact if_neg (ne_zero_of_bytes hb)

/-- What a subscription must ask for. -/
structure Asks (f : CatchFilter) : Prop where
  absolute : f.direction.isRelative = false
  meaningful : f.captureIsMeaningful
  real : f.id ≠ some catchIdAny

theorem isExact_iff (f : CatchFilter) : isExact f ↔ f.id.isSome := by
  unfold isExact CatchFilter.wire
  cases f.id with
  | none => simp
  | some i => simp

theorem wire_id_of_exact {f : CatchFilter} (h : isExact f) : f.id = some f.wire.2 :=
  of_decide_eq_true h

/-- Where an earlier check passes and an id is the sentinel, the first exact id is. -/
def FirstTells (fs : List CatchFilter) : Prop :=
  (∀ f ∈ fs, f.direction.isRelative = false ∧ f.captureIsMeaningful) →
    (∃ f ∈ fs, f.id = some catchIdAny) → fs.findSome? CatchFilter.id = some catchIdAny

theorem findSome?_id (fs : List CatchFilter) :
    fs.findSome? CatchFilter.id = (fs.find? isExact).map fun f => f.wire.2 := by
  induction fs with
  | nil => rfl
  | cons f fs ih =>
    rw [List.findSome?_cons, List.find?_cons]
    cases hid : f.id with
    | none =>
      have hno : isExact f = false := Bool.eq_false_iff.mpr fun h => by
        rw [isExact_iff, hid] at h
        cases h
      rw [hno, ih]
    | some i =>
      have hyes : isExact f = true := (isExact_iff f).mpr (by rw [hid]; rfl)
      have hw : i = f.wire.2 := Option.some.inj (hid ▸ wire_id_of_exact hyes)
      rw [hyes, hw]
      rfl

/-- The checks look at every filter, but at the first exact id alone. -/
theorem prepare_eq_ok_iff (fs : List CatchFilter) (set : FilterSet) :
    prepare fs = .ok set ↔ collapse fs = set ∧ fs ≠ [] ∧
      (∀ f ∈ fs, f.direction.isRelative = false ∧ f.captureIsMeaningful) ∧
      fs.findSome? CatchFilter.id ≠ some catchIdAny := by
  have hfirst := findSome?_id fs
  unfold prepare
  split
  next hempty => simp [List.isEmpty_iff.mp hempty]
  next hne =>
    have hne : fs ≠ [] := fun h => hne (List.isEmpty_iff.mpr h)
    split
    next f hrel =>
      have hf := List.find?_some (p := fun f : CatchFilter => f.direction.isRelative) hrel
      refine iff_of_false nofun fun h => ?_
      exact absurd hf (Bool.eq_false_iff.mp (h.2.2.1 f (List.mem_of_find?_eq_some hrel)).1)
    next hrel =>
      split
      next f hcap =>
        have hf := List.find?_some (p := fun f : CatchFilter => !f.captureIsMeaningful) hcap
        refine iff_of_false nofun fun h => ?_
        simp [(h.2.2.1 f (List.mem_of_find?_eq_some hcap)).2] at hf
      next hcap =>
        have hall : ∀ f ∈ fs, f.direction.isRelative = false ∧ f.captureIsMeaningful := by
          intro f hf
          have hr := List.find?_eq_none.mp hrel f hf
          have hc := List.find?_eq_none.mp hcap f hf
          exact ⟨Bool.eq_false_iff.mpr hr, by simpa using hc⟩
        split
        next f hexact =>
          have hid : fs.findSome? CatchFilter.id = some f.wire.2 := by rw [hfirst, hexact]; rfl
          rw [hid, ne_eq (some f.wire.2), Option.some_inj]
          split
          next hany => exact iff_of_false nofun fun h => h.2.2.2 hany
          next hany =>
            rw [Except.ok.injEq]
            exact (and_iff_left ⟨hne, hall, hany⟩).symm
        next hnone =>
          have hid : fs.findSome? CatchFilter.id = none := by rw [hfirst, hnone]; rfl
          rw [hid, Except.ok.injEq]
          exact (and_iff_left ⟨hne, hall, nofun⟩).symm

/-- What holds of every filter, and of any at a capture of its own, holds of every entry. -/
theorem collapse_all {P : CatchFilter → Prop} {fs : List CatchFilter} (h : ∀ f ∈ fs, P f)
    (hwide : ∀ f c, P f → P (f.withCapture c)) (k : FilterKey) :
    ∀ e ∈ (collapse fs)[k]?, P e := by
  induction fs using List.reverseRecOn generalizing k with
  | nil => simp [collapse]
  | append_singleton fs f ih =>
    have ih := ih fun f hf => h f (by simp [hf])
    intro e he
    rw [collapse, List.foldl_append, List.foldl_cons, List.foldl_nil, ← collapse,
      getElem?_collapseInto] at he
    split at he
    · cases hc : (collapse fs)[f.key]? with
      | none =>
        rw [hc] at he
        obtain rfl := Option.some.inj he
        exact h f (by simp)
      | some g =>
        rw [hc] at he
        obtain rfl := Option.some.inj he
        exact hwide g _ (ih f.key g hc)
    · exact ih k e he

/-- The entry an address is sent as. -/
def readBack (e : CatchFilter) : Option CatchFilter :=
  CatchFilter.fromWire e.wire.1 e.wire.2 e.direction.asU8 e.capture.asU8

theorem readBack_eq {e : CatchFilter} (hreal : e.id ≠ some catchIdAny)
    (hcap : e.capture.normal = e.capture) : readBack e = some e := by
  obtain ⟨class_, id, direction, capture, hclass⟩ := e
  have hi : (if id.getD catchIdAny = catchIdAny then none else some (id.getD catchIdAny)) = id := by
    cases id with
    | none => rfl
    | some i => exact if_neg fun h => hreal (congrArg some h)
  have hc := fromU8_asU8_of_normal hcap
  unfold readBack CatchFilter.fromWire CatchFilter.wire
  cases class_ with
  | none =>
    simp only [Option.elim_none, if_true, hi, Option.bind_eq_bind, Option.bind_some,
      Direction.fromU8_asU8, hc, Option.pure_def]
    exact dif_pos fun _ => hclass rfl
  | some c =>
    simp only [Option.elim_some, if_neg c.asU8_ne_any, CatchClass.fromU8_asU8, Option.map_some, hi,
      Option.bind_eq_bind, Option.bind_some, Direction.fromU8_asU8, hc, Option.pure_def]
    exact dif_pos hclass

/-- An address on the wire names one key, whatever the capture. -/
theorem key_of_wire {e e' : CatchFilter} (h : readBack e = some e) (h' : readBack e' = some e')
    (hwire : e.wire = e'.wire) (hdir : e.direction = e'.direction) : e.key = e'.key := by
  have hkey : ∀ class_ id direction c c',
      (CatchFilter.fromWire class_ id direction c).map CatchFilter.key =
        (CatchFilter.fromWire class_ id direction c').map CatchFilter.key := by
    intro class_ id direction c c'
    unfold CatchFilter.fromWire
    split <;> cases CatchClass.fromU8 class_ <;> cases Direction.fromU8 direction <;> simp <;>
      split <;> rfl
  have hsame := hkey e.wire.1 e.wire.2 e.direction.asU8 e.capture.asU8 e'.capture.asU8
  have hl : (readBack e).map CatchFilter.key = some e.key := by rw [h]; rfl
  have hr : (readBack e').map CatchFilter.key = some e'.key := by rw [h']; rfl
  unfold readBack at hl hr
  rw [hsame, hwire, hdir] at hl
  exact Option.some.inj (hl.symm.trans hr)

/-- A list is refused just when a filter of it is wrong, and an accepted one is read back off the
wire as its own entries. -/
structure NeverWidened (fs : List CatchFilter) : Prop where
  refused_iff : (∃ set, prepare fs = .ok set) ↔ fs ≠ [] ∧ ∀ f ∈ fs, Asks f
  readBack : ∀ set, prepare fs = .ok set → ∀ (k : FilterKey) (e : CatchFilter),
    set[k]? = some e → e.key = k ∧ readBack e = some e ∧ Collapsed fs e
  apart : ∀ set, prepare fs = .ok set → ∀ (k k' : FilterKey) (e e' : CatchFilter),
    set[k]? = some e → set[k']? = some e' → k ≠ k' →
      (e.wire, e.direction.asU8) ≠ (e'.wire, e'.direction.asU8)

theorem FirstTells.asks {fs : List CatchFilter} (h : FirstTells fs)
    (hall : ∀ f ∈ fs, f.direction.isRelative = false ∧ f.captureIsMeaningful)
    (hfirst : fs.findSome? CatchFilter.id ≠ some catchIdAny) : ∀ f ∈ fs, Asks f :=
  fun f hf => ⟨(hall f hf).1, (hall f hf).2, fun hid => hfirst (h hall ⟨f, hf, hid⟩)⟩

/-- A key that some filter brought keeps what the filters make of it. -/
theorem entry_of_ok {fs : List CatchFilter} (hbuilt : ∀ f ∈ fs, Built f)
    (hreal : ∀ f ∈ fs, f.id ≠ some catchIdAny) {k : FilterKey} {e : CatchFilter}
    (he : (collapse fs)[k]? = some e) : e.key = k ∧ readBack e = some e ∧ Collapsed fs e := by
  have hcollapse := getElem?_collapse fs k
  rw [he] at hcollapse
  obtain ⟨hkey, hcollapsed⟩ := hcollapse
  refine ⟨hkey, readBack_eq ?_ ?_, hcollapsed⟩
  · exact collapse_all (P := fun f => f.id ≠ some catchIdAny) hreal (fun _ _ h => h) k e he
  · exact collapse_all (P := fun f => f.capture.normal = f.capture)
      (fun f hf => (hbuilt f hf).normal) (fun _ c _ => normal_normal c) k e he

/-- A list is checked and sent as it asks exactly when the first exact id tells of a sentinel that
no other check refuses. -/
theorem never_widened_iff (fs : List CatchFilter) (hbuilt : ∀ f ∈ fs, Built f) :
    NeverWidened fs ↔ FirstTells fs := by
  constructor
  · intro h hall hany
    by_contra hfirst
    obtain ⟨f, hf, hid⟩ := hany
    have hne : fs ≠ [] := List.ne_nil_of_mem hf
    have hok := (prepare_eq_ok_iff fs (collapse fs)).mpr ⟨rfl, hne, hall, hfirst⟩
    exact ((h.refused_iff.mp ⟨_, hok⟩).2 f hf).real hid
  · intro h
    have hreal : ∀ set, prepare fs = .ok set → collapse fs = set ∧ fs ≠ [] ∧ ∀ f ∈ fs, Asks f := by
      intro set hok
      obtain ⟨hset, hne, hall, hfirst⟩ := (prepare_eq_ok_iff fs set).mp hok
      exact ⟨hset, hne, h.asks hall hfirst⟩
    refine ⟨⟨fun ⟨set, hok⟩ => (hreal set hok).2, fun ⟨hne, hasks⟩ => ?_⟩, ?_, ?_⟩
    · refine ⟨_, (prepare_eq_ok_iff fs (collapse fs)).mpr ⟨rfl, hne, fun f hf =>
        ⟨(hasks f hf).absolute, (hasks f hf).meaningful⟩, fun hfirst => ?_⟩⟩
      obtain ⟨f, hf, hid⟩ := List.exists_of_findSome?_eq_some hfirst
      exact (hasks f hf).real hid
    · intro set hok k e he
      obtain ⟨rfl, -, hasks⟩ := hreal set hok
      exact entry_of_ok hbuilt (fun f hf => (hasks f hf).real) he
    · intro set hok k k' e e' he he' hne heq
      obtain ⟨rfl, -, hasks⟩ := hreal set hok
      obtain ⟨hkey, hback, -⟩ := entry_of_ok hbuilt (fun f hf => (hasks f hf).real) he
      obtain ⟨hkey', hback', -⟩ := entry_of_ok hbuilt (fun f hf => (hasks f hf).real) he'
      obtain ⟨hwire, hdir⟩ := Prod.mk.inj heq
      refine hne ?_
      rw [← hkey, ← hkey']
      exact key_of_wire hback hback' hwire (Direction.asU8_injective hdir)

/-- Two keys, a blanket over one of them, and a capture widened under its key. -/
def tracing : List CatchFilter :=
  [.exact .key 4, .blanket .key, (CatchFilter.exact .hidIn 2).withCapture (.first 8),
    (CatchFilter.exact .hidIn 2).withCapture (.first 16)]

theorem tracing_never_widened : NeverWidened tracing :=
  (never_widened_iff tracing fun f hf => by
    simp only [tracing, List.mem_cons, List.not_mem_nil, or_false] at hf
    obtain rfl | rfl | rfl | rfl := hf
    exacts [.exact _ _, .blanket _, .withCapture (.exact _ _) _, .withCapture (.exact _ _) _]).mpr
    fun _ _ => absurd ‹_› (by decide)

/-- An exact id ahead of the sentinel lets it through as the whole class. -/
theorem sentinel_after_exact :
    ¬∀ fs : List CatchFilter, (∀ f ∈ fs, Built f) → NeverWidened fs := by
  intro h
  have hwide := h [.exact .key 4, .exact .hidIn catchIdAny] fun f hf => by
    simp only [List.mem_cons, List.not_mem_nil, or_false] at hf
    obtain rfl | rfl := hf
    exacts [.exact _ _, .exact _ _]
  have hok := (prepare_eq_ok_iff [.exact .key 4, .exact .hidIn catchIdAny] _).mpr
    ⟨rfl, by decide, by decide, by decide⟩
  exact ((hwide.refused_iff.mp ⟨_, hok⟩).2 (.exact .hidIn catchIdAny) (by simp)).real rfl

end Medius.Catch
