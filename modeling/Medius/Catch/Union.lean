import Medius.Catch.Capture
import Medius.Lib.Writes
import Medius.Link.Catch

/-! The union of every subscription, row by row: which entries it holds and how much of a
packet each keeps. -/

namespace Medius.Catch

open Protocol Link Medius.Types

abbrev Row := Direction → Option CatchFilter

def keyAt (a : CatchAddress) (d : Direction) : FilterKey := ⟨a.1, a.2, d⟩

def rows (set : FilterSet) (a : CatchAddress) : Row := fun d => set[keyAt a d]?

/-- Every entry stands under its own key. -/
def WellKeyed (set : FilterSet) : Prop :=
  ∀ (k : FilterKey) (f : CatchFilter), set[k]? = some f → f.key = k

theorem mem_filters {set : FilterSet} (h : WellKeyed set) (f : CatchFilter) :
    f ∈ FilterSet.filters set ↔ set[f.key]? = some f := by
  refine (BTreeMap.mem_values set f).trans ⟨?_, fun hf => ⟨f.key, hf⟩⟩
  rintro ⟨k, hk⟩
  rwa [h k f hk]

theorem entryAt_eq {set : FilterSet} (h : WellKeyed set) (a : CatchAddress) (d : Direction) :
    entryAt set a d = rows set a d := by
  have hkey : ∀ f : CatchFilter,
      (f.class_ = a.1 && f.id = a.2 && f.direction = d) = true ↔ f.key = keyAt a d := by
    intro f
    simp [keyAt, CatchFilter.key, and_assoc]
  unfold entryAt rows
  cases hf : set[keyAt a d]? with
  | none =>
    refine List.find?_eq_none.mpr fun f hmem hp => ?_
    rw [mem_filters h, (hkey f).mp hp, hf] at hmem
    cases hmem
  | some e =>
    cases hfind : (FilterSet.filters set).find?
        fun f => f.class_ = a.1 && f.id = a.2 && f.direction = d with
    | none =>
      have he := (mem_filters h e).mpr (by rw [h _ _ hf, hf])
      exact absurd ((hkey e).mpr (h _ _ hf)) (List.find?_eq_none.mp hfind e he)
    | some f =>
      have hk := (hkey f).mp (by simpa using List.find?_some hfind)
      have hmem := (mem_filters h f).mp (List.mem_of_find?_eq_some hfind)
      rw [← hf, ← hk, hmem]

/-- An address once its two opposite entries are one. -/
def mergedRow (row : Row) (pos neg : CatchFilter) : Row
  | .both => some (mergedSibling pos neg (row .both))
  | .positive | .negative => none
  | d => row d

def mergeRow (row : Row) : Row :=
  match row .positive, row .negative with
  | some pos, some neg => mergedRow row pos neg
  | _, _ => row

theorem row_cases (row : Row) :
    (∃ pos neg, row .positive = some pos ∧ row .negative = some neg) ∨
      (row .positive = none ∨ row .negative = none) := by
  cases hp : row .positive with
  | none => exact .inr (.inl rfl)
  | some pos =>
    cases hn : row .negative with
    | none => exact .inr (.inr rfl)
    | some neg => exact .inl ⟨pos, neg, rfl, rfl⟩

theorem mergeRow_of_pair {row : Row} {pos neg : CatchFilter} (hp : row .positive = some pos)
    (hn : row .negative = some neg) : mergeRow row = mergedRow row pos neg := by
  unfold mergeRow
  rw [hp, hn]

theorem mergeRow_of_single {row : Row} (h : row .positive = none ∨ row .negative = none) :
    mergeRow row = row := by
  unfold mergeRow
  obtain h | h := h
  · rw [h]
  · rw [h]
    cases row .positive <;> rfl

theorem mergeRow_relative (row : Row) {d : Direction} (h : d.isRelative) :
    mergeRow row d = row d := by
  obtain ⟨pos, neg, hp, hn⟩ | hs := row_cases row
  · rw [mergeRow_of_pair hp hn]
    cases d with
    | both | positive | negative => cases h
    | with_ | against => rfl
  · rw [mergeRow_of_single hs]

theorem mergeRow_single (row : Row) :
    mergeRow row .positive = none ∨ mergeRow row .negative = none := by
  obtain ⟨pos, neg, hp, hn⟩ | h := row_cases row
  · rw [mergeRow_of_pair hp hn]
    exact .inl rfl
  · rwa [mergeRow_of_single h]

theorem mergeRow_idem (row : Row) : mergeRow (mergeRow row) = mergeRow row :=
  mergeRow_of_single (mergeRow_single row)

@[simp] theorem keyAt_key (f : CatchFilter) : keyAt (f.class_, f.id) f.direction = f.key := rfl

theorem keyAt_inj {a b : CatchAddress} {d e : Direction} :
    keyAt a d = keyAt b e ↔ a = b ∧ d = e := by
  simp [keyAt, Prod.ext_iff, and_assoc]

theorem address_of_key {e f : CatchFilter} (h : e.key = f.key) :
    (e.class_, e.id) = (f.class_, f.id) ∧ e.direction = f.direction :=
  keyAt_inj.mp h

theorem mergedSibling_key {pos neg : CatchFilter} {a : CatchAddress} (h : pos.key = keyAt a .positive)
    (both : Option CatchFilter) : (mergedSibling pos neg both).key = keyAt a .both := by
  have h₁ : pos.class_ = a.1 := congrArg FilterKey.class_ h
  have h₂ : pos.id = a.2 := congrArg FilterKey.id h
  cases both <;> simp [mergedSibling, CatchFilter.key, keyAt, h₁, h₂]

theorem rows_mergeSiblings {set : FilterSet} (h : WellKeyed set) (a : CatchAddress) :
    rows (mergeSiblings set a) = Function.update (rows set) a (mergeRow (rows set a)) := by
  unfold mergeSiblings
  rw [entryAt_eq h, entryAt_eq h, entryAt_eq h]
  obtain ⟨pos, neg, hp, hn⟩ | hs := row_cases (rows set a)
  · rw [mergeRow_of_pair hp hn]
    have hpk : pos.key = keyAt a .positive := h _ _ hp
    have hnk : neg.key = keyAt a .negative := h _ _ hn
    have hmk := @mergedSibling_key _ neg _ hpk (rows set a .both)
    rw [hp, hn]
    dsimp only
    rw [hmk, hpk, hnk]
    funext b d
    simp only [rows, BTreeMap.getElem?_insert, BTreeMap.getElem?_erase, keyAt_inj]
    by_cases hb : b = a
    · subst hb
      rw [Function.update_self]
      cases d <;> simp [mergedRow, rows]
    · rw [Function.update_of_ne hb]
      simp [Ne.symm hb, rows]
  · rw [mergeRow_of_single hs, Function.update_eq_self]
    obtain hs | hs := hs
    · rw [hs]
    · rw [hs]
      cases rows set a .positive <;> rfl

theorem wellKeyed_iff {set : FilterSet} :
    WellKeyed set ↔ ∀ a d f, rows set a d = some f → f.key = keyAt a d :=
  ⟨fun h _ _ _ hf => h _ _ hf, fun h k f hf => h (k.class_, k.id) k.direction f hf⟩

theorem mergeRow_key {a : CatchAddress} {row : Row}
    (h : ∀ d f, row d = some f → f.key = keyAt a d) {d : Direction} {f : CatchFilter}
    (hf : mergeRow row d = some f) : f.key = keyAt a d := by
  obtain ⟨pos, neg, hp, hn⟩ | hs := row_cases row
  · rw [mergeRow_of_pair hp hn] at hf
    cases d with
    | both =>
      cases hf
      exact mergedSibling_key (h _ _ hp) _
    | positive | negative => cases hf
    | with_ | against => exact h _ _ hf
  · rw [mergeRow_of_single hs] at hf
    exact h _ _ hf

theorem WellKeyed.mergeSiblings {set : FilterSet} (h : WellKeyed set) (a : CatchAddress) :
    WellKeyed (mergeSiblings set a) := by
  rw [wellKeyed_iff] at h ⊢
  intro b d f hf
  rw [rows_mergeSiblings (wellKeyed_iff.mpr h)] at hf
  by_cases hb : b = a
  · subst hb
    rw [Function.update_self] at hf
    exact mergeRow_key (h b) hf
  · rw [Function.update_of_ne hb] at hf
    exact h b d f hf

theorem rows_foldl_mergeSiblings (as : List CatchAddress) {set : FilterSet} (h : WellKeyed set) :
    WellKeyed (as.foldl Link.mergeSiblings set) ∧ ∀ a,
      rows (as.foldl Link.mergeSiblings set) a =
        if a ∈ as then mergeRow (rows set a) else rows set a := by
  have hfold : ∀ (as : List CatchAddress) (set : FilterSet), WellKeyed set →
      WellKeyed (as.foldl Link.mergeSiblings set) ∧
        rows (as.foldl Link.mergeSiblings set) =
          Writes.writeAll (fun row (_ : Unit) => mergeRow row) (rows set)
            (as.map fun a => (a, ())) := by
    intro as
    induction as with
    | nil => exact fun set h => ⟨h, rfl⟩
    | cons a as ih =>
      intro set h
      obtain ⟨hw, hrows⟩ := ih _ (h.mergeSiblings a)
      refine ⟨hw, hrows.trans ?_⟩
      rw [rows_mergeSiblings h]
      rfl
  obtain ⟨hw, hrows⟩ := hfold as set h
  refine ⟨hw, fun a => ?_⟩
  rw [hrows]
  have hidem := Writes.writeAll_map_apply_idem (fun row (_ : Unit) => mergeRow row) (c := ())
    mergeRow_idem as (rows set) a
  by_cases ha : a ∈ as
  · rw [if_pos ha] at hidem ⊢
    exact hidem
  · rw [if_neg ha] at hidem ⊢
    exact hidem

/-- Every address is merged once, whatever the order. -/
theorem rows_collapseOppositeSiblings {set : FilterSet} (h : WellKeyed set) (a : CatchAddress) :
    rows (collapseOppositeSiblings set) a = mergeRow (rows set a) := by
  rw [collapseOppositeSiblings, (rows_foldl_mergeSiblings _ h).2]
  split
  · rfl
  next ha =>
    obtain ⟨pos, neg, hp, -⟩ | hs := row_cases (rows set a)
    · refine absurd ?_ ha
      have hk := h _ _ hp
      refine List.mem_map.mpr ⟨pos, List.mem_filter.mpr ⟨?_, ?_⟩, ?_⟩
      · exact (mem_filters h pos).mpr (hk ▸ hp)
      · have hdir : pos.direction = .positive := congrArg FilterKey.direction hk
        simp [hdir]
      · exact (keyAt_inj.mp ((keyAt_key pos).trans hk)).1
    · exact (mergeRow_of_single hs).symm

theorem wellKeyed_collapseOppositeSiblings {set : FilterSet} (h : WellKeyed set) :
    WellKeyed (collapseOppositeSiblings set) :=
  (rows_foldl_mergeSiblings _ h).1

theorem getElem?_collapseInto (out : FilterSet) (f : CatchFilter) (k : FilterKey) :
    (collapseInto out f)[k]? =
      if f.key = k then
        some (match out[f.key]? with
          | some e => e.withCapture (e.capture.widest f.capture)
          | none => f)
      else out[k]? := by
  unfold collapseInto
  cases out[f.key]? with
  | none => exact BTreeMap.getElem?_insert ..
  | some e => exact BTreeMap.getElem?_insert ..

/-- An entry stands for the filters under its key, and keeps as much as the widest. -/
structure Collapsed (fs : List CatchFilter) (e : CatchFilter) : Prop where
  of_mem : ∃ f ∈ fs, f.key = e.key
  width_le : ∀ n, width e.capture ≤ n ↔ ∀ f ∈ fs, f.key = e.key → width f.capture ≤ n

theorem getElem?_collapse (fs : List CatchFilter) (k : FilterKey) :
    match (collapse fs)[k]? with
    | some e => e.key = k ∧ Collapsed fs e
    | none => ∀ f ∈ fs, f.key ≠ k := by
  induction fs using List.reverseRecOn with
  | nil => simp [collapse]
  | append_singleton fs f ih =>
    rw [collapse, List.foldl_append, List.foldl_cons, List.foldl_nil, ← collapse,
      getElem?_collapseInto]
    by_cases hk : f.key = k
    · subst hk
      rw [if_pos rfl]
      cases hc : (collapse fs)[f.key]? with
      | none =>
        rw [hc] at ih
        refine ⟨rfl, ⟨f, by simp, rfl⟩, fun n => ⟨fun hn g hg hgk => ?_, fun h => ?_⟩⟩
        · obtain hg | hg := List.mem_append.mp hg
          · exact absurd hgk (ih g hg)
          · rwa [List.mem_singleton.mp hg]
        · exact h f (by simp) rfl
      | some e =>
        rw [hc] at ih
        obtain ⟨hek, ⟨g, hg, hgk⟩, hw⟩ := ih
        refine ⟨hek, ⟨g, List.mem_append_left _ hg, hgk⟩, fun n => ?_⟩
        simp only [CatchFilter.withCapture_capture, width_normal, width_widest, Nat.max_le, hw,
          CatchFilter.withCapture_key, List.mem_append, List.mem_singleton]
        constructor
        · rintro ⟨h, hf⟩ g (hg | rfl) hgk
          · exact h g hg hgk
          · exact hf
        · exact fun h => ⟨fun g hg => h g (.inl hg), h f (.inr rfl) hek.symm⟩
    · rw [if_neg hk]
      cases hc : (collapse fs)[k]? with
      | none =>
        rw [hc] at ih
        intro g hg
        obtain hg | hg := List.mem_append.mp hg
        · exact ih g hg
        · rwa [List.mem_singleton.mp hg]
      | some e =>
        rw [hc] at ih
        obtain ⟨hek, ⟨g, hg, hgk⟩, hw⟩ := ih
        refine ⟨hek, ⟨g, List.mem_append_left _ hg, hgk⟩, fun n => (hw n).trans ?_⟩
        refine ⟨fun h g hg hgk => ?_, fun h g hg => h g (List.mem_append_left _ hg)⟩
        obtain hg | hg := List.mem_append.mp hg
        · exact h g hg hgk
        · exact absurd (List.mem_singleton.mp hg ▸ hgk.trans hek) hk

theorem covers_congr {f g : CatchFilter} (h : f.key = g.key) (o : CatchFilter) :
    covers o f = covers o g := by
  simp only [CatchFilter.key, FilterKey.mk.injEq] at h
  obtain ⟨hc, hi, hd⟩ := h
  simp only [covers, hc, hi, hd]

theorem width_foldl_widest (fs : List CatchFilter) (c : Capture) (n : Nat) :
    width (fs.foldl (fun acc o => acc.widest o.capture) c) ≤ n ↔
      width c ≤ n ∧ ∀ o ∈ fs, width o.capture ≤ n := by
  induction fs generalizing c with
  | nil => simp
  | cons f fs ih =>
    rw [List.foldl_cons, ih, width_widest, Nat.max_le, List.forall_mem_cons, and_assoc]

/-- An entry of the union before opposite directions meet: as wide as the widest filter under
its key or covering it. -/
structure Widened (fs : List CatchFilter) (e : CatchFilter) : Prop where
  of_mem : ∃ f ∈ fs, f.key = e.key
  width_le : ∀ n, width e.capture ≤ n ↔
    ∀ f ∈ fs, f.key = e.key ∨ covers f e → width f.capture ≤ n

def widened (fs : List CatchFilter) : FilterSet :=
  (collapse fs).map fun _ f => CatchReg.widen fs f

theorem getElem?_widened (fs : List CatchFilter) (k : FilterKey) :
    match (widened fs)[k]? with
    | some e => e.key = k ∧ Widened fs e
    | none => ∀ f ∈ fs, f.key ≠ k := by
  rw [widened, BTreeMap.getElem?_map]
  have h := getElem?_collapse fs k
  cases hc : (collapse fs)[k]? with
  | none =>
    rw [hc] at h
    exact h
  | some e =>
    rw [hc] at h
    obtain ⟨hk, hmem, hw⟩ := h
    refine ⟨hk, hmem, fun n => ?_⟩
    have hcov : ∀ o, covers o (CatchReg.widen fs e) = covers o e := covers_congr rfl
    simp only [CatchReg.widen, CatchFilter.withCapture_capture, width_normal, width_foldl_widest,
      hw, List.mem_filter, CatchFilter.withCapture_key] at hcov ⊢
    constructor
    · rintro ⟨h₁, h₂⟩ f hf (hk | hc)
      · exact h₁ f hf hk
      · exact h₂ f ⟨hf, hcov f ▸ hc⟩
    · exact fun h => ⟨fun f hf hk => h f hf (.inl hk),
        fun f hf => h f hf.1 (.inr ((hcov f).trans hf.2))⟩

theorem wellKeyed_widened (fs : List CatchFilter) : WellKeyed (widened fs) := by
  intro k f hf
  have h := getElem?_widened fs k
  rw [hf] at h
  exact h.1

theorem wellKeyed_effective (reg : CatchReg) : WellKeyed reg.effective :=
  wellKeyed_collapseOppositeSiblings (wellKeyed_widened reg.all)

theorem rows_effective (reg : CatchReg) (a : CatchAddress) :
    rows reg.effective a = mergeRow (rows (widened reg.all) a) :=
  rows_collapseOppositeSiblings (wellKeyed_widened reg.all) a

end Medius.Catch
