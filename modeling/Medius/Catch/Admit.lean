import Medius.Catch.Union

/-! What the union lets through: an event some subscriber asked for, and no other. -/

namespace Medius.Catch

open Protocol Link Medius.Types

def AddressMatches (a : CatchAddress) (class_ : CatchClass) (id : UInt16) : Prop :=
  a.1 = none ∨ a.1 = some class_ ∧ (a.2 = none ∨ a.2 = some id)

theorem matches_iff (f : CatchFilter) (class_ : CatchClass) (id : UInt16) (d : Direction) :
    f.matches_ class_ id d ↔
      AddressMatches (f.class_, f.id) class_ id ∧ f.direction.admits d := by
  unfold CatchFilter.matches_ AddressMatches
  cases hc : f.class_ with
  | none => simp
  | some c =>
    cases f.id with
    | none => simp
    | some i => simp

theorem mem_all (reg : CatchReg) (f : CatchFilter) :
    f ∈ reg.all ↔ ∃ s ∈ reg.subs, f ∈ FilterSet.filters s.filters :=
  List.mem_flatMap

theorem mem_filters_rows {set : FilterSet} (h : WellKeyed set) (f : CatchFilter) :
    f ∈ FilterSet.filters set ↔ rows set (f.class_, f.id) f.direction = some f :=
  mem_filters h f

theorem rows_key {set : FilterSet} (h : WellKeyed set) {a : CatchAddress} {d : Direction}
    {e : CatchFilter} (he : rows set a d = some e) :
    (e.class_, e.id) = a ∧ e.direction = d ∧ e ∈ FilterSet.filters set := by
  have hk := h _ _ he
  obtain ⟨ha, hd⟩ := keyAt_inj.mp ((keyAt_key e).trans hk)
  exact ⟨ha, hd, (mem_filters h e).mpr (hk ▸ he)⟩

theorem rows_widened_isSome (fs : List CatchFilter) (a : CatchAddress) (d : Direction) :
    (rows (widened fs) a d).isSome ↔ ∃ f ∈ fs, f.key = keyAt a d := by
  have h := getElem?_widened fs (keyAt a d)
  unfold rows
  cases hc : (widened fs)[keyAt a d]? with
  | none =>
    rw [hc] at h
    simpa using h
  | some e =>
    rw [hc] at h
    obtain ⟨hk, ⟨f, hf, hfk⟩, -⟩ := h
    exact ⟨fun _ => ⟨f, hf, hfk.trans hk⟩, fun _ => rfl⟩

/-- An event's direction is one a packet can have. -/
theorem mergeRow_admits (row : Row) {d : Direction} (hd : d.isRelative = false) :
    (∃ d', (mergeRow row d').isSome ∧ d'.admits d) ↔ ∃ d', (row d').isSome ∧ d'.admits d := by
  obtain ⟨pos, neg, hp, hn⟩ | hs := row_cases row
  · rw [mergeRow_of_pair hp hn]
    refine ⟨fun _ => ?_, fun _ => ⟨.both, rfl, rfl⟩⟩
    cases d with
    | both | positive => exact ⟨.positive, by rw [hp]; rfl, rfl⟩
    | negative => exact ⟨.negative, by rw [hn]; rfl, rfl⟩
    | with_ | against => cases hd
  · rw [mergeRow_of_single hs]

theorem effective_admits (reg : CatchReg) :
    (∀ class_ id d, d.isRelative = false →
      ((∃ e ∈ FilterSet.filters reg.effective, e.matches_ class_ id d) ↔
        ∃ s ∈ reg.subs, ∃ f ∈ FilterSet.filters s.filters, f.matches_ class_ id d)) ∧
    ∀ pos ∈ FilterSet.filters reg.effective, ∀ neg ∈ FilterSet.filters reg.effective,
      pos.direction = .positive → neg.direction = .negative →
        (pos.class_, pos.id) ≠ (neg.class_, neg.id) := by
  have hw := wellKeyed_effective reg
  refine ⟨fun class_ id d hd => ?_, fun pos hpos neg hneg hp hn ha => ?_⟩
  · have hrow := fun a => mergeRow_admits (rows (widened reg.all) a) hd
    simp only [← rows_effective, rows_widened_isSome] at hrow
    constructor
    · rintro ⟨e, he, hm⟩
      rw [mem_filters_rows hw] at he
      obtain ⟨ha, hadm⟩ := (matches_iff ..).mp hm
      obtain ⟨d', ⟨f, hf, hfk⟩, hadm'⟩ := (hrow _).mp ⟨e.direction, by rw [he]; rfl, hadm⟩
      obtain ⟨hfa, rfl⟩ := keyAt_inj.mp ((keyAt_key f).trans hfk)
      obtain ⟨s, hs, hfs⟩ := (mem_all reg f).mp hf
      exact ⟨s, hs, f, hfs, (matches_iff ..).mpr ⟨hfa ▸ ha, hadm'⟩⟩
    · rintro ⟨s, hs, f, hf, hm⟩
      obtain ⟨ha, hadm⟩ := (matches_iff ..).mp hm
      obtain ⟨d', he, hadm'⟩ := (hrow (f.class_, f.id)).mpr
        ⟨f.direction, ⟨f, (mem_all reg f).mpr ⟨s, hs, hf⟩, rfl⟩, hadm⟩
      obtain ⟨e, he⟩ := Option.isSome_iff_exists.mp he
      obtain ⟨hea, rfl, hmem⟩ := rows_key hw he
      exact ⟨e, hmem, (matches_iff ..).mpr ⟨hea ▸ ha, hadm'⟩⟩
  · have hp' := (mem_filters_rows hw pos).mp hpos
    have hn' := (mem_filters_rows hw neg).mp hneg
    rw [hp, rows_effective] at hp'
    rw [hn, ← ha, rows_effective] at hn'
    obtain h | h := mergeRow_single (rows (widened reg.all) (pos.class_, pos.id))
    · rw [h] at hp'
      cases hp'
    · rw [h] at hn'
      cases hn'

/-- Two readers of one endpoint, one for each direction. -/
def bothWays : CatchReg where
  subs := [⟨0, collapse [(CatchFilter.exact .hidIn 1).withDirection .positive]⟩,
    ⟨1, collapse [(CatchFilter.exact .hidIn 1).withDirection .negative]⟩]

theorem effective_admits_bothWays :
    (∃ e ∈ FilterSet.filters bothWays.effective, e.matches_ .hidIn 1 .both) ↔
      ∃ s ∈ bothWays.subs, ∃ f ∈ FilterSet.filters s.filters, f.matches_ .hidIn 1 .both :=
  (effective_admits bothWays).1 .hidIn 1 .both rfl

end Medius.Catch
