import Mathlib

/-! Lists used as tables: one entry for each key, in an order that carries meaning. -/

universe u v w

namespace Keyed

variable {α : Type u} {β : Type v} {κ : Type w} [DecidableEq κ]
variable (key : α → κ)

def position (l : List α) (k : κ) : Option Nat := l.findIdx? fun a => key a = k

def remove (l : List α) (k : κ) : List α :=
  match position key l k with
  | some i => l.eraseIdx i
  | none => l

/-- A changed entry moves to the end; the same entry again keeps its place. -/
def setLast [DecidableEq α] (l : List α) (a : α) : List α :=
  match position key l (key a) with
  | some i => if l[i]? = some a then l else l.eraseIdx i ++ [a]
  | none => l ++ [a]

/-- An entry of a held key takes the place of the one that holds it. -/
def setInPlace (l : List α) (a : α) : List α :=
  match position key l (key a) with
  | some i => l.set i a
  | none => l ++ [a]

theorem position_eq_none (l : List α) (k : κ) :
    position key l k = none ↔ ∀ a ∈ l, key a ≠ k := by
  simp [position, List.findIdx?_eq_none_iff]

theorem position_map (f : β → α) (l : List β) (k : κ) :
    position key (l.map f) k = position (key ∘ f) l k := by
  simp [position, List.findIdx?_map, Function.comp_def]

theorem remove_map (f : β → α) (l : List β) (k : κ) :
    remove key (l.map f) k = (remove (key ∘ f) l k).map f := by
  unfold remove
  rw [position_map]
  cases position (key ∘ f) l k with
  | none => rfl
  | some i => exact List.eraseIdx_map f l i

theorem remove_of_not_mem {l : List α} {k : κ} (h : ∀ a ∈ l, key a ≠ k) : remove key l k = l := by
  rw [remove, (position_eq_none key l k).mpr h]

theorem remove_cons (a : α) (l : List α) (k : κ) :
    remove key (a :: l) k = if key a = k then l else a :: remove key l k := by
  unfold remove position
  rw [List.findIdx?_cons]
  by_cases h : key a = k
  · simp [h]
  · simp only [h, decide_false, if_false, Bool.false_eq_true]
    cases l.findIdx? fun a => key a = k with
    | none => rfl
    | some i => rfl

/-- With one entry a key, removing the first is removing them all. -/
theorem remove_eq_filter {l : List α} (h : (l.map key).Nodup) (k : κ) :
    remove key l k = l.filter fun a => key a ≠ k := by
  induction l with
  | nil => rfl
  | cons a l ih =>
    simp only [List.map_cons, List.nodup_cons] at h
    rw [remove_cons, List.filter_cons]
    by_cases hk : key a = k
    · have hl : ∀ b ∈ l, key b ≠ k := fun b hb hbk =>
        h.1 (hk.trans hbk.symm ▸ List.mem_map_of_mem hb)
      rw [if_pos hk, if_neg (by simpa using hk), List.filter_eq_self.mpr (by simpa using hl)]
    · rw [if_neg hk, if_pos (by simpa using hk), ih h.2]

theorem mem_remove {l : List α} (h : (l.map key).Nodup) {k : κ} {a : α} :
    a ∈ remove key l k ↔ a ∈ l ∧ key a ≠ k := by
  rw [remove_eq_filter key h, List.mem_filter, decide_eq_true_eq]

theorem remove_sublist (l : List α) (k : κ) : (remove key l k).Sublist l := by
  unfold remove
  split
  · exact List.eraseIdx_sublist _ _
  · exact .refl _

theorem remove_nodup {l : List α} (h : (l.map key).Nodup) (k : κ) :
    ((remove key l k).map key).Nodup :=
  h.sublist ((remove_sublist key l k).map key)

omit [DecidableEq κ] in
theorem append_nodup {l : List α} (h : (l.map key).Nodup) {a : α} (ha : ∀ b ∈ l, key b ≠ key a) :
    ((l ++ [a]).map key).Nodup := by
  rw [List.map_append, List.nodup_append]
  refine ⟨h, List.nodup_singleton _, fun k hk k' hk' => ?_⟩
  obtain ⟨b, hb, rfl⟩ := List.mem_map.mp hk
  rw [List.map_singleton, List.mem_singleton] at hk'
  exact hk' ▸ ha b hb

omit [DecidableEq κ] in
theorem ne_of_nodup_append {l l' : List α} (h : ((l ++ l').map key).Nodup) {a b : α} (ha : a ∈ l)
    (hb : b ∈ l') : key a ≠ key b := by
  rw [List.map_append, List.nodup_append] at h
  exact h.2.2 _ (List.mem_map_of_mem ha) _ (List.mem_map_of_mem hb)

/-- Where an entry of this key stands, it is the one found. -/
theorem getElem?_position {l : List α} (h : (l.map key).Nodup) {k : κ} {i : Nat}
    (hi : position key l k = some i) (a : α) (ha : key a = k) : l[i]? = some a ↔ a ∈ l := by
  induction l generalizing i with
  | nil => simp [position] at hi
  | cons b l ih =>
    simp only [List.map_cons, List.nodup_cons] at h
    rw [position, List.findIdx?_cons] at hi
    by_cases hb : key b = k
    · simp only [hb, decide_true, if_true, Option.some.injEq] at hi
      subst hi
      have hal : a ∉ l := fun hm => h.1 (hb.trans ha.symm ▸ List.mem_map_of_mem hm)
      simp [hal, eq_comm]
    · simp only [hb, decide_false, Bool.false_eq_true, if_false, Option.map_eq_some_iff] at hi
      obtain ⟨j, hj, rfl⟩ := hi
      have hab : a ≠ b := fun h => hb (h ▸ ha)
      simp [ih h.2 hj, hab]

theorem filter_eq_eraseIdx {l : List α} (h : (l.map key).Nodup) {k : κ} {i : Nat}
    (hi : position key l k = some i) : (l.filter fun a => key a ≠ k) = l.eraseIdx i := by
  rw [← remove_eq_filter key h, remove, hi]

/-- An entry taken out goes back to its place. -/
theorem insertIdx_filter {l : List α} (h : (l.map key).Nodup) {k : κ} {i : Nat}
    (hi : position key l k = some i) {a : α} (ha : l[i]? = some a) :
    (l.filter fun b => key b ≠ k).insertIdx (min i (l.filter fun b => key b ≠ k).length) a = l := by
  obtain ⟨hlt, rfl⟩ := List.getElem?_eq_some_iff.mp ha
  have hlen : i ≤ (l.eraseIdx i).length := by
    rw [List.length_eraseIdx_of_lt hlt]
    omega
  rw [filter_eq_eraseIdx key h hi, min_eq_left hlen, List.insertIdx_eraseIdx_getElem hlt]

theorem key_of_position {l : List α} {k : κ} {i : Nat} (hi : position key l k = some i) {a : α}
    (ha : l[i]? = some a) : key a = k := by
  obtain ⟨hlt, hk, -⟩ := List.findIdx?_eq_some_iff_getElem.mp hi
  rw [List.getElem?_eq_getElem hlt, Option.some_inj] at ha
  exact ha ▸ of_decide_eq_true hk

theorem map_key_set {l : List α} {a : α} {i : Nat} (hi : position key l (key a) = some i) :
    (l.set i a).map key = l.map key := by
  obtain ⟨hlt, hk, -⟩ := List.findIdx?_eq_some_iff_getElem.mp hi
  have hk : key l[i] = key a := of_decide_eq_true hk
  rw [List.map_set, ← hk, ← List.getElem_map key (h := by simpa using hlt), List.set_getElem_self]

theorem position_congr {l l' : List α} (h : l.map key = l'.map key) (k : κ) :
    position key l k = position key l' k := by
  have hp : ∀ l : List α, position key l k = (l.map key).findIdx? fun k' => k' = k := by
    intro l
    rw [List.findIdx?_map]
    rfl
  rw [hp, hp, h]

theorem setInPlace_of_not_mem {l : List α} {a : α} (h : ∀ b ∈ l, key b ≠ key a) :
    setInPlace key l a = l ++ [a] := by
  rw [setInPlace, (position_eq_none key l _).mpr h]

theorem map_key_setInPlace_of_mem {l : List α} {a : α} (h : ∃ b ∈ l, key b = key a) :
    (setInPlace key l a).map key = l.map key := by
  unfold setInPlace
  cases hi : position key l (key a) with
  | none =>
    obtain ⟨b, hb, hk⟩ := h
    exact absurd hk ((position_eq_none key l _).mp hi b hb)
  | some i => exact map_key_set key hi

theorem setInPlace_nodup {l : List α} (h : (l.map key).Nodup) (a : α) :
    ((setInPlace key l a).map key).Nodup := by
  by_cases ha : ∃ b ∈ l, key b = key a
  · rwa [map_key_setInPlace_of_mem key ha]
  · have ha : ∀ b ∈ l, key b ≠ key a := fun b hb hk => ha ⟨b, hb, hk⟩
    rw [setInPlace_of_not_mem key ha]
    exact append_nodup key h ha

theorem mem_setInPlace {l : List α} {a b : α} (h : b ∈ setInPlace key l a) : b = a ∨ b ∈ l := by
  unfold setInPlace at h
  split at h
  · exact (List.mem_or_eq_of_mem_set h).symm
  · simpa [or_comm] using h

theorem setInPlace_map (f : β → α) (l : List β) (b : β) :
    setInPlace key (l.map f) (f b) = (setInPlace (key ∘ f) l b).map f := by
  unfold setInPlace
  rw [position_map]
  cases hp : position (key ∘ f) l (key (f b)) with
  | none => simp [hp]
  | some i => simp [hp, List.map_set]

theorem length_setInPlace_le (l : List α) (a : α) :
    (setInPlace key l a).length ≤ l.length + 1 := by
  unfold setInPlace
  split <;> simp

theorem length_setInPlace_of_mem {l : List α} {a : α} (h : ∃ b ∈ l, key b = key a) :
    (setInPlace key l a).length = l.length := by
  have := congrArg List.length (map_key_setInPlace_of_mem key h)
  simpa using this

/-- Entries put back one by one: none is lost when each brings a key of its own. -/
theorem foldl_setInPlace_of_fresh {l as : List α} (hpair : as.Pairwise fun a b => key a ≠ key b)
    (hfresh : ∀ a ∈ as, ∀ b ∈ l, key b ≠ key a) : as.foldl (setInPlace key) l = l ++ as := by
  induction as generalizing l with
  | nil => simp
  | cons a as ih =>
    obtain ⟨ha, hpair⟩ := List.pairwise_cons.mp hpair
    rw [List.foldl_cons, setInPlace_of_not_mem key (hfresh a (by simp)), ih hpair]
    · simp
    · intro b hb c hc
      rw [List.mem_append, List.mem_singleton] at hc
      rcases hc with hc | rfl
      · exact hfresh b (by simp [hb]) c hc
      · exact ha b hb

theorem foldl_setInPlace_of_nodup {l as : List α} (h : ((l ++ as).map key).Nodup) :
    as.foldl (setInPlace key) l = l ++ as := by
  refine foldl_setInPlace_of_fresh key ?_ fun a ha b hb => ne_of_nodup_append key h hb ha
  rw [List.map_append, List.nodup_append] at h
  exact List.pairwise_map.mp h.2.1

theorem length_foldl_setInPlace_le (l as : List α) :
    (as.foldl (setInPlace key) l).length ≤ l.length + as.length := by
  induction as generalizing l with
  | nil => simp
  | cons a as ih =>
    have h₁ := ih (setInPlace key l a)
    have h₂ := length_setInPlace_le key l a
    simp only [List.foldl_cons, List.length_cons]
    omega

/-- One is lost as soon as a key comes twice. -/
theorem fresh_of_length_foldl_setInPlace {l as : List α}
    (h : (as.foldl (setInPlace key) l).length = l.length + as.length) :
    as.Pairwise (fun a b => key a ≠ key b) ∧ ∀ a ∈ as, ∀ b ∈ l, key b ≠ key a := by
  induction as generalizing l with
  | nil => simp
  | cons a as ih =>
    simp only [List.foldl_cons, List.length_cons] at h
    by_cases ha : ∃ b ∈ l, key b = key a
    · have h₁ := length_foldl_setInPlace_le key (setInPlace key l a) as
      rw [length_setInPlace_of_mem key ha] at h₁
      omega
    · have ha : ∀ b ∈ l, key b ≠ key a := fun b hb hk => ha ⟨b, hb, hk⟩
      rw [setInPlace_of_not_mem key ha] at h
      obtain ⟨hpair, hfresh⟩ := ih (l := l ++ [a]) (by simp; omega)
      refine ⟨List.pairwise_cons.mpr ⟨fun b hb => ?_, hpair⟩, ?_⟩
      · exact hfresh b hb a (by simp)
      · rintro b (_ | ⟨_, hb⟩) c hc
        · exact ha c hc
        · exact hfresh b hb c (by simp [hc])

variable [DecidableEq α]

/-- A table rebuilt from nothing, entry by entry. -/
theorem foldl_setLast_of_nodup {l as : List α} (h : ((l ++ as).map key).Nodup) :
    as.foldl (setLast key) l = l ++ as := by
  induction as generalizing l with
  | nil => simp
  | cons a as ih =>
    have hfresh : ∀ b ∈ l, key b ≠ key a := fun b hb => ne_of_nodup_append key h hb (by simp)
    rw [List.foldl_cons, setLast, (position_eq_none key l _).mpr hfresh, ih (by simpa using h)]
    simp

theorem length_setLast_le (l : List α) (a : α) : (setLast key l a).length ≤ l.length + 1 := by
  unfold setLast
  split
  · split
    · exact Nat.le_succ _
    · rw [List.length_append, List.length_singleton]
      exact Nat.succ_le_succ (List.length_eraseIdx_le l _)
  · rw [List.length_append, List.length_singleton]

theorem length_setLast_of_mem {l : List α} {a : α} (h : ∃ b ∈ l, key b = key a) :
    (setLast key l a).length = l.length := by
  unfold setLast
  cases hi : position key l (key a) with
  | none =>
    obtain ⟨b, hb, hk⟩ := h
    exact absurd hk ((position_eq_none key l _).mp hi b hb)
  | some i =>
    obtain ⟨hlt, -⟩ := List.findIdx?_eq_some_iff_getElem.mp hi
    dsimp only
    split
    · rfl
    · rw [List.length_append, List.length_singleton, List.length_eraseIdx_of_lt hlt]
      omega

theorem setLast_of_mem {l : List α} (h : (l.map key).Nodup) {a : α} (ha : a ∈ l) :
    setLast key l a = l := by
  unfold setLast
  cases hp : position key l (key a) with
  | none => exact absurd rfl ((position_eq_none key l _).mp hp a ha)
  | some i => exact if_pos ((getElem?_position key h hp a rfl).mpr ha)

theorem setLast_of_not_mem {l : List α} (h : (l.map key).Nodup) {a : α} (ha : a ∉ l) :
    setLast key l a = (l.filter fun b => key b ≠ key a) ++ [a] := by
  rw [← remove_eq_filter key h, setLast, remove]
  cases hp : position key l (key a) with
  | none => rfl
  | some i => exact if_neg fun hi => ha ((getElem?_position key h hp a rfl).mp hi)

theorem setLast_nodup {l : List α} (h : (l.map key).Nodup) (a : α) :
    ((setLast key l a).map key).Nodup := by
  by_cases ha : a ∈ l
  · rwa [setLast_of_mem key h ha]
  · rw [setLast_of_not_mem key h ha]
    exact append_nodup key (h.sublist (List.filter_sublist.map key)) fun b hb =>
      of_decide_eq_true (List.mem_filter.mp hb).2

theorem mem_setLast {l : List α} (h : (l.map key).Nodup) {a b : α} :
    b ∈ setLast key l a → b = a ∨ b ∈ l := by
  by_cases ha : a ∈ l
  · rw [setLast_of_mem key h ha]
    exact .inr
  · rw [setLast_of_not_mem key h ha, List.mem_append, List.mem_filter, List.mem_singleton]
    rintro (hb | hb)
    · exact .inr hb.1
    · exact .inl hb

end Keyed
