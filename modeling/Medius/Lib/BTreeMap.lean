import Mathlib

/-! Ordered maps whose key order is read off an injective code, so that two maps with the
same entries are equal and every lookup evaluates. -/

universe u v w

/-- An injective numbering, which the keys are ordered by. -/
class Coded (α : Type u) where
  code : α → Nat
  code_injective : Function.Injective code

namespace Coded

variable {α : Type u} [Coded α]

abbrev cmp (a b : α) : Ordering := compareOn code a b

instance : Std.TransCmp (@cmp α _) := inferInstanceAs (Std.TransCmp (compareOn code))

instance : Std.LawfulEqCmp (@cmp α _) where
  compare_self := Std.ReflCmp.compare_self
  eq_of_compare h := code_injective (Nat.compare_eq_eq.mp h)

instance : Coded (UInt8 × UInt16) where
  code k := k.1.toNat * 65536 + k.2.toNat
  code_injective := by
    rintro ⟨a, b⟩ ⟨a', b'⟩ h
    have hb : b.toNat < 65536 := b.toNat_lt
    have hb' : b'.toNat < 65536 := b'.toNat_lt
    simp only [Prod.mk.injEq, ← UInt8.toNat_inj, ← UInt16.toNat_inj]
    simp only at h
    omega

instance : Coded (UInt8 × UInt16 × UInt8) where
  code k := (k.1.toNat * 65536 + k.2.1.toNat) * 256 + k.2.2.toNat
  code_injective := by
    rintro ⟨a, b, c⟩ ⟨a', b', c'⟩ h
    have hb : b.toNat < 65536 := b.toNat_lt
    have hb' : b'.toNat < 65536 := b'.toNat_lt
    have hc : c.toNat < 256 := c.toNat_lt
    have hc' : c'.toNat < 256 := c'.toNat_lt
    simp only [Prod.mk.injEq, ← UInt8.toNat_inj, ← UInt16.toNat_inj]
    simp only at h
    omega

instance : Std.TransCmp (@cmp (UInt8 × UInt16) _) := inferInstance

instance : Std.TransCmp (@cmp (UInt8 × UInt16 × UInt8) _) := inferInstance

end Coded

abbrev BTreeMap (α : Type u) (β : Type v) [Coded α] := Std.ExtTreeMap α β Coded.cmp

namespace BTreeMap

variable {α : Type u} {β : Type v} [Coded α]

theorem mem_iff (m : BTreeMap α β) (k : α) : k ∈ m ↔ ∃ v, m[k]? = some v := by
  rw [← Std.ExtTreeMap.isSome_getElem?_iff_mem, Option.isSome_iff_exists]

theorem getElem?_map {γ : Type v} (f : α → β → γ) (m : BTreeMap α β) (a : α) :
    (m.map f)[a]? = m[a]?.map (f a) :=
  Std.ExtTreeMap.getElem?_map

theorem mem_values (m : BTreeMap α β) (v : β) :
    v ∈ m.toList.map Prod.snd ↔ ∃ k : α, m[k]? = some v := by
  simp only [List.mem_map, Prod.exists, exists_eq_right,
    Std.ExtTreeMap.mem_toList_iff_getElem?_eq_some]

theorem values_eq (m : BTreeMap α β) : m.values = m.toList.map Prod.snd := by
  obtain ⟨m⟩ := m
  induction m with
  | mk t =>
    obtain ⟨t, ht⟩ := t
    change t.values = (Std.DTreeMap.Internal.Impl.Const.toList t).map Prod.snd
    rw [Std.DTreeMap.Internal.Impl.values_eq_map_snd,
      Std.DTreeMap.Internal.Impl.Const.toList_eq_toListModel_map, List.map_map]
    rfl

theorem values_eq_nil_iff (m : BTreeMap α β) : m.values = [] ↔ m.isEmpty = true := by
  rw [values_eq, List.map_eq_nil_iff, ← Std.ExtTreeMap.isEmpty_toList, List.isEmpty_iff]

theorem size_le_of_keys (m : BTreeMap α β) {l : List α} (h : ∀ k ∈ m, k ∈ l) :
    m.size ≤ l.length := by
  rw [← Std.ExtTreeMap.length_keys]
  refine (List.Nodup.subperm Std.ExtTreeMap.nodup_keys fun k hk => ?_).length_le
  exact h k (Std.ExtTreeMap.mem_keys.mp hk)

variable [DecidableEq α]

theorem getElem?_insert (m : BTreeMap α β) (k a : α) (v : β) :
    (m.insert k v)[a]? = if k = a then some v else m[a]? := by
  rw [Std.ExtTreeMap.getElem?_insert]
  exact if_congr Std.LawfulEqCmp.compare_eq_iff_eq rfl rfl

theorem getElem?_erase (m : BTreeMap α β) (k a : α) :
    (m.erase k)[a]? = if k = a then none else m[a]? := by
  rw [Std.ExtTreeMap.getElem?_erase]
  exact if_congr Std.LawfulEqCmp.compare_eq_iff_eq rfl rfl

theorem getElem?_foldl_erase (ks : List α) (m : BTreeMap α β) (a : α) :
    (ks.foldl (fun m k => m.erase k) m)[a]? = if a ∈ ks then none else m[a]? := by
  induction ks generalizing m with
  | nil => simp
  | cons k ks ih =>
    rw [List.foldl_cons, ih, getElem?_erase]
    by_cases hk : k = a
    · simp [hk]
    · by_cases ha : a ∈ ks <;> simp [hk, ha, Ne.symm hk]

/-- Filling a list of rows leaves the rows already taken. -/
theorem getElem?_foldl_insertVacant (ks : List α) (v : β) (m : BTreeMap α β) (a : α) :
    (ks.foldl (fun m k => if k ∈ m then m else m.insert k v) m)[a]? =
      m[a]?.or (if a ∈ ks then some v else none) := by
  induction ks generalizing m with
  | nil => simp
  | cons k ks ih =>
    rw [List.foldl_cons, ih]
    by_cases hm : k ∈ m
    · rw [if_pos hm]
      by_cases hk : a = k
      · obtain ⟨w, hw⟩ := (mem_iff m k).mp hm
        simp [hk, hw]
      · simp [hk]
    · rw [if_neg hm, getElem?_insert]
      by_cases hk : a = k
      · subst hk
        simp [Std.ExtTreeMap.getElem?_eq_none hm]
      · simp [hk, Ne.symm hk]

/-- Puts an entry back as it was looked up. -/
def put (m : BTreeMap α β) (r : α × Option β) : BTreeMap α β :=
  match r.2 with
  | some v => m.insert r.1 v
  | none => m.erase r.1

theorem getElem?_put (m : BTreeMap α β) (k a : α) (o : Option β) :
    (put m (k, o))[a]? = if k = a then o else m[a]? := by
  cases o with
  | none => exact getElem?_erase m k a
  | some v => exact getElem?_insert m k a v

/-- Whatever was done at some keys, putting back what they held undoes it. -/
theorem foldl_put_eq {m m' : BTreeMap α β} {ks : List α}
    (h : ∀ a, a ∉ ks → m'[a]? = m[a]?) : (ks.map fun k => (k, m[k]?)).foldl put m' = m := by
  apply Std.ExtTreeMap.ext_getElem?
  intro a
  suffices hput : ((ks.map fun k => (k, m[k]?)).foldl put m')[a]? =
      if a ∈ ks then m[a]? else m'[a]? by
    rw [hput]
    split
    · rfl
    next ha => exact h a ha
  clear h
  induction ks generalizing m' with
  | nil => simp
  | cons k ks ih =>
    rw [List.map_cons, List.foldl_cons, ih, getElem?_put]
    by_cases hk : k = a
    · subst hk
      simp
    · simp [hk, Ne.symm hk]

section Fold

variable {γ : Type w} (key : γ → α) (val : γ → β)

theorem getElem?_foldl_insert_of_not_mem (l : List γ) (m : BTreeMap α β) {a : α}
    (h : ∀ x ∈ l, key x ≠ a) :
    (l.foldl (fun m x => m.insert (key x) (val x)) m)[a]? = m[a]? := by
  induction l generalizing m with
  | nil => rfl
  | cons x l ih =>
    rw [List.foldl_cons, ih _ fun y hy => h y (List.mem_cons_of_mem x hy), getElem?_insert,
      if_neg (h x List.mem_cons_self)]

theorem getElem?_foldl_insert_of_mem {l : List γ} (hn : (l.map key).Nodup) (m : BTreeMap α β)
    {x : γ} (hx : x ∈ l) :
    (l.foldl (fun m x => m.insert (key x) (val x)) m)[key x]? = some (val x) := by
  induction l generalizing m with
  | nil => cases hx
  | cons y l ih =>
    simp only [List.map_cons, List.nodup_cons] at hn
    rw [List.foldl_cons]
    obtain rfl | hx := List.mem_cons.mp hx
    · rw [getElem?_foldl_insert_of_not_mem key val, getElem?_insert, if_pos rfl]
      exact fun z hz hk => hn.1 (hk ▸ List.mem_map_of_mem hz)
    · exact ih hn.2 _ hx

end Fold

end BTreeMap
