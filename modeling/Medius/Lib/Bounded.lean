import Medius.Lib.Keyed

/-! Keyed tables that take a new key only while they have room, and a held key always. -/

universe u v

namespace Keyed

variable {α : Type u} {κ : Type v} [DecidableEq κ]
variable (key : α → κ) (room : List α → α → Prop) [∀ l a, Decidable (room l a)]

def setWithin (l : List α) (a : α) : List α :=
  match position key l (key a) with
  | some i => l.set i a
  | none => if room l a then l ++ [a] else l

/-- The entry found is changed in place. -/
theorem modify_position {l : List α} {k : κ} {i : Nat} (hi : position key l k = some i)
    {f : α → α} {a : α} (hf : ∀ b ∈ l, key b = k → f b = a) : l.modify i f = l.set i a := by
  obtain ⟨hlt, hk, -⟩ := List.findIdx?_eq_some_iff_getElem.mp hi
  refine List.ext_getElem? fun j => ?_
  rw [List.getElem?_modify, List.getElem?_set]
  by_cases hj : i = j
  · subst hj
    simp [hlt, hf l[i] (List.getElem_mem hlt) (of_decide_eq_true hk)]
  · simp [hj]

theorem setWithin_of_mem {l : List α} {a : α} (h : ∃ b ∈ l, key b = key a) :
    setWithin key room l a = setInPlace key l a := by
  unfold setWithin setInPlace
  cases hi : position key l (key a) with
  | none =>
    obtain ⟨b, hb, hk⟩ := h
    exact absurd hk ((position_eq_none key l _).mp hi b hb)
  | some i => rfl

theorem setWithin_of_room {l : List α} {a : α} (h : room l a) :
    setWithin key room l a = setInPlace key l a := by
  unfold setWithin setInPlace
  cases position key l (key a) with
  | none => exact if_pos h
  | some i => rfl

theorem setWithin_of_full {l : List α} {a : α} (hnew : ∀ b ∈ l, key b ≠ key a)
    (h : ¬room l a) : setWithin key room l a = l := by
  rw [setWithin, (position_eq_none key l _).mpr hnew]
  exact if_neg h

/-- Every set is one in place, or changes nothing. -/
theorem setWithin_cases (l : List α) (a : α) :
    (setWithin key room l a = setInPlace key l a ∧ ((∃ b ∈ l, key b = key a) ∨ room l a)) ∨
      (setWithin key room l a = l ∧ (∀ b ∈ l, key b ≠ key a) ∧ ¬room l a) := by
  by_cases hmem : ∃ b ∈ l, key b = key a
  · exact .inl ⟨setWithin_of_mem key room hmem, .inl hmem⟩
  · have hnew : ∀ b ∈ l, key b ≠ key a := fun b hb hk => hmem ⟨b, hb, hk⟩
    by_cases h : room l a
    · exact .inl ⟨setWithin_of_room key room h, .inr h⟩
    · exact .inr ⟨setWithin_of_full key room hnew h, hnew, h⟩

theorem setWithin_nodup {l : List α} (h : (l.map key).Nodup) (a : α) :
    ((setWithin key room l a).map key).Nodup := by
  obtain ⟨hset, -⟩ | ⟨hset, -, -⟩ := setWithin_cases key room l a
  · rw [hset]
    exact setInPlace_nodup key h a
  · rwa [hset]

theorem mem_setWithin {l : List α} {a b : α} (h : b ∈ setWithin key room l a) : b = a ∨ b ∈ l := by
  obtain ⟨hset, -⟩ | ⟨hset, -, -⟩ := setWithin_cases key room l a
  · rw [hset] at h
    exact mem_setInPlace key h
  · rw [hset] at h
    exact .inr h

theorem prefix_map_key_setInPlace (l : List α) (a : α) :
    l.map key <+: (setInPlace key l a).map key := by
  by_cases hmem : ∃ b ∈ l, key b = key a
  · rw [map_key_setInPlace_of_mem key hmem]
  · rw [setInPlace_of_not_mem key fun b hb hk => hmem ⟨b, hb, hk⟩, List.map_append]
    exact List.prefix_append _ _

theorem prefix_map_key_setWithin (l : List α) (a : α) :
    l.map key <+: (setWithin key room l a).map key := by
  obtain ⟨hset, -⟩ | ⟨hset, -, -⟩ := setWithin_cases key room l a
  · rw [hset]
    exact prefix_map_key_setInPlace key l a
  · rw [hset]

theorem mem_setInPlace_self (l : List α) (a : α) : a ∈ setInPlace key l a := by
  unfold setInPlace
  cases hi : position key l (key a) with
  | none => exact List.mem_append_right _ (List.mem_singleton_self a)
  | some i =>
    obtain ⟨hlt, -⟩ := List.findIdx?_eq_some_iff_getElem.mp hi
    exact List.mem_set hlt a

/-- An entry of another key stays where it is. -/
theorem mem_setInPlace_of_ne {l : List α} {a b : α} (hb : b ∈ l) (hk : key b ≠ key a) :
    b ∈ setInPlace key l a := by
  unfold setInPlace
  cases hi : position key l (key a) with
  | none => exact List.mem_append_left _ hb
  | some i =>
    obtain ⟨j, hj⟩ := List.mem_iff_getElem?.mp hb
    have hij : i ≠ j := by
      rintro rfl
      exact hk (key_of_position key hi hj)
    exact List.mem_iff_getElem?.mpr ⟨j, (List.getElem?_set_ne hij).trans hj⟩

theorem mem_setWithin_of_ne {l : List α} {a b : α} (hb : b ∈ l) (hk : key b ≠ key a) :
    b ∈ setWithin key room l a := by
  obtain ⟨hset, -⟩ | ⟨hset, -, -⟩ := setWithin_cases key room l a
  · rw [hset]
    exact mem_setInPlace_of_ne key hb hk
  · rwa [hset]

/-- With one entry a key, an overwrite is a change of the entries under that key. -/
theorem setInPlace_eq_map {l : List α} (h : (l.map key).Nodup) {a : α}
    (ha : ∃ b ∈ l, key b = key a) :
    setInPlace key l a = l.map fun b => if key b = key a then a else b := by
  induction l with
  | nil => simp at ha
  | cons c l ih =>
    simp only [List.map_cons, List.nodup_cons] at h
    unfold setInPlace position at ih ⊢
    rw [List.findIdx?_cons]
    by_cases hc : key c = key a
    · have hl : ∀ b ∈ l, key b ≠ key a := fun b hb hk =>
        h.1 (hc.trans hk.symm ▸ List.mem_map_of_mem hb)
      have hid : (l.map fun b => if key b = key a then a else b) = l :=
        (List.map_congr_left fun b hb => if_neg (hl b hb)).trans (List.map_id _)
      simp [hc, hid]
    · have ha : ∃ b ∈ l, key b = key a := by simpa [hc] using ha
      have ih := ih h.2 ha
      cases hi : l.findIdx? fun b => decide (key b = key a) with
      | none =>
        obtain ⟨b, hb, hk⟩ := ha
        exact absurd hk ((position_eq_none key l _).mp hi b hb)
      | some i =>
        rw [hi] at ih
        simpa [hc] using ih

/-- An entry held already takes its own place. -/
theorem setInPlace_of_mem {l : List α} (h : (l.map key).Nodup) {a : α} (ha : a ∈ l) :
    setInPlace key l a = l := by
  unfold setInPlace
  cases hi : position key l (key a) with
  | none => exact absurd rfl ((position_eq_none key l _).mp hi a ha)
  | some i =>
    obtain ⟨hlt, hget⟩ := List.getElem?_eq_some_iff.mp ((getElem?_position key h hi a rfl).mpr ha)
    subst hget
    exact List.set_getElem_self hlt

/-- The last entry offered under a key. -/
def latest (as : List α) (k : κ) : Option α := as.reverse.find? fun a => key a = k

theorem latest_append (as : List α) (a : α) (k : κ) :
    latest key (as ++ [a]) k = if key a = k then some a else latest key as k := by
  unfold latest
  rw [List.reverse_append, List.reverse_singleton, List.singleton_append, List.find?_cons]
  by_cases h : key a = k
  · simp [h]
  · simp [h]

theorem key_of_latest {as : List α} {k : κ} {a : α} (h : latest key as k = some a) : key a = k :=
  of_decide_eq_true (List.find?_some (p := fun a => decide (key a = k)) h)

/-- What a table built from nothing holds under a key is the last entry offered for it. -/
theorem latest_of_mem_foldl_setWithin (as : List α) :
    ((as.foldl (setWithin key room) []).map key).Nodup ∧
      ∀ e ∈ as.foldl (setWithin key room) [], latest key as (key e) = some e := by
  induction as using List.reverseRecOn with
  | nil => simp
  | append_singleton as a ih =>
    obtain ⟨hnodup, ih⟩ := ih
    simp only [List.foldl_append, List.foldl_cons, List.foldl_nil]
    refine ⟨setWithin_nodup key room hnodup a, fun e he => ?_⟩
    rw [latest_append]
    obtain ⟨hset, -⟩ | ⟨hset, hnew, -⟩ :=
      setWithin_cases key room (as.foldl (setWithin key room) []) a
    · rw [hset] at he
      by_cases hk : key a = key e
      · rw [if_pos hk]
        by_cases hmem : ∃ b ∈ as.foldl (setWithin key room) [], key b = key a
        · rw [setInPlace_eq_map key hnodup hmem, List.mem_map] at he
          obtain ⟨b, -, rfl⟩ := he
          split_ifs with hb
          · rfl
          · rw [if_neg hb] at hk
            exact absurd hk.symm hb
        · have hnew : ∀ b ∈ as.foldl (setWithin key room) [], key b ≠ key a :=
            fun b hb hk => hmem ⟨b, hb, hk⟩
          rw [setInPlace_of_not_mem key hnew, List.mem_append, List.mem_singleton] at he
          obtain he | he := he
          · exact absurd hk.symm (hnew e he)
          · rw [he]
      · rw [if_neg hk]
        obtain rfl | he := mem_setInPlace key he
        · exact absurd rfl hk
        · exact ih e he
    · rw [hset] at he
      rw [if_neg fun hk => hnew e he hk.symm]
      exact ih e he

/-- Room is a matter of the keys held, and a longer table has no more of it. -/
def RoomAntitone : Prop :=
  ∀ l l' a b, l.map key <+: l'.map key → key a = key b → room l' b → room l a

/-- An entry the table holds a key for, or has no room for. -/
def Settled (l : List α) (a : α) : Prop := (∃ b ∈ l, key b = key a) ∨ ¬room l a

variable {key room}

omit [DecidableEq κ] [∀ l a, Decidable (room l a)] in
theorem Settled.mono (h : RoomAntitone key room) {l l' : List α}
    (hl : l.map key <+: l'.map key) {a : α} (ha : Settled key room l a) :
    Settled key room l' a := by
  obtain ⟨b, hb, hk⟩ | hfull := ha
  · have hmem : key b ∈ l'.map key := hl.subset (List.mem_map_of_mem hb)
    obtain ⟨c, hc, hcb⟩ := List.mem_map.mp hmem
    exact .inl ⟨c, hc, hcb.trans hk⟩
  · exact .inr fun hr => hfull (h l l' a a hl rfl hr)

theorem settled_setWithin (l : List α) (a : α) :
    Settled key room (setWithin key room l a) a := by
  obtain ⟨hset, -⟩ | ⟨hset, -, hfull⟩ := setWithin_cases key room l a
  · rw [hset]
    by_cases hmem : ∃ b ∈ l, key b = key a
    · obtain ⟨b, hb, hk⟩ := hmem
      have hsame := map_key_setInPlace_of_mem key ⟨b, hb, hk⟩
      have hb' : key b ∈ (setInPlace key l a).map key := hsame ▸ List.mem_map_of_mem hb
      obtain ⟨c, hc, hcb⟩ := List.mem_map.mp hb'
      exact .inl ⟨c, hc, hcb.trans hk⟩
    · rw [setInPlace_of_not_mem key fun b hb hk => hmem ⟨b, hb, hk⟩]
      exact .inl ⟨a, by simp, rfl⟩
  · rw [hset]
    exact .inr hfull

theorem settled_foldl_setWithin (h : RoomAntitone key room) (as : List α) :
    ∀ a ∈ as, Settled key room (as.foldl (setWithin key room) []) a := by
  induction as using List.reverseRecOn with
  | nil => simp
  | append_singleton as b ih =>
    simp only [List.foldl_append, List.foldl_cons, List.foldl_nil]
    intro a ha
    rw [List.mem_append, List.mem_singleton] at ha
    obtain ha | rfl := ha
    · exact (ih a ha).mono h (prefix_map_key_setWithin key room _ _)
    · exact settled_setWithin _ a

/-- Entries that are all settled change only what stands under their keys. -/
theorem foldl_setWithin_of_settled (h : RoomAntitone key room) {l : List α}
    (hnodup : (l.map key).Nodup) (as : List α) (hset : ∀ a ∈ as, Settled key room l a) :
    as.foldl (setWithin key room) l = l.map fun e => (latest key as (key e)).getD e := by
  induction as using List.reverseRecOn with
  | nil => simp [latest]
  | append_singleton as a ih =>
    have hkey : ∀ e, key ((latest key as (key e)).getD e) = key e := by
      intro e
      cases hl : latest key as (key e) with
      | none => rfl
      | some b => exact key_of_latest key hl
    have hkeys : (l.map fun e => (latest key as (key e)).getD e).map key = l.map key := by
      rw [List.map_map]
      exact List.map_congr_left fun e _ => hkey e
    rw [List.foldl_append, ih fun b hb => hset b (by simp [hb]), List.foldl_cons, List.foldl_nil]
    have hprefix : l.map key <+: (l.map fun e => (latest key as (key e)).getD e).map key := by
      rw [hkeys]
    have hsettled := (hset a (by simp)).mono h hprefix
    by_cases ha : ∃ b ∈ l.map fun e => (latest key as (key e)).getD e, key b = key a
    · rw [setWithin_of_mem key room ha, setInPlace_eq_map key (hkeys ▸ hnodup) ha, List.map_map]
      refine List.map_congr_left fun e _ => ?_
      simp only [Function.comp_apply, hkey, latest_append]
      by_cases hk : key e = key a
      · simp [hk]
      · simp [hk, Ne.symm hk]
    · have hnew : ∀ b ∈ l.map fun e => (latest key as (key e)).getD e, key b ≠ key a :=
        fun b hb hk => ha ⟨b, hb, hk⟩
      rw [setWithin_of_full key room hnew (hsettled.resolve_left ha)]
      refine List.map_congr_left fun e he => ?_
      have hne : key e ≠ key a := hkey e ▸ hnew _ (List.mem_map_of_mem he)
      rw [latest_append, if_neg hne.symm]

theorem foldl_setWithin_twice (h : RoomAntitone key room) (as : List α) :
    as.foldl (setWithin key room) (as.foldl (setWithin key room) []) =
      as.foldl (setWithin key room) [] := by
  obtain ⟨hnodup, hlatest⟩ := latest_of_mem_foldl_setWithin key room as
  rw [foldl_setWithin_of_settled h hnodup as (settled_foldl_setWithin h as)]
  refine (List.map_congr_left fun e he => ?_).trans (List.map_id _)
  rw [hlatest e he]
  rfl

end Keyed
