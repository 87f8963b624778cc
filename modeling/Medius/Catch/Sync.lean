import Medius.Catch.Resolve

/-! The frames between two unions, and what they leave in the box's table. -/

namespace Medius.Catch

open Protocol Link Mock Medius.Types

def wireOf (k : FilterKey) : CatchKey :=
  (k.class_.elim catchClsAny CatchClass.asU8, k.id.getD catchIdAny, k.direction.asU8)

/-- No key spells the wildcard as an id of its own. -/
def Plain (set : FilterSet) : Prop :=
  WellKeyed set ∧ ∀ (k : FilterKey) (f : CatchFilter), set[k]? = some f → k.id ≠ some catchIdAny

theorem wireOf_injective {k k' : FilterKey} (hk : k.id ≠ some catchIdAny)
    (hk' : k'.id ≠ some catchIdAny) (h : wireOf k = wireOf k') : k = k' := by
  obtain ⟨c, i, d⟩ := k
  obtain ⟨c', i', d'⟩ := k'
  simp only [wireOf, Prod.mk.injEq] at h
  obtain ⟨hc, hi, hd⟩ := h
  have hd : d = d' := Direction.asU8_injective hd
  have hi : i = i' := by
    cases i <;> cases i' <;> simp_all
  have hc : c = c' := by
    cases c with
    | none =>
      cases c' with
      | none => rfl
      | some c' => exact absurd hc.symm c'.asU8_ne_any
    | some c =>
      cases c' with
      | none => exact absurd hc c.asU8_ne_any
      | some c' => exact congrArg some (CatchClass.asU8_injective hc)
  rw [hc, hi, hd]

/-- The table a box holds that was sent every entry of the union. -/
def tableOf (set : FilterSet) : CatchTable :=
  CatchTable.applyFrames ∅ (set.toList.map fun e => catchFrame 1 e.2)

theorem applyFrame_catchFrame_set (t : CatchTable) (f : CatchFilter) :
    CatchTable.applyFrame t (catchFrame 1 f) = t.insert (wireOf f.key) f.capture.asU8 :=
  CatchTable.applyFrame_set ..

theorem applyFrame_catchFrame_remove (t : CatchTable) {f : CatchFilter} (h : f.class_ ≠ none) :
    CatchTable.applyFrame t (catchFrame 0 f) = t.erase (wireOf f.key) := by
  refine CatchTable.applyFrame_remove _ _ _ fun hw => ?_
  obtain ⟨c, hc⟩ := Option.ne_none_iff_exists'.mp h
  rw [CatchFilter.wire, hc] at hw
  exact c.asU8_ne_any hw.1

theorem applyFrames_set (t : CatchTable) (l : List (FilterKey × CatchFilter)) :
    t.applyFrames (l.map fun e => catchFrame 1 e.2) =
      l.foldl (fun t e => t.insert (wireOf e.2.key) e.2.capture.asU8) t := by
  induction l generalizing t with
  | nil => rfl
  | cons e l ih => rw [List.map_cons, CatchTable.applyFrames_cons, ih, applyFrame_catchFrame_set]; rfl

theorem applyFrames_remove (t : CatchTable) {l : List (FilterKey × CatchFilter)}
    (h : ∀ e ∈ l, e.2.class_ ≠ none) :
    t.applyFrames (l.map fun e => catchFrame 0 e.2) =
      (l.map fun e => wireOf e.2.key).foldl (fun t k => t.erase k) t := by
  induction l generalizing t with
  | nil => rfl
  | cons e l ih =>
    rw [List.forall_mem_cons] at h
    rw [List.map_cons, CatchTable.applyFrames_cons, ih _ h.2,
      applyFrame_catchFrame_remove _ h.1]
    rfl

theorem mem_toList {set : FilterSet} {e : FilterKey × CatchFilter} :
    e ∈ set.toList ↔ set[e.1]? = some e.2 :=
  Std.ExtTreeMap.mem_toList_iff_getElem?_eq_some

section Table

variable {set : FilterSet} (h : Plain set)
include h

theorem Plain.key_of_mem {e : FilterKey × CatchFilter} (he : e ∈ set.toList) :
    e.2.key = e.1 ∧ e.1.id ≠ some catchIdAny :=
  ⟨h.1 _ _ (mem_toList.mp he), h.2 _ _ (mem_toList.mp he)⟩

theorem Plain.nodup : (set.toList.map fun e => wireOf e.2.key).Nodup := by
  have hkeys : set.toList.map (fun e => wireOf e.2.key) = set.keys.map wireOf := by
    rw [← Std.ExtTreeMap.map_fst_toList_eq_keys, List.map_map]
    exact List.map_congr_left fun e he => congrArg wireOf (h.key_of_mem he).1
  rw [hkeys]
  refine List.Nodup.map_on (fun k hk k' hk' heq => ?_) Std.ExtTreeMap.nodup_keys
  obtain ⟨f, hf⟩ := (BTreeMap.mem_iff set k).mp (Std.ExtTreeMap.mem_keys.mp hk)
  obtain ⟨f', hf'⟩ := (BTreeMap.mem_iff set k').mp (Std.ExtTreeMap.mem_keys.mp hk')
  exact wireOf_injective (h.2 _ _ hf) (h.2 _ _ hf') heq

theorem Plain.getElem?_set_of_mem {l : List (FilterKey × CatchFilter)}
    (hl : l.Sublist set.toList) (t : CatchTable) {e : FilterKey × CatchFilter} (he : e ∈ l) :
    (t.applyFrames (l.map fun e => catchFrame 1 e.2))[wireOf e.1]? = some e.2.capture.asU8 := by
  rw [applyFrames_set, ← (h.key_of_mem (hl.mem he)).1]
  exact BTreeMap.getElem?_foldl_insert_of_mem _ _ (h.nodup.sublist (hl.map _)) t he

theorem Plain.getElem?_set_of_not_mem {l : List (FilterKey × CatchFilter)}
    (hl : l.Sublist set.toList) (t : CatchTable) {w : CatchKey}
    (hw : ∀ e ∈ l, wireOf e.1 ≠ w) :
    (t.applyFrames (l.map fun e => catchFrame 1 e.2))[w]? = t[w]? := by
  rw [applyFrames_set]
  refine BTreeMap.getElem?_foldl_insert_of_not_mem _ _ l t fun e he => ?_
  rw [(h.key_of_mem (hl.mem he)).1]
  exact hw e he

theorem Plain.tableOf_of_mem {k : FilterKey} {f : CatchFilter} (hf : set[k]? = some f) :
    (tableOf set)[wireOf k]? = some f.capture.asU8 :=
  h.getElem?_set_of_mem (List.Sublist.refl _) ∅ (mem_toList (e := (k, f)).mpr hf)

theorem Plain.tableOf_eq_some {w : CatchKey} {c : UInt8} (hw : (tableOf set)[w]? = some c) :
    ∃ e ∈ set.toList, wireOf e.1 = w ∧ e.2.capture.asU8 = c := by
  by_cases hex : ∃ e ∈ set.toList, wireOf e.1 = w
  · obtain ⟨e, he, rfl⟩ := hex
    refine ⟨e, he, rfl, ?_⟩
    rw [h.tableOf_of_mem (mem_toList.mp he)] at hw
    exact Option.some.inj hw
  · have hno := h.getElem?_set_of_not_mem (List.Sublist.refl _) ∅ (w := w) fun e he hk =>
      hex ⟨e, he, hk⟩
    rw [tableOf] at hw
    rw [hno] at hw
    simp at hw

end Table

theorem mem_removedEntries {prev next : FilterSet} {e : FilterKey × CatchFilter} :
    e ∈ removedEntries prev next ↔
      e ∈ prev.toList ∧ e.1 ∉ next ∧ ¬(e.2.class_ = none ∧ wildcardRemoved prev next) := by
  have hc : next.contains e.1 = false ↔ e.1 ∉ next := by
    rw [← Std.ExtTreeMap.contains_iff_mem, Bool.not_eq_true]
  simp only [removedEntries, List.mem_filter, Bool.not_or, Bool.and_eq_true, Bool.not_eq_true',
    hc, Bool.and_eq_false_iff, Option.isNone_eq_false_iff, not_and_or, Option.isSome_iff_ne_none,
    Bool.not_eq_true]

theorem wildcardRemoved_iff {prev next : FilterSet} :
    wildcardRemoved prev next ↔ ∃ e ∈ prev.toList, e.2.class_ = none ∧ e.1 ∉ next := by
  have hc : ∀ k, next.contains k = false ↔ k ∉ next := fun k => by
    rw [← Std.ExtTreeMap.contains_iff_mem, Bool.not_eq_true]
  simp only [wildcardRemoved, List.any_eq_true, Bool.and_eq_true, Bool.not_eq_true', hc,
    Option.isNone_iff_eq_none]

/-- No removal is spelled as the clear. -/
theorem class_of_removed {prev next : FilterSet} {e : FilterKey × CatchFilter}
    (he : e ∈ removedEntries prev next) : e.2.class_ ≠ none := by
  obtain ⟨hmem, hnext, hw⟩ := mem_removedEntries.mp he
  exact fun hc => hw ⟨hc, wildcardRemoved_iff.mpr ⟨e, hmem, hc, hnext⟩⟩

theorem mem_addedEntries {prev next : FilterSet} {e : FilterKey × CatchFilter} :
    e ∈ addedEntries prev next ↔ e ∈ next.toList ∧
      (wildcardRemoved prev next = false →
        ∀ had, prev[e.1]? = some had → had.capture ≠ e.2.capture) := by
  unfold addedEntries
  rw [List.mem_filter]
  refine and_congr_right fun _ => ?_
  cases wildcardRemoved prev next with
  | true => simp
  | false => cases hc : prev[e.1]? <;> simp [hc]

theorem added_sublist (prev next : FilterSet) :
    (addedEntries prev next).Sublist next.toList :=
  List.filter_sublist

theorem catchSync_of_clear {prev next : FilterSet} (h : wildcardRemoved prev next) :
    catchSync prev next = (removedEntries prev next).map (fun e => catchFrame 0 e.2) ++
      clearFrame :: next.toList.map fun e => catchFrame 1 e.2 := by
  have hall : addedEntries prev next = next.toList := by
    refine List.filter_eq_self.mpr fun e _ => ?_
    simp [h]
  rw [catchSync, hall, if_pos h, List.append_assoc]
  rfl

theorem catchSync_of_kept {prev next : FilterSet} (h : wildcardRemoved prev next = false) :
    catchSync prev next = (removedEntries prev next).map (fun e => catchFrame 0 e.2) ++
      (addedEntries prev next).map fun e => catchFrame 1 e.2 := by
  rw [catchSync, h, if_neg Bool.false_ne_true, List.append_nil]

/-- The whole-table clear leaves nothing of the table before it. -/
theorem applyFrames_sync_of_clear {prev next : FilterSet} (h : wildcardRemoved prev next)
    (t : CatchTable) : t.applyFrames (catchSync prev next) = tableOf next := by
  rw [catchSync_of_clear h, CatchTable.applyFrames_append, CatchTable.applyFrames_cons]
  rfl

section Kept

variable {prev next : FilterSet} (hprev : Plain prev) (hnext : Plain next)

include hprev hnext in
theorem removed_ne {e : FilterKey × CatchFilter} (he : e ∈ removedEntries prev next)
    {k : FilterKey} {f : CatchFilter} (hf : next[k]? = some f) : wireOf e.2.key ≠ wireOf k := by
  intro hw
  obtain ⟨hmem, hno, -⟩ := mem_removedEntries.mp he
  obtain ⟨hk, hid⟩ := hprev.key_of_mem hmem
  rw [hk] at hw
  exact hno (wireOf_injective hid (hnext.2 _ _ hf) hw ▸ (BTreeMap.mem_iff next k).mpr ⟨f, hf⟩)

variable (hkept : wildcardRemoved prev next = false)
include hnext hkept

theorem getElem?_sync_added (t : CatchTable) {e : FilterKey × CatchFilter}
    (he : e ∈ addedEntries prev next) :
    (t.applyFrames (catchSync prev next))[wireOf e.1]? = some e.2.capture.asU8 := by
  rw [catchSync_of_kept hkept, CatchTable.applyFrames_append]
  exact hnext.getElem?_set_of_mem (added_sublist prev next) _ he

theorem getElem?_sync_removed (t : CatchTable) {w : CatchKey}
    (hw : ∀ e ∈ addedEntries prev next, wireOf e.1 ≠ w)
    (hr : w ∈ (removedEntries prev next).map fun e => wireOf e.2.key) :
    (t.applyFrames (catchSync prev next))[w]? = none := by
  rw [catchSync_of_kept hkept, CatchTable.applyFrames_append,
    hnext.getElem?_set_of_not_mem (added_sublist prev next) _ hw,
    applyFrames_remove t fun e => class_of_removed, BTreeMap.getElem?_foldl_erase, if_pos hr]

theorem getElem?_sync_rest (t : CatchTable) {w : CatchKey}
    (hw : ∀ e ∈ addedEntries prev next, wireOf e.1 ≠ w)
    (hr : w ∉ (removedEntries prev next).map fun e => wireOf e.2.key) :
    (t.applyFrames (catchSync prev next))[w]? = t[w]? := by
  rw [catchSync_of_kept hkept, CatchTable.applyFrames_append,
    hnext.getElem?_set_of_not_mem (added_sublist prev next) _ hw,
    applyFrames_remove t fun e => class_of_removed, BTreeMap.getElem?_foldl_erase, if_neg hr]

include hprev in
/-- A diff that clears nothing installs its target exactly when the entries it leaves alone
already stood there. -/
theorem sync_eq_iff {t : CatchTable}
    (ht : ∀ w c, t[w]? = some c →
      (∃ e ∈ prev.toList, wireOf e.1 = w) ∨ ∃ e ∈ next.toList, wireOf e.1 = w) :
    t.applyFrames (catchSync prev next) = tableOf next ↔
      ∀ e ∈ next.toList, e ∉ addedEntries prev next →
        t[wireOf e.1]? = some e.2.capture.asU8 := by
  have hrest : ∀ e ∈ next.toList, e ∉ addedEntries prev next →
      (t.applyFrames (catchSync prev next))[wireOf e.1]? = t[wireOf e.1]? := by
    intro e he hadd
    refine getElem?_sync_rest hnext hkept t (fun e' he' hw => hadd ?_) fun hr => ?_
    · have hmem' := (added_sublist prev next).mem he'
      have hk := wireOf_injective (hnext.key_of_mem hmem').2 (hnext.key_of_mem he).2 hw
      have hv := hk ▸ mem_toList.mp hmem'
      rw [mem_toList.mp he] at hv
      rwa [Prod.ext hk (Option.some.inj hv).symm] at he'
    · obtain ⟨e', he', hw⟩ := List.mem_map.mp hr
      exact removed_ne hprev hnext he' (mem_toList.mp he) hw
  constructor
  · intro h e he hadd
    rw [← hrest e he hadd, h]
    exact hnext.tableOf_of_mem (mem_toList.mp he)
  · intro h
    refine Std.ExtTreeMap.ext_getElem? fun w => ?_
    by_cases hex : ∃ e ∈ next.toList, wireOf e.1 = w
    · obtain ⟨e, he, rfl⟩ := hex
      rw [hnext.tableOf_of_mem (mem_toList.mp he)]
      by_cases hadd : e ∈ addedEntries prev next
      · exact getElem?_sync_added hnext hkept t hadd
      · rw [hrest e he hadd, h e he hadd]
    · have hnone : (tableOf next)[w]? = none := by
        by_contra hne
        obtain ⟨c, hc⟩ := Option.ne_none_iff_exists'.mp hne
        obtain ⟨e, he, hw, -⟩ := hnext.tableOf_eq_some hc
        exact hex ⟨e, he, hw⟩
      have hadd : ∀ e ∈ addedEntries prev next, wireOf e.1 ≠ w := fun e he hw =>
        hex ⟨e, (added_sublist prev next).mem he, hw⟩
      rw [hnone]
      by_cases hr : w ∈ (removedEntries prev next).map fun e => wireOf e.2.key
      · exact getElem?_sync_removed hnext hkept t hadd hr
      · rw [getElem?_sync_rest hnext hkept t hadd hr]
        by_contra hne
        obtain ⟨c, hc⟩ := Option.ne_none_iff_exists'.mp hne
        obtain ⟨e, he, hw⟩ := (ht w c hc).resolve_right hex
        refine hr (List.mem_map.mpr ⟨e, mem_removedEntries.mpr ⟨he, fun hmem => ?_, ?_⟩, ?_⟩)
        · obtain ⟨f, hf⟩ := (BTreeMap.mem_iff next e.1).mp hmem
          exact hex ⟨(e.1, f), mem_toList.mpr hf, hw⟩
        · exact fun h => Bool.eq_false_iff.mp hkept h.2
        · rw [(hprev.key_of_mem he).1, hw]

end Kept

theorem sync_tableOf {prev next : FilterSet} (hprev : Plain prev) (hnext : Plain next) :
    (tableOf prev).applyFrames (catchSync prev next) = tableOf next := by
  by_cases hw : wildcardRemoved prev next
  · exact applyFrames_sync_of_clear hw _
  · rw [Bool.not_eq_true] at hw
    refine (sync_eq_iff hprev hnext hw fun w c hc => ?_).mpr fun e he hadd => ?_
    · obtain ⟨e, he, hwe, -⟩ := hprev.tableOf_eq_some hc
      exact .inl ⟨e, he, hwe⟩
    · rw [mem_addedEntries, not_and] at hadd
      simp only [hw, forall_const, not_forall, not_not] at hadd
      obtain ⟨had, hprior, hcap⟩ := hadd he
      rw [hprev.tableOf_of_mem hprior, hcap]

theorem plain_effective {reg : CatchReg} (h : ∀ f ∈ reg.all, f.id ≠ some catchIdAny) :
    Plain reg.effective := by
  have hw := wellKeyed_effective reg
  refine ⟨hw, fun k e he => ?_⟩
  have hmem := (mem_filters hw e).mpr (hw k e he ▸ he)
  have haddr : ∃ u ∈ reg.all, (u.class_, u.id) = (e.class_, e.id) := by
    by_cases hp : Paired reg.all (e.class_, e.id)
    · obtain ⟨u, hu, hk⟩ := hp.1
      exact ⟨u, hu, (keyAt_inj.mp (show keyAt (u.class_, u.id) u.direction = _ from hk)).1⟩
    · obtain ⟨u, hu, hk⟩ := (widened_of_mem hmem hp).of_mem
      exact ⟨u, hu, (address_of_key hk).1⟩
  obtain ⟨u, hu, ha⟩ := haddr
  have hid : e.id = u.id := (Prod.mk.inj ha).2.symm
  rw [← hw k e he]
  change e.id ≠ some catchIdAny
  exact hid ▸ h u hu

theorem size_applyFrames_remove (t : CatchTable) (frames : List (List UInt8))
    (h : ∀ p ∈ frames, ∃ c i d n, p = catchPayload c i d 0 n) :
    (t.applyFrames frames).size ≤ t.size := by
  induction frames generalizing t with
  | nil => exact le_rfl
  | cons p frames ih =>
    rw [List.forall_mem_cons] at h
    obtain ⟨c, i, d, n, rfl⟩ := h.1
    exact (ih _ h.2).trans (t.size_applyFrame_remove c i d n)

theorem size_le_of_wires {set : FilterSet} {t : CatchTable}
    (ht : ∀ w ∈ t, ∃ e ∈ set.toList, wireOf e.1 = w) : t.size ≤ set.size := by
  have hlen : (set.toList.map fun e => wireOf e.1).length = set.size := by
    rw [List.length_map, Std.ExtTreeMap.length_toList]
  refine hlen ▸ BTreeMap.size_le_of_keys t fun w hw => ?_
  obtain ⟨e, he, hwe⟩ := ht w hw
  exact List.mem_map.mpr ⟨e, he, hwe⟩

/-- What the removals and the clear leave is in the target already. -/
theorem mem_next_of_removed {prev next : FilterSet} (hprev : Plain prev) {w : CatchKey}
    (hw : w ∈ (tableOf prev).applyFrames
      ((removedEntries prev next).map (fun e => catchFrame 0 e.2) ++
        if wildcardRemoved prev next then [clearFrame] else [])) :
    ∃ e ∈ next.toList, wireOf e.1 = w := by
  rw [CatchTable.applyFrames_append, applyFrames_remove _ fun e => class_of_removed] at hw
  split at hw
  · exact absurd hw Std.ExtTreeMap.not_mem_empty
  next hkept =>
    rw [CatchTable.applyFrames_nil, BTreeMap.mem_iff] at hw
    obtain ⟨c, hc⟩ := hw
    rw [BTreeMap.getElem?_foldl_erase] at hc
    split at hc
    · cases hc
    next hr =>
      obtain ⟨e, he, hwe, -⟩ := hprev.tableOf_eq_some hc
      by_contra hno
      refine hr (List.mem_map.mpr ⟨e, mem_removedEntries.mpr ⟨he, fun hmem => hno ?_, ?_⟩, ?_⟩)
      · obtain ⟨f, hf⟩ := (BTreeMap.mem_iff next e.1).mp hmem
        exact ⟨(e.1, f), mem_toList.mpr hf, hwe⟩
      · exact fun h => hkept h.2
      · rw [(hprev.key_of_mem he).1, hwe]

/-- At no moment does the box hold more than the larger of the two unions. -/
theorem size_sync_take {prev next : FilterSet} (hprev : Plain prev) (hnext : Plain next)
    {n : Nat} (hsp : prev.size ≤ n) (hsn : next.size ≤ n) (m : Nat) :
    ((tableOf prev).applyFrames ((catchSync prev next).take m)).size ≤ n := by
  have hsize : (tableOf prev).size ≤ n := by
    refine (size_le_of_wires fun w hw => ?_).trans hsp
    obtain ⟨c, hc⟩ := (BTreeMap.mem_iff _ w).mp hw
    obtain ⟨e, he, hwe, -⟩ := hprev.tableOf_eq_some hc
    exact ⟨e, he, hwe⟩
  rw [catchSync, List.take_append]
  by_cases hm : m ≤ ((removedEntries prev next).map (fun e => catchFrame 0 e.2) ++
      if wildcardRemoved prev next then [clearFrame] else []).length
  · rw [Nat.sub_eq_zero_of_le hm, List.take_zero, List.append_nil]
    refine (size_applyFrames_remove _ _ fun p hp => ?_).trans hsize
    obtain hp | hp := List.mem_append.mp (List.mem_of_mem_take hp)
    · obtain ⟨e, -, rfl⟩ := List.mem_map.mp hp
      exact ⟨_, _, _, _, rfl⟩
    · split at hp
      · exact ⟨_, _, _, _, List.mem_singleton.mp hp⟩
      · cases hp
  · rw [List.take_of_length_le (Nat.le_of_not_le hm), CatchTable.applyFrames_append,
      ← List.map_take]
    have hsub : ∀ j, ((addedEntries prev next).take j).Sublist next.toList := fun j =>
      (List.take_sublist j _).trans (added_sublist prev next)
    refine (size_le_of_wires fun w hw => ?_).trans hsn
    by_contra hno
    obtain ⟨c, hc⟩ := (BTreeMap.mem_iff _ w).mp hw
    rw [hnext.getElem?_set_of_not_mem (hsub _) _ fun e he hwe =>
      hno ⟨e, (hsub _).mem he, hwe⟩] at hc
    exact hno (mem_next_of_removed hprev ((BTreeMap.mem_iff _ w).mpr ⟨c, hc⟩))

/-- The diff of two unions takes the box's table from one to the other, and never past its
size. -/
theorem sync_installs (reg reg' : CatchReg) (hid : ∀ f ∈ reg.all, f.id ≠ some catchIdAny)
    (hid' : ∀ f ∈ reg'.all, f.id ≠ some catchIdAny)
    (hsize : reg.effective.size ≤ catchMaxEntries)
    (hsize' : reg'.effective.size ≤ catchMaxEntries) :
    (tableOf reg.effective).applyFrames (catchSync reg.effective reg'.effective) =
        tableOf reg'.effective ∧
      ∀ m, ((tableOf reg.effective).applyFrames
        ((catchSync reg.effective reg'.effective).take m)).size ≤ catchMaxEntries :=
  ⟨sync_tableOf (plain_effective hid) (plain_effective hid'),
    size_sync_take (plain_effective hid) (plain_effective hid') hsize hsize'⟩

/-- From two readers of the bus to two of one endpoint, through a whole-table clear. -/
theorem sync_installs_bothWays :
    (tableOf busReaders.effective).applyFrames
        (catchSync busReaders.effective bothWays.effective) = tableOf bothWays.effective ∧
      ∀ m, ((tableOf busReaders.effective).applyFrames
        ((catchSync busReaders.effective bothWays.effective).take m)).size ≤ catchMaxEntries :=
  sync_installs busReaders bothWays (by decide) (by decide) (by decide) (by decide)

end Medius.Catch
