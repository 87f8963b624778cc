import Medius.Catch.Sync

/-! A subscription whose frames fail part of the way, and what its rollback leaves. -/

namespace Medius.Catch

open Protocol Link Mock Medius.Types

/-- The clear went out for a wildcard the rollback need not send again, and an entry both
unions hold alike was still to follow it. -/
def Stranded (prev next : FilterSet) (k : Nat) : Prop :=
  wildcardRemoved prev next ∧ wildcardRemoved next prev = false ∧
    (removedEntries prev next).length < k ∧
      ∃ e ∈ next.toList.drop (k - ((removedEntries prev next).length + 1)),
        ∃ had, prev[e.1]? = some had ∧ had.capture = e.2.capture

/-- The frame is about another key of the table. -/
def Misses (w : CatchKey) (p : List UInt8) : Prop :=
  ∃ f : CatchFilter, wireOf f.key ≠ w ∧ (p = catchFrame 1 f ∨ p = catchFrame 0 f ∧ f.class_ ≠ none)

theorem applyFrames_of_misses {w : CatchKey} (frames : List (List UInt8)) (t : CatchTable)
    (h : ∀ p ∈ frames, Misses w p) : (t.applyFrames frames)[w]? = t[w]? := by
  induction frames generalizing t with
  | nil => rfl
  | cons p frames ih =>
    rw [List.forall_mem_cons] at h
    obtain ⟨⟨f, hf, rfl | ⟨rfl, hc⟩⟩, hrest⟩ := h
    · rw [CatchTable.applyFrames_cons, ih _ hrest, applyFrame_catchFrame_set,
        BTreeMap.getElem?_insert, if_neg hf]
    · rw [CatchTable.applyFrames_cons, ih _ hrest, applyFrame_catchFrame_remove _ hc,
        BTreeMap.getElem?_erase, if_neg hf]

theorem misses_removed {prev next : FilterSet} (hprev : Plain prev) (hnext : Plain next)
    {k : FilterKey} {f : CatchFilter} (hf : next[k]? = some f) {p : List UInt8}
    (hp : p ∈ (removedEntries prev next).map fun e => catchFrame 0 e.2) : Misses (wireOf k) p := by
  obtain ⟨e, he, rfl⟩ := List.mem_map.mp hp
  exact ⟨e.2, removed_ne hprev hnext he hf, .inr ⟨rfl, class_of_removed he⟩⟩

theorem mem_catchSync {prev next : FilterSet} {p : List UInt8} (hp : p ∈ catchSync prev next) :
    (∃ c i d n, p = catchPayload c i d 0 n) ∨ ∃ e ∈ next.toList, p = catchFrame 1 e.2 := by
  rw [catchSync, List.mem_append, List.mem_append] at hp
  obtain (hp | hp) | hp := hp
  · obtain ⟨e, -, rfl⟩ := List.mem_map.mp hp
    exact .inl ⟨_, _, _, _, rfl⟩
  · split at hp
    · exact .inl ⟨_, _, _, _, List.mem_singleton.mp hp⟩
    · cases hp
  · obtain ⟨e, he, rfl⟩ := List.mem_map.mp hp
    exact .inr ⟨e, (added_sublist prev next).mem he, rfl⟩

/-- Frames leave no key that neither the table nor the target names. -/
theorem wire_of_mem_applyFrames {next : FilterSet} (hnext : Plain next)
    (frames : List (List UInt8)) (t : CatchTable)
    (h : ∀ p ∈ frames, (∃ c i d n, p = catchPayload c i d 0 n) ∨
      ∃ e ∈ next.toList, p = catchFrame 1 e.2) {w : CatchKey} (hw : w ∈ t.applyFrames frames) :
    w ∈ t ∨ ∃ e ∈ next.toList, wireOf e.1 = w := by
  induction frames generalizing t with
  | nil => exact .inl hw
  | cons p frames ih =>
    rw [List.forall_mem_cons] at h
    obtain hw | hw := ih _ h.2 hw
    · obtain ⟨c, i, d, n, rfl⟩ | ⟨e, he, rfl⟩ := h.1
      · exact .inl (CatchTable.mem_of_mem_applyFrame_remove hw)
      · rw [applyFrame_catchFrame_set, Std.ExtTreeMap.mem_insert,
          Std.LawfulEqCmp.compare_eq_iff_eq] at hw
        obtain hw | hw := hw
        · exact .inr ⟨e, he, (hnext.key_of_mem he).1 ▸ hw⟩
        · exact .inl hw
    · exact .inr hw

theorem wires_of_take {prev next : FilterSet} (hprev : Plain prev) (hnext : Plain next) (k : Nat)
    {w : CatchKey} {c : UInt8}
    (hw : ((tableOf prev).applyFrames ((catchSync prev next).take k))[w]? = some c) :
    (∃ e ∈ next.toList, wireOf e.1 = w) ∨ ∃ e ∈ prev.toList, wireOf e.1 = w := by
  obtain hw | hw := wire_of_mem_applyFrames hnext _ _
    (fun p hp => mem_catchSync (List.mem_of_mem_take hp)) ((BTreeMap.mem_iff _ w).mpr ⟨c, hw⟩)
  · obtain ⟨c, hc⟩ := (BTreeMap.mem_iff _ w).mp hw
    obtain ⟨e, he, hwe, -⟩ := hprev.tableOf_eq_some hc
    exact .inr ⟨e, he, hwe⟩
  · exact .inl hw

/-- After the clear the box holds the entries sent since. -/
theorem take_of_clear {k : Nat} (hclear : wildcardRemoved prev next)
    (hk : (removedEntries prev next).length < k) (t : CatchTable) :
    t.applyFrames ((catchSync prev next).take k) =
      CatchTable.applyFrames ∅ ((next.toList.take
        (k - ((removedEntries prev next).length + 1))).map fun e => catchFrame 1 e.2) := by
  obtain ⟨j, rfl⟩ := Nat.exists_eq_add_of_lt hk
  have hj : (removedEntries prev next).length + j + 1 - (removedEntries prev next).length =
      j + 1 := by omega
  have hj' : (removedEntries prev next).length + j + 1 -
      ((removedEntries prev next).length + 1) = j := by omega
  rw [catchSync_of_clear hclear, List.take_append, List.length_map, hj, hj', List.take_succ_cons,
    List.take_of_length_le (by rw [List.length_map]; omega), CatchTable.applyFrames_append,
    CatchTable.applyFrames_cons, ← List.map_take]
  rfl

theorem Plain.wire_ne_of_take_drop {set : FilterSet} (h : Plain set) {j : Nat}
    {e : FilterKey × CatchFilter} (he : e ∈ set.toList.drop j) :
    ∀ e' ∈ set.toList.take j, wireOf e'.1 ≠ wireOf e.1 := by
  intro e' he' hw
  have hn := h.nodup
  rw [← List.take_append_drop j set.toList, List.map_append, List.nodup_append] at hn
  refine hn.2.2 _ (List.mem_map_of_mem he') _ (List.mem_map_of_mem he) ?_
  rw [(h.key_of_mem (List.mem_of_mem_take he')).1, (h.key_of_mem (List.mem_of_mem_drop he)).1, hw]

section Prefix

variable {prev next : FilterSet} (hprev : Plain prev) (hnext : Plain next)
include hprev hnext

/-- Until the clear goes out, an entry both unions hold alike stays where it is. -/
theorem getElem?_take_of_common {k : Nat}
    (hk : wildcardRemoved prev next = false ∨ k ≤ (removedEntries prev next).length)
    {key : FilterKey} {had f : CatchFilter} (hhad : prev[key]? = some had)
    (hf : next[key]? = some f) (hcap : had.capture = f.capture) :
    ((tableOf prev).applyFrames ((catchSync prev next).take k))[wireOf key]? =
      some had.capture.asU8 := by
  have hadd : ∀ p ∈ (addedEntries prev next).map fun e => catchFrame 1 e.2,
      wildcardRemoved prev next = false → Misses (wireOf key) p := by
    intro p hp hkept
    obtain ⟨e, he, rfl⟩ := List.mem_map.mp hp
    obtain ⟨hmem, hne⟩ := mem_addedEntries.mp he
    obtain ⟨hek, hid⟩ := hnext.key_of_mem hmem
    refine ⟨e.2, fun hw => ?_, .inl rfl⟩
    rw [hek] at hw
    obtain rfl := wireOf_injective hid (hnext.2 _ _ hf) hw
    rw [mem_toList, hf] at hmem
    exact hne hkept had hhad (hcap.trans (congrArg _ (Option.some.inj hmem)))
  rw [applyFrames_of_misses, hprev.tableOf_of_mem hhad]
  intro p hp
  obtain hkept | hk := hk
  · rw [catchSync_of_kept hkept] at hp
    obtain hp | hp := List.mem_append.mp (List.mem_of_mem_take hp)
    · exact misses_removed hprev hnext hf hp
    · exact hadd p hp hkept
  · rw [catchSync, List.append_assoc, List.take_append_of_le_length (by rwa [List.length_map])] at hp
    exact misses_removed hprev hnext hf (List.mem_of_mem_take hp)

end Prefix

/-- A failed send and its rollback leave the table as it was unless they strand an entry. -/
theorem rollback_eq_iff {prev next : FilterSet} (hprev : Plain prev) (hnext : Plain next)
    (k : Nat) :
    ((tableOf prev).applyFrames ((catchSync prev next).take k)).applyFrames
      (catchSync next prev) = tableOf prev ↔ ¬Stranded prev next k := by
  by_cases hback : wildcardRemoved next prev
  · refine iff_of_true (applyFrames_sync_of_clear hback _) fun h => ?_
    exact absurd hback (Bool.eq_false_iff.mp h.2.1)
  · have hback := Bool.eq_false_iff.mpr hback
    rw [sync_eq_iff hnext hprev hback fun w c => wires_of_take hprev hnext k]
    have hsame : ∀ e, e ∉ addedEntries next prev ↔ (e ∈ prev.toList →
        ∃ f, next[e.1]? = some f ∧ f.capture = e.2.capture) := by
      intro e
      rw [mem_addedEntries, not_and]
      simp only [hback, forall_const, not_forall, not_not, exists_prop]
    simp only [hsame]
    by_cases hearly : wildcardRemoved prev next = false ∨ k ≤ (removedEntries prev next).length
    · refine iff_of_true (fun e he hcommon => ?_) fun h => ?_
      · obtain ⟨f, hf, hcap⟩ := hcommon he
        exact getElem?_take_of_common hprev hnext hearly (mem_toList.mp he) hf hcap.symm
      · obtain hkept | hk := hearly
        · exact absurd h.1 (Bool.eq_false_iff.mp hkept)
        · exact absurd h.2.2.1 (Nat.not_lt.mpr hk)
    · rw [not_or, Bool.not_eq_false, Nat.not_le] at hearly
      rw [take_of_clear hearly.1 hearly.2]
      have hsub := fun j => List.take_sublist j next.toList
      constructor
      · rintro h ⟨-, -, -, e, hdrop, had, hhad, hcap⟩
        have hmem := mem_toList.mp (List.mem_of_mem_drop hdrop)
        have hset := h (e.1, had) (mem_toList.mpr hhad) fun _ => ⟨e.2, hmem, hcap.symm⟩
        rw [hnext.getElem?_set_of_not_mem (hsub _) _ (hnext.wire_ne_of_take_drop hdrop)] at hset
        simp at hset
      · intro h e he hcommon
        obtain ⟨f, hf, hcap⟩ := hcommon he
        have hmem := mem_toList (e := (e.1, f)).mpr hf
        rw [← List.take_append_drop (k - ((removedEntries prev next).length + 1)) next.toList,
          List.mem_append] at hmem
        obtain hmem | hmem := hmem
        · rw [← hcap]
          exact hnext.getElem?_set_of_mem (hsub _) _ hmem
        · exact absurd ⟨hearly.1, hback, hearly.2, _, hmem, e.2, mem_toList.mp he, hcap.symm⟩ h

/-- Between calls the link's record, its union and the box's table agree, and no subscription
has the next id. -/
structure Settled (l : CatchLink) : Prop where
  fresh : ∀ s ∈ l.events.subs, s.id < l.catchGen
  desired : l.desired.catch_ = l.events.effective
  box : l.box = tableOf l.events.effective

theorem retainOthers_push {reg : CatchReg} {id : Nat} (h : ∀ s ∈ reg.subs, s.id < id)
    (filters : FilterSet) : (reg.push ⟨id, filters⟩).retainOthers id = reg := by
  unfold CatchReg.retainOthers CatchReg.push
  rw [List.filter_append, List.filter_eq_self.mpr]
  · simp
  · exact fun s hs => decide_eq_true (h s hs).ne

theorem setCatch_self {d : DesiredState} {set : FilterSet} (h : d.catch_ = set) (set' : FilterSet) :
    (d.setCatch set').setCatch set = d := by
  subst h
  rfl

section Subscribe

variable {l : CatchLink} (filters : FilterSet)

/-- The registry with the new subscription in it. -/
def joined (l : CatchLink) (filters : FilterSet) : CatchReg :=
  l.events.push ⟨l.catchGen, filters⟩

/-- A call whose `k`-th frame fails, and the rollback it makes. -/
theorem catchSubscribe_fail (h : Settled l) (hfit : (joined l filters).effective.size ≤ catchMaxEntries)
    {k : Nat} (hk : k < (catchSync l.events.effective (joined l filters).effective).length) :
    l.catchSubscribe filters (some k) =
      ({ events := l.events
         catchGen := l.catchGen + 1
         desired := l.desired
         box := (l.box.applyFrames
          ((catchSync l.events.effective (joined l filters).effective).take k)).applyFrames
            (catchSync (joined l filters).effective l.events.effective) }, .error .io) := by
  have hjoined : l.events.push ⟨l.catchGen, filters⟩ = joined l filters := rfl
  have hretain : (joined l filters).retainOthers l.catchGen = l.events :=
    retainOthers_push h.fresh filters
  simp only [CatchLink.catchSubscribe, CatchLink.sendFrames, CatchLink.detachSub, hjoined, hretain,
    if_neg (Nat.not_lt.mpr hfit), if_pos hk, setCatch_self h.desired]

theorem Settled.catchSubscribe (h : Settled l)
    (hprev : Plain l.events.effective) (hnext : Plain (joined l filters).effective)
    (hfit : (joined l filters).effective.size ≤ catchMaxEntries) :
    Settled (l.catchSubscribe filters none).1 := by
  have hjoined : l.events.push ⟨l.catchGen, filters⟩ = joined l filters := rfl
  simp only [CatchLink.catchSubscribe, CatchLink.sendFrames, hjoined,
    if_neg (Nat.not_lt.mpr hfit)]
  refine ⟨fun s hs => ?_, rfl, ?_⟩
  · obtain hs | hs := List.mem_append.mp hs
    · exact Nat.lt_succ_of_lt (h.fresh s hs)
    · rw [List.mem_singleton.mp hs]
      exact Nat.lt_succ_self _
  · exact h.box ▸ sync_tableOf hprev hnext

theorem Settled.catchUnsubscribe (h : Settled l) (id : Nat) (hprev : Plain l.events.effective)
    (hnext : Plain (l.events.retainOthers id).effective) : Settled (l.catchUnsubscribe id) where
  fresh s hs := h.fresh s (List.mem_filter.mp hs).1
  desired := rfl
  box := by
    change (l.box.applyFrames _) = _
    rw [h.box]
    exact sync_tableOf hprev hnext

end Subscribe

/-- A failed subscription leaves no trace exactly when its rollback strands no entry. -/
theorem failed_subscribe_restores_iff (l : CatchLink) (filters : FilterSet) (h : Settled l)
    (hid : ∀ f ∈ (joined l filters).all, f.id ≠ some catchIdAny)
    (hfit : (joined l filters).effective.size ≤ catchMaxEntries) {k : Nat}
    (hk : k < (catchSync l.events.effective (joined l filters).effective).length) :
    ((l.catchSubscribe filters (some k)).1.events = l.events ∧
      (l.catchSubscribe filters (some k)).1.desired = l.desired ∧
        (l.catchSubscribe filters (some k)).1.box = l.box) ↔
      ¬Stranded l.events.effective (joined l filters).effective k := by
  have hid' : ∀ f ∈ l.events.all, f.id ≠ some catchIdAny := by
    intro f hf
    refine hid f ?_
    rw [CatchReg.all, joined, CatchReg.push, List.flatMap_append]
    exact List.mem_append_left _ hf
  rw [catchSubscribe_fail filters h hfit hk, h.box,
    ← rollback_eq_iff (plain_effective hid') (plain_effective hid) k]
  simp

/-- A link whose one subscription reads everything, and what comes in once more. -/
def inboundTwice : CatchLink :=
  let events : CatchReg :=
    ⟨[⟨0, collapse [CatchFilter.everything, CatchFilter.everything.withDirection .positive]⟩]⟩
  { events
    catchGen := 1
    desired := DesiredState.default.setCatch events.effective
    box := tableOf events.effective }

def outbound : FilterSet := collapse [CatchFilter.everything.withDirection .negative]

theorem settled_inboundTwice : Settled inboundTwice := ⟨by decide, rfl, rfl⟩

theorem failed_clear_restores :
    (inboundTwice.catchSubscribe outbound (some 0)).1.events = inboundTwice.events ∧
      (inboundTwice.catchSubscribe outbound (some 0)).1.desired = inboundTwice.desired ∧
        (inboundTwice.catchSubscribe outbound (some 0)).1.box = inboundTwice.box :=
  (failed_subscribe_restores_iff inboundTwice outbound settled_inboundTwice (by decide) (by decide)
    (by decide)).mpr fun h => absurd h.2.2.1 (Nat.not_lt_zero _)

/-- The clear goes out and the entry after it does not: the box has lost everything but the
inbound entry, and no later diff sends it again. -/
theorem failed_set_strands_everything :
    ¬∀ (l : CatchLink) (filters : FilterSet) (k : Nat), Settled l →
      (∀ f ∈ (joined l filters).all, f.id ≠ some catchIdAny) →
      (joined l filters).effective.size ≤ catchMaxEntries →
      k < (catchSync l.events.effective (joined l filters).effective).length →
      (l.catchSubscribe filters (some k)).1.events = l.events ∧
        (l.catchSubscribe filters (some k)).1.desired = l.desired ∧
          (l.catchSubscribe filters (some k)).1.box = l.box := by
  intro h
  obtain ⟨-, -, hbox⟩ := h inboundTwice outbound 1 settled_inboundTwice (by decide) (by decide)
    (by decide)
  have hrow := congrArg (fun t : CatchTable => t[wireOf CatchFilter.everything.key]?) hbox
  exact absurd hrow (by decide)

end Medius.Catch
