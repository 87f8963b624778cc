import Medius.Locks.BoxLaws
import Medius.Locks.HostLaws

/-! Replaying `heldLocks` into a fresh table gives the table the host's rows describe. -/

namespace Medius.Locks

open Protocol Link Mock

variable {n : Nat} {d : DesiredState}

/-- The granular media usages the host holds. -/
def heldMedia (d : DesiredState) : List UInt16 :=
  (d.locks.keys.filter fun k => isMediaSlot k.1 k.2).map Prod.snd

def replay (n : UInt8) (cs : List Command) : LockTable := cs.foldl (applyCommand n) .default

/-- One block of commands for each row the replay rebuilds. -/
def blocks (d : DesiredState) : List (Address × List (UInt8 × Int16)) :=
  d.sortedRows.flatMap fun r =>
    (d.rowIds r.1.1 r.1.2).map fun id => ((r.1.1, id), r.2.commands)

def toWrite (c : Command) : Address × (UInt8 × Int16) := ((c.1.1, c.1.2.1), (c.1.2.2, c.2))

theorem mem_heldMedia (h : NoClear d) (id : UInt16) :
    id ∈ heldMedia d ↔ id ≠ lockIdAll ∧ hostRow d (lockClsMedia, id) ≠ Slots.default := by
  rw [← mem_locks_iff h]
  simp only [heldMedia, isMediaSlot, List.mem_map, List.mem_filter, Std.ExtTreeMap.mem_keys,
    Bool.and_eq_true, decide_eq_true_eq]
  constructor
  · rintro ⟨⟨class_, id'⟩, ⟨hm, rfl, hid⟩, rfl⟩
    exact ⟨hid, hm⟩
  · rintro ⟨hid, hm⟩
    exact ⟨(lockClsMedia, id), ⟨hm, rfl, hid⟩, rfl⟩

theorem map_toWrite_heldLocks (d : DesiredState) :
    d.heldLocks.map toWrite = Writes.emit (blocks d) := by
  simp only [DesiredState.heldLocks, blocks, Writes.emit, List.map_flatMap, List.flatMap_assoc,
    List.flatMap_map, List.map_map]
  rfl

theorem mem_sortedRows (k : Address) (r : Slots) :
    (k, r) ∈ d.sortedRows ↔ d.locks[k]? = some r := by
  rw [DesiredState.sortedRows, List.mem_insertionSort]
  exact Std.ExtTreeMap.mem_toList_iff_getElem?_eq_some

theorem sortedRows_keys_nodup (d : DesiredState) : (d.sortedRows.map Prod.fst).Nodup := by
  have hperm := (List.perm_insertionSort d.rowLe d.locks.toList).map Prod.fst
  rw [DesiredState.sortedRows, hperm.nodup_iff, Std.ExtTreeMap.map_fst_toList_eq_keys]
  exact Std.ExtTreeMap.nodup_keys

theorem RowsWf.hostRow_of_held (hwf : RowsWf n d) {k : Address} {r : Slots}
    (h : d.locks[k]? = some r) : hostRow d k = r ∧ r ≠ Slots.default := by
  refine ⟨by rw [hostRow_eq, h]; rfl, fun hd => hwf.no_clear k (hd ▸ h)⟩

theorem RowsWf.rowIds_blanket (hwf : RowsWf n d) (id : UInt16) :
    id ∈ d.rowIds lockClsBtn lockIdAll ↔ (lockClsBtn, id) ∈ buttonAddresses n := by
  rw [DesiredState.rowIds, if_pos ⟨rfl, rfl⟩, ← buttonIds_eq hwf.count]
  simp

theorem rowIds_single {k : Address} (hk : k ≠ blanketAddress) : d.rowIds k.1 k.2 = [k.2] :=
  if_neg fun h => hk (Prod.ext h.1 h.2)

/-- What the replay writes at an address is the row the host means there. -/
theorem RowsWf.hostRows_of_block (hwf : RowsWf n d) (hn : n ≤ 16) {k : Address} {r : Slots}
    {id : UInt16} (h : d.locks[k]? = some r) (hid : id ∈ d.rowIds k.1 k.2) :
    hostRows d (k.1, id) = r := by
  obtain ⟨hrow, hr⟩ := hwf.hostRow_of_held h
  by_cases hk : k = blanketAddress
  · subst hk
    have hm := (hwf.rowIds_blanket id).mp hid
    have hne : (lockClsBtn, id) ≠ blanketAddress := by
      intro h
      rw [h] at hm
      exact blanket_not_mem_buttonAddresses hn hm
    rw [hostRows, hwf.count, if_neg hne, hrow, if_pos ⟨hm, hr⟩]
  · rw [rowIds_single hk, List.mem_singleton] at hid
    subst hid
    change hostRows d k = r
    rw [hostRows, if_neg hk, hwf.count]
    by_cases hb : k ∈ buttonAddresses n ∧ hostRow d blanketAddress ≠ Slots.default
    · have hcls := ((mem_buttonAddresses hn k).mp hb.1).1
      have hid : k.2 ≠ lockIdAll := fun h => hk (Prod.ext hcls h)
      have halone := hwf.blanket_alone hb.2 k.2 hid
      rw [← hcls] at halone
      exact absurd (hrow.symm.trans halone) hr
    · rw [if_neg hb, hrow]

theorem RowsWf.hostRows_of_no_block (hwf : RowsWf n d) (hn : n ≤ 16) {a : Address}
    (h : ∀ (k : Address) (r : Slots), d.locks[k]? = some r → k.1 = a.1 → a.2 ∉ d.rowIds k.1 k.2) :
    hostRows d a = Slots.default := by
  unfold hostRows
  by_cases ha : a = blanketAddress
  · rw [if_pos ha]
  · rw [if_neg ha, hwf.count]
    by_cases hb : a ∈ buttonAddresses n ∧ hostRow d blanketAddress ≠ Slots.default
    · obtain ⟨r, hr⟩ := (BTreeMap.mem_iff _ _).mp ((mem_locks_iff hwf.no_clear _).mpr hb.2)
      have hcls := ((mem_buttonAddresses hn a).mp hb.1).1
      refine absurd ((hwf.rowIds_blanket a.2).mpr ?_) (h _ r hr hcls.symm)
      rw [← hcls]
      exact hb.1
    · rw [if_neg hb]
      by_contra hr
      obtain ⟨r, hr⟩ := (BTreeMap.mem_iff _ _).mp ((mem_locks_iff hwf.no_clear _).mpr hr)
      exact h a r hr rfl (by rw [rowIds_single ha]; exact List.mem_singleton_self _)

theorem RowsWf.blanket_excludes (hwf : RowsWf n d) {k : Address} {r r' : Slots}
    (h : d.locks[blanketAddress]? = some r) (h' : d.locks[k]? = some r')
    (hcls : k.1 = lockClsBtn) : k = blanketAddress := by
  by_contra hk
  obtain ⟨hb, hr⟩ := hwf.hostRow_of_held h
  obtain ⟨hg, hr'⟩ := hwf.hostRow_of_held h'
  have halone := hwf.blanket_alone (hb ▸ hr) k.2 fun h => hk (Prod.ext hcls h)
  rw [← hcls] at halone
  exact hr' (hg.symm.trans halone)

/-- No two held rows rebuild one address. -/
theorem RowsWf.rowIds_disjoint (hwf : RowsWf n d) {k k' : Address} {r r' : Slots} {id : UInt16}
    (h : d.locks[k]? = some r) (h' : d.locks[k']? = some r') (hcls : k.1 = k'.1)
    (hid : id ∈ d.rowIds k.1 k.2) (hid' : id ∈ d.rowIds k'.1 k'.2) : k = k' := by
  by_cases hk : k = blanketAddress
  · subst hk
    exact (hwf.blanket_excludes h h' hcls.symm).symm
  · by_cases hk' : k' = blanketAddress
    · subst hk'
      exact hwf.blanket_excludes h' h hcls
    · rw [rowIds_single hk, List.mem_singleton] at hid
      rw [rowIds_single hk', List.mem_singleton] at hid'
      exact Prod.ext hcls (hid.symm.trans hid')

theorem mem_blocks (a : Address) (cs : List (UInt8 × Int16)) :
    (a, cs) ∈ blocks d ↔
      ∃ (k : Address) (r : Slots), d.locks[k]? = some r ∧ a.1 = k.1 ∧ a.2 ∈ d.rowIds k.1 k.2 ∧ cs = r.commands := by
  simp only [blocks, List.mem_flatMap, List.mem_map, Prod.exists, mem_sortedRows, Prod.mk.injEq]
  constructor
  · rintro ⟨c, i, r, hr, id, hid, rfl, rfl⟩
    exact ⟨c, i, r, hr, rfl, hid, rfl⟩
  · rintro ⟨c, i, r, hr, hc, hid, rfl⟩
    exact ⟨c, i, r, hr, a.2, hid, Prod.ext hc.symm rfl, rfl⟩

theorem RowsWf.blocks_nodup (hwf : RowsWf n d) (hn : n ≤ 16) : ((blocks d).map Prod.fst).Nodup := by
  have hfst : (blocks d).map Prod.fst =
      d.sortedRows.flatMap fun r => (d.rowIds r.1.1 r.1.2).map fun id => (r.1.1, id) := by
    simp [blocks, List.map_flatMap, List.map_map, Function.comp_def]
  rw [hfst, List.nodup_flatMap]
  constructor
  · rintro ⟨k, r⟩ -
    refine List.Nodup.map (fun i j h => (Prod.mk.inj h).2) ?_
    unfold DesiredState.rowIds
    split
    · have hnd := buttonAddresses_nodup hn
      rw [← buttonIds_eq hwf.count] at hnd
      exact hnd.of_map _
    · exact List.nodup_singleton _
  · have hkeys := sortedRows_keys_nodup d
    rw [List.Nodup, List.pairwise_map] at hkeys
    refine hkeys.imp_of_mem ?_
    rintro ⟨k, r⟩ ⟨k', r'⟩ hm hm' hne a ha ha'
    rw [mem_sortedRows] at hm hm'
    simp only [List.mem_map] at ha ha'
    obtain ⟨id, hid, rfl⟩ := ha
    obtain ⟨id', hid', heq⟩ := ha'
    obtain ⟨hcls, rfl⟩ := Prod.mk.inj heq
    exact hne (hwf.rowIds_disjoint hm hm' hcls.symm hid hid')

theorem RowsWf.writeAll_blocks (hwf : RowsWf n d) (hn : n ≤ 16) :
    Writes.writeAll act Rows.clear (Writes.emit (blocks d)) = hostRows d := by
  funext a
  by_cases ha : a ∈ (blocks d).map Prod.fst
  · obtain ⟨⟨a, cs⟩, hb, rfl⟩ := List.mem_map.mp ha
    obtain ⟨k, r, hr, hcls, hid, rfl⟩ := (mem_blocks a cs).mp hb
    rw [Writes.writeAll_emit_of_mem act _ _ _ (hwf.blocks_nodup hn) hb]
    have hrow := hwf.hostRows_of_block hn hr hid
    rw [← hcls] at hrow
    exact (Slots.commands_rebuild r).trans hrow.symm
  · rw [Writes.writeAll_emit_of_not_mem _ _ _ _ ha]
    refine (hwf.hostRows_of_no_block hn fun k r hr hcls hid => ha ?_).symm
    exact List.mem_map_of_mem ((mem_blocks a r.commands).mpr ⟨k, r, hr, hcls.symm, hid, rfl⟩)

theorem slotDirs_direction (i : Fin 4) : ∃ dir : Types.Direction, slotDirs i = dir.asU8 ∧
    (dir.isRelative = true → i = 2 ∨ i = 3) := by
  fin_cases i
  · exact ⟨.positive, rfl, nofun⟩
  · exact ⟨.negative, rfl, nofun⟩
  · exact ⟨.with_, rfl, fun _ => .inl rfl⟩
  · exact ⟨.against, rfl, fun _ => .inr rfl⟩

/-- A rebuilding command writes one slot's own scale, or both edges at once. -/
theorem mem_commands {r : Slots} {c : UInt8 × Int16} (h : c ∈ r.commands) :
    (c = (Types.Direction.both.asU8, r 0)) ∨
      (∃ i, c = (slotDirs i, r i) ∧ r i ≠ lockScalePass) ∧
        ¬(r 0 = r 1 ∧ r 2 = lockScalePass ∧ r 3 = lockScalePass) := by
  unfold Slots.commands at h
  split at h
  next =>
    split at h
    · cases h
    · exact .inl (List.mem_singleton.mp h)
  next hne =>
    obtain ⟨i, hi, rfl⟩ := List.mem_map.mp h
    exact .inr ⟨⟨i, rfl, by simpa using (List.mem_filter.mp hi).2⟩, hne⟩

theorem commands_direction {r : Slots} {c : UInt8 × Int16} (h : c ∈ r.commands) :
    ∃ dir : Types.Direction, c.1 = dir.asU8 := by
  obtain rfl | ⟨⟨i, rfl, -⟩, -⟩ := mem_commands h
  · exact ⟨.both, rfl⟩
  · obtain ⟨dir, hdir, -⟩ := slotDirs_direction i
    exact ⟨dir, hdir⟩

theorem Momentary.commands {r : Slots} (hr : Momentary r) {c : UInt8 × Int16}
    (h : c ∈ r.commands) : ∃ dir : Types.Direction, c.1 = dir.asU8 ∧ dir.isRelative = false ∧
      (c.2 = lockScaleBlock ∨ c.2 = lockScalePass) ∧ (r 0 = r 1 → dir = .both) := by
  obtain rfl | ⟨⟨i, rfl, hi⟩, hne⟩ := mem_commands h
  · exact ⟨.both, rfl, rfl, hr.one_bit 0, fun _ => rfl⟩
  · obtain ⟨dir, hdir, hrel⟩ := slotDirs_direction i
    refine ⟨dir, hdir, ?_, hr.one_bit i, fun heq => absurd ⟨heq, hr.no_bearing⟩ hne⟩
    cases hb : dir.isRelative with
    | false => rfl
    | true =>
      obtain rfl | rfl := hrel hb
      · exact absurd hr.no_bearing.1 hi
      · exact absurd hr.no_bearing.2 hi

theorem one_bit_nonneg {scale : Int16} (h : scale = lockScaleBlock ∨ scale = lockScalePass) :
    0 ≤ scale := by
  obtain rfl | rfl := h <;> decide

theorem momentaryScale_of_one_bit (class_ : UInt8) {scale : Int16}
    (h : scale = lockScaleBlock ∨ scale = lockScalePass) : momentaryScale class_ scale = scale := by
  unfold momentaryScale
  split
  · rfl
  · obtain rfl | rfl := h <;> decide

/-- Every replayed command is one `sendLock` would let through, and names one row. -/
theorem RowsWf.accepted_of_row {m : Nat} (hwf : RowsWf m d) (hm : m ≤ 16)
    (hdecl : DeclaredLocks n d) {k : Address} {r : Slots} (h : d.locks[k]? = some r) {id : UInt16}
    (hid : id ∈ d.rowIds k.1 k.2) {c : UInt8 × Int16} (hc : c ∈ r.commands) :
    Accepted n ((k.1, id, c.1), c.2) ∧ momentaryScale k.1 c.2 = c.2 := by
  obtain ⟨hrow, hr⟩ := hwf.hostRow_of_held h
  obtain ⟨f, hf, haddress⟩ := hdecl (k.1, id) (by rwa [hwf.hostRows_of_block hm h hid])
  obtain ⟨hcls, rfl⟩ := Prod.mk.inj haddress
  have hshape : RowShape k r := hrow ▸ hwf.shape k
  rw [hcls]
  by_cases haxis : f.address.1 = lockClsAxis
  · obtain ⟨dir, hdir⟩ := commands_direction hc
    rw [hdir]
    refine ⟨?_, if_pos haxis⟩
    cases f with
    | axis a => exact .axis a dir c.2
    | button => exact absurd (show lockClsBtn = lockClsAxis from haxis) (by decide)
    | keys | key => exact absurd (show lockClsKey = lockClsAxis from haxis) (by decide)
    | mediaAll | media => exact absurd (show lockClsMedia = lockClsAxis from haxis) (by decide)
  · obtain ⟨dir, hdir, hrel, hbit, hboth⟩ := (hshape.momentary (hcls ▸ haxis)).commands hc
    have hs := one_bit_nonneg hbit
    rw [hdir]
    refine ⟨?_, momentaryScale_of_one_bit _ hbit⟩
    cases f with
    | axis a => exact absurd rfl haxis
    | button b => exact .button hf hrel hs
    | keys => exact .keys hrel hs
    | key u => exact .key hf hrel hs
    | mediaAll =>
      obtain rfl := hboth (hshape.media hcls)
      exact .mediaAll hs
    | media m =>
      obtain rfl := hboth (hshape.media hcls)
      exact .media hs

theorem mem_heldLocks (c : Command) :
    c ∈ d.heldLocks ↔ ∃ (k : Address) (r : Slots), d.locks[k]? = some r ∧ c.1.1 = k.1 ∧
      c.1.2.1 ∈ d.rowIds k.1 k.2 ∧ (c.1.2.2, c.2) ∈ r.commands := by
  obtain ⟨⟨class_, id, dir⟩, scale⟩ := c
  simp only [DesiredState.heldLocks, List.mem_flatMap, List.mem_map, Prod.exists, mem_sortedRows,
    Prod.mk.injEq]
  constructor
  · rintro ⟨c, i, r, hr, j, hj, dir', scale', hc, ⟨rfl, rfl, rfl⟩, rfl⟩
    exact ⟨c, i, r, hr, rfl, hj, hc⟩
  · rintro ⟨c, i, r, hr, rfl, hid, hc⟩
    exact ⟨class_, i, r, hr, id, hid, dir, scale, hc, ⟨rfl, rfl, rfl⟩, rfl⟩

theorem RowsWf.rowIds_ne_blanket (hwf : RowsWf n d) (hn : n ≤ 16) {k : Address} {id : UInt16}
    (hid : id ∈ d.rowIds k.1 k.2) : (k.1, id) ≠ blanketAddress := by
  intro he
  by_cases hk : k = blanketAddress
  · subst hk
    have hm := (hwf.rowIds_blanket id).mp hid
    rw [he] at hm
    exact blanket_not_mem_buttonAddresses hn hm
  · rw [rowIds_single hk, List.mem_singleton] at hid
    subst hid
    exact hk he

theorem RowsWf.rowWrites_heldLocks {m : Nat} (hwf : RowsWf m d) (hm : m ≤ 16)
    (hdecl : DeclaredLocks n d) : d.heldLocks.flatMap (rowWrites n) = Writes.emit (blocks d) := by
  rw [← map_toWrite_heldLocks, List.map_eq_flatMap]
  refine List.flatMap_congr fun c hc => ?_
  obtain ⟨k, r, hr, hcls, hid, hcmd⟩ := (mem_heldLocks c).mp hc
  have hne := hwf.rowIds_ne_blanket hm hid
  have hscale := (hwf.accepted_of_row hm hdecl hr hid hcmd).2
  rw [← hcls] at hne hscale
  rw [rowWrites, if_neg (fun h => hne (Prod.ext h.1 h.2)), hscale]
  rfl

theorem RowsWf.accepted_heldLocks {m : Nat} (hwf : RowsWf m d) (hm : m ≤ 16)
    (hdecl : DeclaredLocks n d) {c : Command} (hc : c ∈ d.heldLocks) : Accepted n c := by
  obtain ⟨k, r, hr, hcls, hid, hcmd⟩ := (mem_heldLocks c).mp hc
  have hacc := (hwf.accepted_of_row hm hdecl hr hid hcmd).1
  rw [← hcls] at hacc
  exact hacc

theorem HostWf.media_heldLocks (hwf : HostWf n d) {c : Command} (hc : c ∈ d.heldLocks)
    (hcls : c.1.1 = lockClsMedia) (hid : c.1.2.1 ≠ lockIdAll) : c.1.2.1 ∈ heldMedia d := by
  obtain ⟨k, r, hr, hk, hrow, -⟩ := (mem_heldLocks c).mp hc
  have hkcls : k.1 = lockClsMedia := hk.symm.trans hcls
  have hne : k ≠ blanketAddress := by
    rintro rfl
    exact absurd (show lockClsBtn = lockClsMedia from hkcls) (by decide)
  rw [rowIds_single hne, List.mem_singleton] at hrow
  obtain ⟨heq, hr⟩ := hwf.rows.hostRow_of_held hr
  refine (mem_heldMedia hwf.no_clear _).mpr ⟨hid, ?_⟩
  rw [hrow, ← hkcls]
  exact heq ▸ hr

/-- Rows that hold no more media than the box has slots leave room for one of them. -/
theorem Agree.room {W : Rows} {t : LockTable} {c : Command} {M : List UInt16} (h : Agree W t)
    (hwf : BoxWf t) (hM : M.length ≤ mediaLockMax)
    (hW : ∀ m : MediaId, W (lockClsMedia, m.val) ≠ Slots.default → m.val ∈ M)
    (hc : c.1.1 = lockClsMedia → c.1.2.1 ≠ lockIdAll → c.1.2.1 ∈ M) : Room t c := by
  intro hcls hid _
  by_cases hm : c.1.2.1 ∈ t.media
  · exact .inl hm
  · refine .inr (SlotArray.free_of_length_le hwf.media_nodup (hwf.media_length ▸ hM) ?_
      (hc hcls hid) hm)
    intro b hb hb0
    have hball : b ≠ lockIdAll := fun h => hwf.media_granular (h ▸ hb)
    refine hW ⟨b, hb0, hball⟩ ?_
    have hrow : boxRow t (.media ⟨b, hb0, hball⟩) = W (lockClsMedia, b) := h _
    rw [← hrow]
    simp only [boxRow, List.contains_eq_mem, hb, decide_true]
    decide

/-- A run of accepted commands that name no more media than the box has slots. -/
theorem Agree.replay {n : UInt8} (hn : n ≤ maxButtons) {M : List UInt16}
    (hM : M.length ≤ mediaLockMax) (cs : List Command) {W : Rows} {t : LockTable}
    (hcs : ∀ c ∈ cs, Accepted n.toNat c)
    (hmedia : ∀ c ∈ cs, c.1.1 = lockClsMedia → c.1.2.1 ≠ lockIdAll → c.1.2.1 ∈ M)
    (hW : ∀ m : MediaId, W (lockClsMedia, m.val) ≠ Slots.default → m.val ∈ M)
    (hwf : BoxWf t) (h : Agree W t) :
    Agree (Writes.writeAll act W (cs.flatMap (rowWrites n.toNat))) (cs.foldl (applyCommand n) t) ∧
      BoxWf (cs.foldl (applyCommand n) t) := by
  induction cs generalizing W t with
  | nil => exact ⟨h, hwf⟩
  | cons c cs ih =>
    have hc := hcs c List.mem_cons_self
    have hroom := h.room hwf hM hW (hmedia c List.mem_cons_self)
    rw [List.flatMap_cons, Writes.writeAll_append, List.foldl_cons]
    refine ih (fun c hc => hcs c (List.mem_cons_of_mem _ hc))
      (fun c hc => hmedia c (List.mem_cons_of_mem _ hc)) ?_ (hwf.apply hn hc hroom)
      (h.apply hn hwf hc hroom)
    intro m hm
    by_cases hb : c.1.1 = lockClsBtn ∧ c.1.2.1 = lockIdAll
    · rw [writeAll_rowWrites_blanket (UInt8.le_iff_toNat_le.mp hn) _ _ hb, if_neg] at hm
      · exact hW m hm
      · intro hmem
        have := ((mem_buttonAddresses (UInt8.le_iff_toNat_le.mp hn) _).mp hmem).1
        exact absurd (show lockClsMedia = lockClsBtn from this) (by decide)
    · rw [writeAll_rowWrites_single _ _ _ hb] at hm
      by_cases ha : (lockClsMedia, m.val) = (c.1.1, c.1.2.1)
      · obtain ⟨hcls, hid⟩ := Prod.mk.inj ha
        rw [hid]
        exact hmedia c List.mem_cons_self hcls.symm (hid ▸ m.property.2)
      · rw [if_neg ha] at hm
        exact hW m hm

theorem Agree.clear : Agree Rows.clear .default := by
  intro f
  cases f with
  | axis | button => rfl
  | keys | mediaAll => decide
  | key u => exact (by decide : edges false false = Slots.default)
  | media id =>
    have : (List.replicate mediaLockMax (0 : UInt16)).contains id.val = false := by
      simp [id.property.1]
    simp only [boxRow, LockTable.default, this]
    exact (by decide : edges false false = Slots.default)

/-- A replay rebuilds what the host's rows describe. -/
theorem HostWf.agree_replay {n : UInt8} (hn : n ≤ maxButtons) (hwf : HostWf n.toNat d)
    (hmedia : (heldMedia d).length ≤ mediaLockMax) :
    Agree (hostRows d) (replay n d.heldLocks) ∧ BoxWf (replay n d.heldLocks) := by
  have hn16 := UInt8.le_iff_toNat_le.mp hn
  have hdecl := hwf.declaredLocks hn16
  have h := Agree.clear.replay hn hmedia d.heldLocks
    (fun c hc => hwf.rows.accepted_heldLocks hn16 hdecl hc) (fun c hc => hwf.media_heldLocks hc)
    (fun m hm => absurd rfl hm) BoxWf.default
  rw [hwf.rows.rowWrites_heldLocks hn16 hdecl, hwf.rows.writeAll_blocks hn16] at h
  exact h

end Medius.Locks
