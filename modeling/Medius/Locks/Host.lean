import Medius.Locks.Rows

namespace Medius.Locks

open Protocol Link

variable {n : Nat} {d : DesiredState} {c : Command}

abbrev blanketAddress : Address := (lockClsBtn, lockIdAll)

/-- The row the host holds at an address, pass where it holds none. -/
def hostRow (d : DesiredState) (a : Address) : Slots := d.locks.getD a Slots.default

/-- The host's rows as the box would hold them: an unexpanded button blanket stands for every
declared button. -/
def hostRows (d : DesiredState) : Rows := fun a =>
  if a = blanketAddress then Slots.default
  else if a ∈ buttonAddresses d.buttonCount.toNat ∧ hostRow d blanketAddress ≠ Slots.default then
    hostRow d blanketAddress
  else hostRow d a

/-- What the commands may name: a declared button, a key past the reserved usages. -/
def Field.Declared (n : Nat) : Field → Prop
  | .button b => b.val < n
  | .key u => 0x04 ≤ u
  | _ => True

def Addressable (n : Nat) (a : Address) : Prop :=
  a = blanketAddress ∨ ∃ f : Field, f.Declared n ∧ a = f.address

structure RowShape (a : Address) (r : Slots) : Prop where
  momentary : a.1 ≠ lockClsAxis → Momentary r
  media : a.1 = lockClsMedia → r 0 = r 1

/-- A row with every slot at pass is dropped. -/
def NoClear (d : DesiredState) : Prop := ∀ a : Address, d.locks[a]? ≠ some Slots.default

structure HostWf (n : Nat) (d : DesiredState) : Prop where
  count : d.buttonCount.toNat = n
  no_clear : NoClear d
  shape : ∀ a, RowShape a (hostRow d a)
  addressable : ∀ a, hostRow d a ≠ Slots.default → Addressable n a
  blanket_alone : hostRow d blanketAddress ≠ Slots.default →
    ∀ id, id ≠ lockIdAll → hostRow d (lockClsBtn, id) = Slots.default

/-- What holds of the rows whatever ids they are of. -/
structure RowsWf (n : Nat) (d : DesiredState) : Prop where
  count : d.buttonCount.toNat = n
  no_clear : NoClear d
  shape : ∀ a, RowShape a (hostRow d a)
  blanket_alone : hostRow d blanketAddress ≠ Slots.default →
    ∀ id, id ≠ lockIdAll → hostRow d (lockClsBtn, id) = Slots.default

theorem HostWf.rows (hwf : HostWf n d) : RowsWf n d where
  count := hwf.count
  no_clear := hwf.no_clear
  shape := hwf.shape
  blanket_alone := hwf.blanket_alone

/-- Every row the host means is one a device with `n` buttons has. -/
def DeclaredLocks (n : Nat) (d : DesiredState) : Prop :=
  ∀ a, hostRows d a ≠ Slots.default → ∃ f : Field, f.Declared n ∧ a = f.address

theorem HostWf.declaredLocks (hwf : HostWf n d) (hn : n ≤ 16) : DeclaredLocks n d := by
  intro a ha
  unfold hostRows at ha
  split at ha
  · exact absurd rfl ha
  next hblanket =>
    split at ha
    next hm =>
      rw [hwf.count] at hm
      obtain ⟨b, hb, rfl⟩ := List.mem_map.mp hm.1
      have hb := List.mem_range.mp hb
      exact ⟨.button ⟨b, Nat.lt_of_lt_of_le hb hn⟩, hb, rfl⟩
    next => exact (hwf.addressable a ha).resolve_left hblanket

theorem hostRow_eq (d : DesiredState) (a : Address) :
    hostRow d a = d.locks[a]?.getD Slots.default :=
  Std.ExtTreeMap.getD_eq_getD_getElem?

theorem hostRow_eq_default_iff (h : NoClear d) (a : Address) :
    hostRow d a = Slots.default ↔ d.locks[a]? = none := by
  rw [hostRow_eq]
  cases hr : d.locks[a]? with
  | none => simp
  | some r =>
    have : r ≠ Slots.default := fun hd => h a (hd ▸ hr)
    simpa using this

theorem mem_locks_iff (h : NoClear d) (a : Address) :
    a ∈ d.locks ↔ hostRow d a ≠ Slots.default := by
  rw [ne_eq, hostRow_eq_default_iff h, ← Std.ExtTreeMap.isSome_getElem?_iff_mem,
    Option.isSome_iff_ne_none]

section writeLockRow

variable (d) (class_ : UInt8) (id : UInt16) (dir : UInt8) (scale : Int16) (u : LockUndo)

theorem getElem?_writeLockRow (a : Address) :
    (d.writeLockRow class_ id dir scale u).1.locks[a]? =
      if (class_, id) = a then
        (if (hostRow d a).write dir scale = Slots.default then none
          else some ((hostRow d a).write dir scale))
      else d.locks[a]? := by
  unfold DesiredState.writeLockRow
  simp only [Slots.isClear_iff, show ∀ k, d.locks.getD k Slots.default = hostRow d k from fun _ => rfl]
  by_cases ha : (class_, id) = a
  · subst ha
    by_cases hr : (hostRow d (class_, id)).write dir scale = Slots.default
    · rw [if_pos hr, if_pos rfl, if_pos hr, BTreeMap.getElem?_erase, if_pos rfl]
    · rw [if_neg hr, if_pos rfl, if_neg hr, BTreeMap.getElem?_insert, if_pos rfl]
  · rw [if_neg ha]
    split
    · rw [BTreeMap.getElem?_erase, if_neg ha]
    · rw [BTreeMap.getElem?_insert, if_neg ha]

theorem hostRow_writeLockRow (a : Address) :
    hostRow (d.writeLockRow class_ id dir scale u).1 a =
      if (class_, id) = a then (hostRow d a).write dir scale else hostRow d a := by
  rw [hostRow_eq, getElem?_writeLockRow]
  split
  · split
    next h => exact h.symm
    next => rfl
  · exact (hostRow_eq d a).symm

theorem no_clear_writeLockRow (h : NoClear d) : NoClear (d.writeLockRow class_ id dir scale u).1 := by
  intro a
  rw [getElem?_writeLockRow]
  split
  · split
    · nofun
    next hr => simpa using hr
  · exact h a

theorem buttonCount_writeLockRow :
    (d.writeLockRow class_ id dir scale u).1.buttonCount = d.buttonCount := by
  unfold DesiredState.writeLockRow
  simp only
  split <;> rfl

end writeLockRow

theorem mem_buttonRowKeys (a : Address) :
    a ∈ d.buttonRowKeys ↔ a ∈ d.locks ∧ a.1 = lockClsBtn ∧ a.2 ≠ lockIdAll := by
  simp [DesiredState.buttonRowKeys]

theorem getElem?_clearButtonRows (u : LockUndo) (a : Address) :
    (d.clearButtonRows u).1.locks[a]? =
      if a.1 = lockClsBtn ∧ a.2 ≠ lockIdAll then none else d.locks[a]? := by
  rw [DesiredState.clearButtonRows, BTreeMap.getElem?_foldl_erase]
  simp only [mem_buttonRowKeys]
  by_cases hb : a.1 = lockClsBtn ∧ a.2 ≠ lockIdAll
  · by_cases hm : a ∈ d.locks
    · rw [if_pos ⟨hm, hb⟩, if_pos hb]
    · rw [if_neg (fun h => hm h.1), if_pos hb]
      exact Std.ExtTreeMap.getElem?_eq_none hm
  · rw [if_neg (fun h => hb h.2), if_neg hb]

theorem hostRow_clearButtonRows (u : LockUndo) (a : Address) :
    hostRow (d.clearButtonRows u).1 a =
      if a.1 = lockClsBtn ∧ a.2 ≠ lockIdAll then Slots.default else hostRow d a := by
  rw [hostRow_eq, getElem?_clearButtonRows]
  split
  · rfl
  · exact (hostRow_eq d a).symm

theorem buttonIds_eq (hc : d.buttonCount.toNat = n) :
    (d.buttonIds.map fun b => (lockClsBtn, b)) = buttonAddresses n := by
  simp [DesiredState.buttonIds, buttonAddresses, hc]

theorem getElem?_burstButtonBlanket (hc : d.buttonCount.toNat = n) {r : Slots}
    (hr : d.locks[blanketAddress]? = some r) (u : LockUndo) (a : Address) :
    (d.burstButtonBlanket u).1.locks[a]? =
      if blanketAddress = a then none
      else d.locks[a]?.or (if a ∈ buttonAddresses n then some r else none) := by
  unfold DesiredState.burstButtonBlanket
  simp only [hr]
  rw [BTreeMap.getElem?_erase, BTreeMap.getElem?_foldl_insertVacant, buttonIds_eq hc]
  by_cases ha : a ∈ buttonAddresses n
  · simp only [if_pos ha, blanketAddress]
  · simp only [if_neg ha, blanketAddress]

theorem hostRow_burstButtonBlanket (hwf : RowsWf n d) (hn : n ≤ 16)
    (hb : hostRow d blanketAddress ≠ Slots.default) (u : LockUndo) (a : Address) :
    hostRow (d.burstButtonBlanket u).1 a =
      if a = blanketAddress then Slots.default
      else if a ∈ buttonAddresses n then hostRow d blanketAddress else hostRow d a := by
  obtain ⟨r, hr⟩ := (BTreeMap.mem_iff _ _).mp ((mem_locks_iff hwf.no_clear _).mpr hb)
  have hrow : hostRow d blanketAddress = r := by rw [hostRow_eq, hr]; rfl
  rw [hostRow_eq, getElem?_burstButtonBlanket hwf.count hr, hrow]
  by_cases ha : a = blanketAddress
  · rw [if_pos ha.symm, if_pos ha]
    rfl
  · rw [if_neg (Ne.symm ha), if_neg ha]
    by_cases hm : a ∈ buttonAddresses n
    · have hnone : d.locks[a]? = none := by
        obtain ⟨hcls, hlt⟩ := (mem_buttonAddresses hn a).mp hm
        have hid : a.2 ≠ lockIdAll := fun h => ha (Prod.ext hcls h)
        have := hwf.blanket_alone hb a.2 hid
        rwa [← hcls, hostRow_eq_default_iff hwf.no_clear] at this
      rw [if_pos hm, if_pos hm, hnone]
      rfl
    · rw [if_neg hm, if_neg hm, Option.or_none]
      exact (hostRow_eq d a).symm

theorem no_clear_clearButtonRows (h : NoClear d) (u : LockUndo) : NoClear (d.clearButtonRows u).1 := by
  intro a
  rw [getElem?_clearButtonRows]
  split
  · nofun
  · exact h a

theorem no_clear_burstButtonBlanket (h : NoClear d) (hc : d.buttonCount.toNat = n)
    (u : LockUndo) : NoClear (d.burstButtonBlanket u).1 := by
  cases hr : d.locks[blanketAddress]? with
  | none =>
    have : (d.burstButtonBlanket u).1 = d := by
      unfold DesiredState.burstButtonBlanket
      simp only [hr]
    rwa [this]
  | some r =>
    intro a
    rw [getElem?_burstButtonBlanket hc hr]
    have hrd : r ≠ Slots.default := fun hd => h blanketAddress (hd ▸ hr)
    split
    · nofun
    · cases ha : d.locks[a]? with
      | none => split <;> simp [hrd]
      | some s => simpa [ha] using h a

theorem hostRow_applyLock_blanket (d : DesiredState) (dir : UInt8) (scale : Int16) (a : Address) :
    hostRow (d.applyLock (lockClsBtn, lockIdAll, dir) scale).1 a =
      if a = blanketAddress then (hostRow d a).write dir (momentaryScale lockClsBtn scale)
      else if a.1 = lockClsBtn then Slots.default
      else hostRow d a := by
  simp only [DesiredState.applyLock, and_self, if_true]
  rw [hostRow_writeLockRow, hostRow_clearButtonRows]
  by_cases ha : a = blanketAddress
  · subst ha
    rw [if_pos rfl, if_neg (fun h => h.2 rfl), if_pos rfl]
  · rw [if_neg (Ne.symm ha), if_neg ha]
    by_cases hb : a.1 = lockClsBtn
    · rw [if_pos ⟨hb, fun h => ha (Prod.ext hb h)⟩, if_pos hb]
    · rw [if_neg (fun h => hb h.1), if_neg hb]

theorem hostRow_applyLock_burst (hwf : RowsWf n d) {id : UInt16}
    (hid : id ≠ lockIdAll) (hb : hostRow d blanketAddress ≠ Slots.default) (dir : UInt8)
    (scale : Int16) (a : Address) :
    hostRow (d.applyLock (lockClsBtn, id, dir) scale).1 a =
      if a = (lockClsBtn, id) then
        (hostRow (d.burstButtonBlanket ⟨[], d.mediaOrder⟩).1 a).write dir
          (momentaryScale lockClsBtn scale)
      else hostRow (d.burstButtonBlanket ⟨[], d.mediaOrder⟩).1 a := by
  have hmem : blanketAddress ∈ d.locks := (mem_locks_iff hwf.no_clear _).mpr hb
  simp only [DesiredState.applyLock, hid, and_false, if_false, true_and, if_pos hmem]
  rw [hostRow_writeLockRow]
  exact if_congr eq_comm rfl rfl

theorem hostRow_applyLock_row {key : LockKey} (hwf : NoClear d)
    (hblanket : ¬(key.1 = lockClsBtn ∧ key.2.1 = lockIdAll))
    (hb : key.1 = lockClsBtn → hostRow d blanketAddress = Slots.default) (scale : Int16)
    (a : Address) :
    hostRow (d.applyLock key scale).1 a =
      if a = (key.1, key.2.1) then (hostRow d a).write key.2.2 (momentaryScale key.1 scale)
      else hostRow d a := by
  have hmem : ¬(key.1 = lockClsBtn ∧ blanketAddress ∈ d.locks) := by
    rintro ⟨hk, hm⟩
    exact (mem_locks_iff hwf _).mp hm (hb hk)
  unfold DesiredState.applyLock
  simp only [if_neg hblanket, if_neg hmem]
  rw [hostRow_writeLockRow]
  exact if_congr eq_comm rfl rfl

/-- A button blanket written over granular rows says everything they said: it names both
edges, or the edge it does not name passes on every button. -/
def BlanketCovers (d : DesiredState) (c : Command) : Prop :=
  c.1.1 = lockClsBtn → c.1.2.1 = lockIdAll → c.1.2.2 ≠ lockDirBoth →
    ∀ id, id ≠ lockIdAll → ∀ i, slotDirs i ≠ c.1.2.2 → hostRow d (lockClsBtn, id) i = lockScalePass

theorem buttonCount_applyLock (d : DesiredState) (key : LockKey) (scale : Int16) :
    (d.applyLock key scale).1.buttonCount = d.buttonCount := by
  have hburst : ∀ u, (d.burstButtonBlanket u).1.buttonCount = d.buttonCount := by
    intro u
    unfold DesiredState.burstButtonBlanket
    simp only
    split <;> rfl
  unfold DesiredState.applyLock
  simp only
  split
  · exact buttonCount_writeLockRow _ _ _ _ _ _
  · split
    · exact (buttonCount_writeLockRow _ _ _ _ _ _).trans (hburst _)
    · exact buttonCount_writeLockRow _ _ _ _ _ _

theorem hostRows_blanket (d : DesiredState) : hostRows d blanketAddress = Slots.default :=
  if_pos rfl

theorem write_congr_named {r s : Slots} {dir : UInt8} (scale : Int16)
    (h : dir = lockDirBoth ∨ ∀ i, slotDirs i ≠ dir → r i = s i) :
    r.write dir scale = s.write dir scale := by
  by_cases hb : dir = lockDirBoth
  · subst hb
    rfl
  · have h := h.resolve_left hb
    rw [Slots.write_named r hb, Slots.write_named s hb]
    funext i
    by_cases hi : slotDirs i = dir
    · simp only [if_pos hi]
    · simp only [if_neg hi, h i hi]

theorem HostWf.hostRow_undeclared (hwf : HostWf n d) {a : Address} (hcls : a.1 = lockClsBtn)
    (hne : a ≠ blanketAddress) (hmem : a ∉ buttonAddresses n) : hostRow d a = Slots.default := by
  by_contra hr
  obtain h | ⟨f, hf, rfl⟩ := hwf.addressable a hr
  · exact hne h
  · cases f with
    | button b => exact hmem (List.mem_map.mpr ⟨b.val, List.mem_range.mpr hf, rfl⟩)
    | axis => exact absurd (show lockClsAxis = lockClsBtn from hcls) (by decide)
    | keys | key => exact absurd (show lockClsKey = lockClsBtn from hcls) (by decide)
    | mediaAll | media => exact absurd (show lockClsMedia = lockClsBtn from hcls) (by decide)

theorem hostRows_applyLock_blanket (hwf : HostWf n d) (hn : n ≤ 16) {dir : UInt8} {scale : Int16}
    (hcov : BlanketCovers d ((lockClsBtn, lockIdAll, dir), scale)) (a : Address) :
    hostRows (d.applyLock (lockClsBtn, lockIdAll, dir) scale).1 a =
      if a ∈ buttonAddresses n then
        (hostRows d a).write dir (momentaryScale lockClsBtn scale)
      else hostRows d a := by
  simp only [hostRows, buttonCount_applyLock, hwf.count, hostRow_applyLock_blanket, if_true]
  by_cases ha : a = blanketAddress
  · subst ha
    rw [if_pos rfl, if_neg (blanket_not_mem_buttonAddresses hn), if_pos rfl]
  · simp only [if_neg ha]
    by_cases hm : a ∈ buttonAddresses n
    · have hcls := ((mem_buttonAddresses hn a).mp hm).1
      have hid : a.2 ≠ lockIdAll := fun h => ha (Prod.ext hcls h)
      simp only [hm, true_and, if_true, hcls]
      have hcollapse : ∀ r : Slots, (if r ≠ Slots.default then r else Slots.default) = r := by
        intro r
        split
        next => rfl
        next h => exact (not_not.mp h).symm
      rw [hcollapse]
      by_cases hb : hostRow d blanketAddress = Slots.default
      · rw [if_neg (not_not.mpr hb), hb]
        refine write_congr_named _ ?_
        by_cases hdir : dir = lockDirBoth
        · exact .inl hdir
        · refine .inr fun i hi => ?_
          have := hcov rfl rfl hdir a.2 hid i hi
          rw [← hcls] at this
          exact this.symm
      · rw [if_pos hb]
    · simp only [hm, false_and, if_false]
      split
      next hcls => exact (hwf.hostRow_undeclared hcls ha hm).symm
      next => rfl

theorem hostRows_applyLock_burst (hwf : HostWf n d) (hn : n ≤ 16) {id : UInt16}
    (hid : id ≠ lockIdAll) (hb : hostRow d blanketAddress ≠ Slots.default) (dir : UInt8)
    (scale : Int16) (a : Address) :
    hostRows (d.applyLock (lockClsBtn, id, dir) scale).1 a =
      if a = (lockClsBtn, id) then
        (hostRows d a).write dir (momentaryScale lockClsBtn scale)
      else hostRows d a := by
  have hne : blanketAddress ≠ (lockClsBtn, id) := fun h => hid (Prod.mk.inj h).2.symm
  have hrows : hostRows d a = hostRow (d.burstButtonBlanket ⟨[], d.mediaOrder⟩).1 a := by
    rw [hostRow_burstButtonBlanket hwf.rows hn hb]
    simp only [hostRows, hwf.count, ne_eq, hb, not_false_eq_true, and_true]
  have hgone : hostRow (d.applyLock (lockClsBtn, id, dir) scale).1 blanketAddress =
      Slots.default := by
    rw [hostRow_applyLock_burst hwf.rows hid hb, if_neg hne,
      hostRow_burstButtonBlanket hwf.rows hn hb, if_pos rfl]
  rw [hostRows, hgone]
  by_cases ha : a = blanketAddress
  · subst ha
    rw [if_pos rfl, if_neg hne, hostRows_blanket]
  · rw [if_neg ha, if_neg (fun h => h.2 rfl), hostRow_applyLock_burst hwf.rows hid hb, hrows]

theorem hostRows_applyLock_row {key : LockKey} (hwf : HostWf n d) (hn : n ≤ 16)
    (hblanket : ¬(key.1 = lockClsBtn ∧ key.2.1 = lockIdAll))
    (hb : key.1 = lockClsBtn → hostRow d blanketAddress = Slots.default) (scale : Int16)
    (a : Address) :
    hostRows (d.applyLock key scale).1 a =
      if a = (key.1, key.2.1) then (hostRows d a).write key.2.2 (momentaryScale key.1 scale)
      else hostRows d a := by
  have hne : blanketAddress ≠ (key.1, key.2.1) := fun h =>
    hblanket ⟨(Prod.mk.inj h).1.symm, (Prod.mk.inj h).2.symm⟩
  have hrow := hostRow_applyLock_row hwf.no_clear hblanket hb scale
  rw [hostRows, hrow blanketAddress, if_neg hne, buttonCount_applyLock, hwf.count, hrow a]
  by_cases ha : a = blanketAddress
  · subst ha
    rw [if_pos rfl, if_neg hne, hostRows_blanket]
  · simp only [hostRows, if_neg ha, hwf.count]
    by_cases hm : a ∈ buttonAddresses n ∧ hostRow d blanketAddress ≠ Slots.default
    · have hkey : a ≠ (key.1, key.2.1) := by
        rintro rfl
        exact hm.2 (hb ((mem_buttonAddresses hn _).mp hm.1).1)
      simp only [if_pos hm, if_neg hkey]
    · simp only [if_neg hm]

/-- The host does to its rows exactly what the command says, a blanket that does not cover
them apart. -/
theorem hostRows_applyLock (hwf : HostWf n d) (hn : n ≤ 16) (hcov : BlanketCovers d c) :
    hostRows (d.applyLock c.1 c.2).1 = Writes.writeAll act (hostRows d) (rowWrites n c) := by
  obtain ⟨⟨class_, id, dir⟩, scale⟩ := c
  funext a
  by_cases hblanket : class_ = lockClsBtn ∧ id = lockIdAll
  · obtain ⟨rfl, rfl⟩ := hblanket
    rw [writeAll_rowWrites_blanket hn _ _ ⟨rfl, rfl⟩]
    exact hostRows_applyLock_blanket hwf hn hcov a
  · rw [writeAll_rowWrites_single _ _ _ hblanket]
    by_cases hb : class_ = lockClsBtn → hostRow d blanketAddress = Slots.default
    · exact hostRows_applyLock_row hwf hn hblanket hb scale a
    · obtain ⟨rfl, hheld⟩ := Classical.not_imp.mp hb
      exact hostRows_applyLock_burst hwf hn (fun h => hblanket ⟨rfl, h⟩) hheld dir scale a

end Medius.Locks
