import Medius.Locks.Readback

namespace Medius.Locks

open Protocol Link Mock Medius.Types

def entryRequest (e : LockEntry) : LockRequest :=
  ⟨e.scope.classId.1, e.scope.classId.2, e.direction, e.scale⟩

def entryCommand (e : LockEntry) : Command :=
  ((e.scope.classId.1, e.scope.classId.2, e.direction.asU8), e.scale)

def slotCommands (t : LockTable) (f : Field) : List (UInt8 × Int16) :=
  (fieldCommands t f).map fun c => (c.1.asU8, c.2)

variable {n : UInt8} {t : LockTable} {f : Field}

/-- A row reported whole is blocked on both edges or at pass. -/
theorem edges_whole (b : Bool) :
    (edges b b 0 = lockScalePass ∧ edges b b = Slots.default) ∨
      (edges b b 0 ≠ lockScalePass ∧
        edges b b = Slots.default.write lockDirBoth lockScaleBlock) := by
  cases b <;> decide

theorem slotCommands_slots (h : f.address.1 ≠ lockClsMedia) : slotCommands t f =
    ((List.finRange 4).filter fun i => boxRow t f i ≠ lockScalePass).map fun i =>
      (slotDirs i, boxRow t f i) := by
  cases f with
  | mediaAll | media => exact absurd rfl h
  | axis | button | keys | key => simp [slotCommands, fieldCommands]

/-- The commands of a row leave the row as it was read. -/
theorem foldl_slotCommands (t : LockTable) (f : Field) :
    (slotCommands t f).foldl act Slots.default = boxRow t f := by
  have hwhole : ∀ b, (List.map (fun c : Direction × Int16 => (c.1.asU8, c.2))
      (if edges b b 0 = lockScalePass then [] else [(Direction.both, lockScaleBlock)])).foldl act
        Slots.default = edges b b := by
    intro b
    obtain ⟨h0, hb⟩ | ⟨h0, hb⟩ := edges_whole b
    · rw [if_pos h0]
      exact hb.symm
    · rw [if_neg h0]
      exact hb.symm
  by_cases hm : f.address.1 = lockClsMedia
  · cases f with
    | mediaAll => exact hwhole t.mediaBlanket
    | media m => exact hwhole (t.media.contains m.val)
    | axis => exact absurd (show lockClsAxis = lockClsMedia from hm) (by decide)
    | button => exact absurd (show lockClsBtn = lockClsMedia from hm) (by decide)
    | keys | key => exact absurd (show lockClsKey = lockClsMedia from hm) (by decide)
  · rw [slotCommands_slots hm]
    funext i
    refine (Slots.writeAll_slots _ _ _ i).trans ?_
    by_cases hi : boxRow t f i = lockScalePass
    · simp [hi, Slots.default]
    · simp [hi]

/-- A command a row is spelled with writes one of its slots, or blocks a media row whole. -/
theorem mem_fieldCommands {c : Direction × Int16} (h : c ∈ fieldCommands t f) :
    boxRow t f ≠ Slots.default ∧
      ((f.address.1 = lockClsMedia ∧ c = (.both, lockScaleBlock)) ∨
        (f.address.1 ≠ lockClsMedia ∧
          ∃ i, c = (slotDirections i, boxRow t f i) ∧ boxRow t f i ≠ lockScalePass)) := by
  have hslots : f.address.1 ≠ lockClsMedia → (∃ i, c = (slotDirections i, boxRow t f i) ∧
      boxRow t f i ≠ lockScalePass) → boxRow t f ≠ Slots.default ∧
      ((f.address.1 = lockClsMedia ∧ c = (.both, lockScaleBlock)) ∨
        (f.address.1 ≠ lockClsMedia ∧
          ∃ i, c = (slotDirections i, boxRow t f i) ∧ boxRow t f i ≠ lockScalePass)) := by
    rintro hne ⟨i, hc, hi⟩
    exact ⟨fun hd => hi (congrFun hd i), .inr ⟨hne, i, hc, hi⟩⟩
  have hfilter : c ∈ ((List.finRange 4).filter fun i => boxRow t f i ≠ lockScalePass).map
      (fun i => (slotDirections i, boxRow t f i)) →
      ∃ i, c = (slotDirections i, boxRow t f i) ∧ boxRow t f i ≠ lockScalePass := by
    intro hc
    obtain ⟨i, hi, rfl⟩ := List.mem_map.mp hc
    exact ⟨i, rfl, of_decide_eq_true (List.mem_filter.mp hi).2⟩
  cases f with
  | axis => exact hslots (show lockClsAxis ≠ lockClsMedia by decide) (hfilter h)
  | button => exact hslots (show lockClsBtn ≠ lockClsMedia by decide) (hfilter h)
  | keys | key => exact hslots (show lockClsKey ≠ lockClsMedia by decide) (hfilter h)
  | mediaAll | media =>
    simp only [fieldCommands] at h
    split at h
    · cases h
    next h0 =>
      rw [List.mem_singleton] at h
      exact ⟨fun hd => h0 (congrFun hd 0), .inl ⟨rfl, h⟩⟩

theorem TableWf.slot_fixed (h : TableWf n.toNat t) (haxis : f.address.1 ≠ lockClsAxis) {i : Fin 4}
    (hi : boxRow t f i ≠ lockScalePass) : (slotDirections i).isRelative = false := by
  have hbearing := ((h.shape f).momentary haxis).no_bearing
  fin_cases i
  · rfl
  · rfl
  · exact absurd hbearing.1 hi
  · exact absurd hbearing.2 hi

/-- Every command a row is spelled with is one the box takes, to that row. -/
theorem TableWf.accepted (h : TableWf n.toNat t) {c : Direction × Int16}
    (hc : c ∈ fieldCommands t f) :
    Accepted n.toNat ((f.address.1, f.address.2, c.1.asU8), c.2) ∧
      momentaryScale f.address.1 c.2 = c.2 ∧ InScale c.2 ∧
      Device.lockCommand f.address.1 f.address.2 c.1 c.2 =
        .ok ((f.address.1, f.address.2, c.1.asU8), c.2) := by
  obtain ⟨hrow, ⟨hm, rfl⟩ | ⟨hm, i, rfl, hi⟩⟩ := mem_fieldCommands hc
  · have hblock : ∀ class_, momentaryScale class_ lockScaleBlock = lockScaleBlock :=
      fun class_ => momentaryScale_of_one_bit class_ (.inl rfl)
    refine ⟨?_, hblock _, InScale.block, ?_⟩
    · cases f with
      | mediaAll => exact .mediaAll (by decide)
      | media m => exact .media (by decide)
      | axis => exact absurd (show lockClsAxis = lockClsMedia from hm) (by decide)
      | button => exact absurd (show lockClsBtn = lockClsMedia from hm) (by decide)
      | keys | key => exact absurd (show lockClsKey = lockClsMedia from hm) (by decide)
    · exact lockCommand_momentary InScale.block (by rw [hm]; decide) (by decide) rfl (fun _ => rfl) _
  · have hscale := h.in_scale f i
    by_cases haxis : f.address.1 = lockClsAxis
    · refine ⟨?_, if_pos haxis, hscale, ?_⟩
      · cases f with
        | axis a => exact .axis a _ _
        | button => exact absurd (show lockClsBtn = lockClsAxis from haxis) (by decide)
        | keys | key => exact absurd (show lockClsKey = lockClsAxis from haxis) (by decide)
        | mediaAll | media => exact absurd rfl hm
      · rw [haxis]
        exact lockCommand_axis hscale _ _
    · have hdir := h.slot_fixed haxis hi
      have hbit := ((h.shape f).momentary haxis).one_bit i
      have h0 := one_bit_nonneg hbit
      have hdecl := h.declared f hrow
      refine ⟨?_, momentaryScale_of_one_bit _ hbit, hscale, ?_⟩
      · cases f with
        | axis a => exact absurd rfl haxis
        | button b => exact .button hdecl hdir h0
        | keys => exact .keys hdir h0
        | key u => exact .key hdecl hdir h0
        | mediaAll | media => exact absurd rfl hm
      · exact lockCommand_momentary hscale haxis h0 hdir (fun h => absurd h hm) _

def blocksOf (h : BoxWf t) : List (Address × List (UInt8 × Int16)) :=
  (fields h).map fun f => (f.address, slotCommands t f)

theorem blocksOf_nodup (h : BoxWf t) : ((blocksOf h).map Prod.fst).Nodup := by
  rw [blocksOf, List.map_map]
  exact (fields_nodup h).map Field.address_injective

/-- Written to a table of rows at pass, the reply's commands give the rows it was made from. -/
theorem agree_blocksOf (h : BoxWf t) :
    Agree (Writes.writeAll act Rows.clear (Writes.emit (blocksOf h))) t := by
  intro f
  by_cases hf : f ∈ fields h
  · have hm : (f.address, slotCommands t f) ∈ blocksOf h := List.mem_map_of_mem hf
    rw [Writes.writeAll_emit_of_mem act _ _ _ (blocksOf_nodup h) hm]
    exact (foldl_slotCommands t f).symm
  · have hrow : boxRow t f = Slots.default := by
      by_contra hne
      exact hf (mem_fields h hne)
    have hm : f.address ∉ (blocksOf h).map Prod.fst := by
      rw [blocksOf, List.map_map]
      intro hm
      obtain ⟨g, hg, hgf⟩ := List.mem_map.mp hm
      exact hf (Field.address_injective hgf ▸ hg)
    rw [Writes.writeAll_emit_of_not_mem _ _ _ _ hm, hrow]
    rfl

theorem mem_offered (h : BoxWf t) {e : LockEntry} (he : e ∈ t.offered false) :
    ∃ f ∈ fields h, ∃ c ∈ fieldCommands t f, e = ⟨f.scope, c.1, c.2⟩ := by
  rw [offered_eq h] at he
  obtain ⟨f, hf, he⟩ := List.mem_flatMap.mp he
  obtain ⟨c, hc, rfl⟩ := List.mem_map.mp he
  exact ⟨f, hf, c, hc, rfl⟩

theorem entryCommand_field (f : Field) (c : Direction × Int16) :
    entryCommand ⟨f.scope, c.1, c.2⟩ = ((f.address.1, f.address.2, c.1.asU8), c.2) := by
  simp only [entryCommand, f.classId_scope]

theorem TableWf.rowWrites_offered (h : TableWf n.toNat t) :
    ((t.offered false).map entryCommand).flatMap (rowWrites n.toNat) =
      Writes.emit (blocksOf h.box) := by
  rw [offered_eq h.box, List.map_flatMap, List.flatMap_assoc, blocksOf, Writes.emit,
    List.flatMap_map]
  refine List.flatMap_congr fun f _ => ?_
  rw [fieldEntries, List.map_map, List.flatMap_map, Writes.block, slotCommands, List.map_map,
    List.map_eq_flatMap]
  refine List.flatMap_congr fun c hc => ?_
  have hscale := (h.accepted hc).2.1
  rw [Function.comp_apply, entryCommand_field, rowWrites, if_neg f.address_ne_blanket, hscale]
  rfl

/-- An entry of the reply is a request `sendLock` sends on as it stands. -/
theorem TableWf.entry_sent (h : TableWf n.toNat t) {e : LockEntry} (he : e ∈ t.offered false) :
    (entryRequest e).command = .ok (entryCommand e) ∧ Accepted n.toNat (entryCommand e) := by
  obtain ⟨f, -, c, hc, rfl⟩ := mem_offered h.box he
  obtain ⟨hacc, -, -, hsent⟩ := h.accepted hc
  rw [entryCommand_field]
  refine ⟨?_, hacc⟩
  simp only [LockRequest.command, entryRequest, f.classId_scope]
  exact hsent

theorem TableWf.media_offered (h : TableWf n.toNat t) {e : LockEntry} (he : e ∈ t.offered false)
    (hcls : (entryCommand e).1.1 = lockClsMedia) (hid : (entryCommand e).1.2.1 ≠ lockIdAll) :
    (entryCommand e).1.2.1 ∈ t.media := by
  obtain ⟨f, -, c, hc, rfl⟩ := mem_offered h.box he
  rw [entryCommand_field] at hcls hid ⊢
  cases f with
  | media m =>
    by_contra hm
    refine (mem_fieldCommands hc).1 ?_
    have hout : m.val ∉ t.media := hm
    simp only [boxRow, List.contains_eq_mem, hout, decide_false]
    decide
  | mediaAll => exact absurd rfl hid
  | axis => exact absurd (show lockClsAxis = lockClsMedia from hcls) (by decide)
  | button => exact absurd (show lockClsBtn = lockClsMedia from hcls) (by decide)
  | keys | key => exact absurd (show lockClsKey = lockClsMedia from hcls) (by decide)

theorem TableWf.replay_offered (h : TableWf n.toNat t) (hn : n ≤ maxButtons) :
    SameTable (replay n ((t.offered false).map entryCommand)) t := by
  obtain ⟨hrows, hwf⟩ := Agree.clear.replay hn (M := t.media) h.box.media_length.le
    ((t.offered false).map entryCommand)
    (fun c hc => by
      obtain ⟨e, he, rfl⟩ := List.mem_map.mp hc
      exact (h.entry_sent he).2)
    (fun c hc => by
      obtain ⟨e, he, rfl⟩ := List.mem_map.mp hc
      exact h.media_offered he)
    (fun m hm => absurd rfl hm) BoxWf.default
  rw [h.rowWrites_offered] at hrows
  exact SameTable.of_rows hwf h.box fun f => (hrows f).trans (agree_blocksOf h.box f).symm

theorem run_receive (n : UInt8) {es : List LockEntry} (t : LockTable)
    (h : ∀ e ∈ es, (entryRequest e).command = .ok (entryCommand e)) :
    Steps.run (receive n) t (es.map entryRequest) =
      some ((es.map entryCommand).foldl (applyCommand n) t) := by
  induction es generalizing t with
  | nil => rfl
  | cons e es ih =>
    rw [List.map_cons, Steps.run_cons, receive, h e List.mem_cons_self]
    exact ih _ fun e he => h e (List.mem_cons_of_mem _ he)

/-- The reply to a query is its table: it fits a frame, is read back entry for entry, and unless
the cap cut it, sent back as it stands it makes the same table of a fresh one. -/
theorem locks_readback (n : UInt8) (rs : List LockRequest) (t : LockTable)
    (hrun : Steps.run (receive n) .default rs = some t) :
    (locksPayload (t.pack .perAxis)).length ≤ maxPayload ∧
      Locks.fromPayload (locksPayload (t.pack .perAxis)) = some (t.pack .perAxis) ∧
      ((t.offered false).length ≤ respLocksMaxn →
        ∃ t', Steps.run (receive n) .default ((t.pack .perAxis).entries.map entryRequest) = some t' ∧
          SameTable t' t) := by
  have h : TableWf (min n maxButtons).toNat t := (TableWf.default _).run hrun
  have hentries : (t.pack .perAxis).entries = (t.offered false).take respLocksMaxn :=
    t.entries_pack .perAxis
  refine ⟨length_locksPayload _, fromPayload_locksPayload ?_ fun e he => ?_, fun hcap => ?_⟩
  · rw [hentries]
    exact List.length_take_le _ _
  · rw [hentries] at he
    obtain ⟨f, -, c, -, rfl⟩ := mem_offered h.box (List.mem_of_mem_take he)
    exact f.scope_spelled
  · rw [hentries, List.take_of_length_le hcap]
    refine ⟨_, run_receive n _ fun e he => (h.entry_sent he).1, ?_⟩
    have hmin : applyCommand n = applyCommand (min n maxButtons) := by
      funext t c
      exact applyCommand_min n t c
    rw [hmin]
    exact h.replay_offered (min_maxButtons_le n)

/-- An axis against its bearing, a button on release, every key on press, a key by its low byte
and a media usage. -/
def mixedRequests : List LockRequest :=
  [⟨lockClsAxis, 1, .against, -40⟩, ⟨lockClsBtn, 1, .negative, 0⟩,
    ⟨lockClsKey, lockIdAll, .positive, 0⟩, ⟨lockClsKey, 0x0129, .both, 50⟩,
    ⟨lockClsMedia, 0xCD, .positive, 0⟩]

theorem locks_readback_mixedRequests : ∃ t t' : LockTable,
    Steps.run (receive 5) .default mixedRequests = some t ∧
      Steps.run (receive 5) .default ((t.pack .perAxis).entries.map entryRequest) = some t' ∧
        SameTable t' t := by
  obtain ⟨t', hrun, hsame⟩ :=
    (locks_readback 5 mixedRequests _ rfl).2.2 (by decide +kernel)
  exact ⟨_, t', rfl, hrun, hsame⟩

/-- Forty-three keys locked on both edges. -/
def crowdedRequests : List LockRequest :=
  (List.range 43).map fun k => ⟨lockClsKey, UInt16.ofNat (k + 4), .both, 0⟩

def crowded : Option LockTable := Steps.run (receive 5) .default crowdedRequests

/-- The last key's release edge is the eighty-sixth entry, and is not sent back. -/
theorem crowded_cut :
    (crowded.map fun t => (t.keyRelease 46, (t.pack .perAxis).entries.length)) = some (true, 85) ∧
      ((crowded.bind fun t => Steps.run (receive 5) .default
        ((t.pack .perAxis).entries.map entryRequest)).map fun t => t.keyRelease 46) = some false := by
  decide +kernel

theorem full_reply_drops_lock :
    ¬∀ (n : UInt8) (rs : List LockRequest) (t : LockTable),
      Steps.run (receive n) .default rs = some t → (t.pack .perAxis).entries.length ≤ respLocksMaxn →
      (locksPayload (t.pack .perAxis)).length ≤ maxPayload ∧
        Locks.fromPayload (locksPayload (t.pack .perAxis)) = some (t.pack .perAxis) ∧
        ∃ t', Steps.run (receive n) .default ((t.pack .perAxis).entries.map entryRequest) = some t' ∧
          SameTable t' t := by
  intro h
  obtain ⟨hcut, hback⟩ := crowded_cut
  obtain ⟨t, ht, hkey⟩ := Option.map_eq_some_iff.mp hcut
  obtain ⟨hrelease, hlen⟩ := Prod.mk.inj hkey
  obtain ⟨-, -, t', ht', hsame⟩ := h 5 crowdedRequests t ht hlen.le
  rw [ht, Option.bind_some, ht'] at hback
  have hlost : t'.keyRelease 46 = false := Option.some.inj hback
  rw [hsame.keyRelease, hrelease] at hlost
  cases hlost

end Medius.Locks
