import Medius.Machine.Rows

/-! What the box says of its locks and its clip, where that is less than it holds. -/

namespace Medius.Machine

open Protocol Mock Device Medius.Types Checked Readback

section Locks

/-- A usage under the id the wire keeps for its class reads back as the class. -/
def saidScope : LockScope → LockScope
  | .target (.usage u) => if u.id = lockIdAll then .blanket u.class_ else .target (.usage u)
  | s => s

def saidLocks (l : Locks) : Locks :=
  ⟨(l.entries.take respLocksMaxn).map fun e => { e with scope := saidScope e.scope }⟩

theorem saidScope_spelled {s : LockScope} (h : s.Spelled) : saidScope s = s := by
  cases s with
  | blanket c => rfl
  | target t =>
    cases t with
    | axis a => rfl
    | usage u => exact if_neg h

theorem decodeScope_said (s : LockScope) :
    decodeScope s.classId.1 s.classId.2 = some (saidScope s) := by
  by_cases h : s.Spelled
  · rw [decodeScope_classId h, saidScope_spelled h]
  · cases s with
    | blanket c => exact absurd trivial h
    | target t =>
      cases t with
      | axis a => exact absurd trivial h
      | usage u =>
        have hid : u.id = lockIdAll := not_not.mp h
        have hcls : u.class_.asU8 ≠ lockClsAxis := by cases u.class_ <;> decide
        simp [decodeScope, saidScope, LockScope.classId, LockTarget.classId, Usage.classId, hcls,
          hid]

theorem reads_said (e : LockEntry) :
    Records.Reads Locks.readEntry entryBytes
      (fun e => some { e with scope := saidScope e.scope }) e := by
  intro rest
  simp only [entryBytes, toLeBytes, List.cons_append, List.nil_append, Locks.readEntry,
    fromLeBytes_toLeBytes, decodeScope_said, Direction.fromU8_asU8]
  rfl

theorem locks_read (l : Locks) : Locks.fromPayload (locksPayload l) = some (saidLocks l) := by
  have hlen : (l.entries.take respLocksMaxn).length ≤ 85 := List.length_take_le _ _
  have hcount : (UInt8.ofNat (l.entries.take respLocksMaxn).length).toNat =
      (l.entries.take respLocksMaxn).length := by
    rw [UInt8.toNat_ofNat']
    omega
  have hdrop : (locksPayload l).drop 2 =
      (l.entries.take respLocksMaxn).flatMap entryBytes ++ [] := by
    rw [List.append_nil]
    rfl
  have hwalk := Records.walk_flatMap (fun e _ => reads_said e) hdrop
  rw [Locks.fromPayload]
  change (do
    let n ← some (UInt8.ofNat (l.entries.take respLocksMaxn).length)
    return (⟨(← Records.walk Locks.readEntry _ n.toNat 2).1.reduceOption⟩ : Locks)) = _
  simp only [Option.bind_eq_bind, Option.bind_some, hcount, hwalk, Option.pure_def,
    reduceOption_map_some, saidLocks]

/-- Whatever is locked is spelled one way, in either bearing mode. -/
theorem offered_spelled {t : LockTable} (h : Locks.BoxWf t) (vector : Bool) :
    ∀ e ∈ t.offered vector, e.scope.Spelled := by
  have htarget : ∀ target : Fin lockTgtCount, ∀ c, targetScope target = .target (.usage c) →
      c.id ≠ lockIdAll := by
    intro target c hc
    unfold targetScope at hc
    split at hc
    · cases hc
    · cases hc
      revert target
      decide
  intro e he
  simp only [LockTable.offered, List.mem_append] at he
  obtain (((he | he) | he) | he) | he := he
  · obtain ⟨target, -, he⟩ := List.mem_flatMap.mp he
    obtain ⟨slot, -, rfl⟩ := List.mem_map.mp he
    dsimp only
    cases hscope : targetScope target with
    | blanket c => trivial
    | target t =>
      cases t with
      | axis a => trivial
      | usage c => exact htarget target c hscope
  · obtain ⟨bit, -, rfl⟩ := List.mem_map.mp he
    trivial
  · unfold LockTable.mediaBlanketEntries at he
    split at he
    · obtain rfl := List.mem_singleton.mp he
      trivial
    · cases he
  · obtain ⟨id, hid, rfl⟩ := List.mem_map.mp he
    exact fun hall => h.media_granular (hall ▸ (List.mem_filter.mp hid).1)
  · obtain ⟨u, -, he⟩ := List.mem_flatMap.mp he
    have hkey : (UInt8.ofNat u).toUInt16 ≠ lockIdAll := by
      intro hall
      have hval := congrArg UInt16.toNat hall
      have hlt := (UInt8.ofNat u).toNat_lt
      rw [UInt8.toNat_toUInt16] at hval
      have h65535 : lockIdAll.toNat = 65535 := rfl
      omega
    unfold LockTable.keyEntries at he
    rw [List.mem_append] at he
    obtain he | he := he
    · split at he
      · obtain rfl := List.mem_singleton.mp he
        exact hkey
      · cases he
    · split at he
      · obtain rfl := List.mem_singleton.mp he
        exact hkey
      · cases he

/-- What the box packs is read back as it is. -/
theorem saidLocks_pack {t : LockTable} (h : Locks.BoxWf t) (mode : BearingMode) :
    saidLocks (t.pack mode) = t.pack mode := by
  have hentries : (t.pack mode).entries.take respLocksMaxn = (t.pack mode).entries := by
    rw [LockTable.entries_pack, List.take_take, Nat.min_self]
  have hsame : ∀ e ∈ (t.pack mode).entries, { e with scope := saidScope e.scope } = id e := by
    intro e he
    rw [LockTable.entries_pack] at he
    rw [saidScope_spelled (offered_spelled h _ e (List.mem_of_mem_take he))]
    rfl
  rw [saidLocks, hentries, List.map_congr_left hsame, List.map_id]

end Locks

section Clip

def saidClip (c : ClipStatus) : ClipStatus := { c with held := c.held.take clipHeldMax }

def saidSettings (cfg : ClipSettings) : ClipSettings :=
  { cfg with triggers := cfg.triggers.take clipTrigMax }

theorem clipStatusPayload_said (c : ClipStatus) (cfg : ClipSettings) (rows : PacketTriggers.Rows) :
    clipStatusPayload (saidClip c) (saidSettings cfg) rows = clipStatusPayload c cfg rows := by
  simp only [clipStatusPayload, saidClip, saidSettings, List.take_take, Nat.min_self]
  rfl

variable (c : ClipStatus) (cfg : ClipSettings) {rows : PacketTriggers.Rows}

theorem sayable_said (h : Holdable rows) : Sayable (saidClip c) (saidSettings cfg) rows where
  held := List.length_take_le _ _
  triggers := List.length_take_le _ _
  packets := h

theorem clip_reads (h : Holdable rows) :
    ClipStatus.readPayload (clipStatusPayload c cfg rows) = .value (saidClip c) := by
  rw [Decode.status_eq, ← clipStatusPayload_said, status_fromPayload (sayable_said c cfg h)]
  rfl

/-- The other view of the same payload. -/
theorem settings_read (h : Holdable rows) :
    ∃ cfg', ClipSettings.readPayload (clipStatusPayload c cfg rows) = .value cfg' ∧
      SettingsRead (saidSettings cfg) rows cfg' := by
  rw [Decode.settings_eq, ← clipStatusPayload_said, settings_fromPayload (sayable_said c cfg h)]
  exact ⟨_, rfl, blanketScope_blanketFromScope cfg.autolock, rfl, rfl, rfl, rfl, rfl,
    Records.forall₂_reduceOption fun r hr => (h.admitted r hr).fromWire⟩

theorem length_clip (h : Holdable rows) :
    (clipStatusPayload c cfg rows).length ≤ maxPayload := by
  have hsay := sayable_said c cfg h
  have hheld := hsay.held
  have htriggers := hsay.triggers
  have hcount := h.count
  have hpool := h.pool
  rw [← clipStatusPayload_said, length_clipStatusPayload hsay, length_packets h.admitted]
  simp only [packetsAt, configAt, respClipHdr, clipHeldMax, clipTrigMax, clipPktTrigMax,
    clipPktMatchPool, clipPktTrigEntry, maxPayload] at *
  omega

end Clip

end Medius.Machine
