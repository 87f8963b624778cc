import Medius.Mock.ClipReport
import Medius.Packets.Laws

/-! What the host reads back of a clip: the box lays its status, settings and triggers end to end,
and the two decoders walk the same bytes. -/

namespace Medius.Readback

open Protocol Mock Mock.PacketTriggers Packets Medius.Types

section Rows

/-- A row that the box's checks let in: it keeps two bits of the flags that came with it. -/
structure Admitted (r : MockPacketTrigger) : Prop where
  address : addressable r.class_ r.dir r.matchBytes r.mask
  fields : ∃ flags imperfect, r.flags = flags &&& (clipTrigFConsume ||| clipTrigFRun) ∧
    admissible r.class_ r.id r.dir r.action flags r.slen r.mask imperfect

/-- The packet triggers that the box's table has room for. -/
structure Holdable (rows : Rows) : Prop where
  count : rows.length ≤ clipPktTrigMax
  pool : matchUsed rows ≤ clipPktMatchPool
  admitted : ∀ r ∈ rows, Admitted r

theorem exists_ofNat {v : UInt8} {P : Nat → Prop} (h : P v.toNat) :
    ∃ k, P k ∧ v = UInt8.ofNat k := ⟨v.toNat, h, UInt8.ofNat_toNat.symm⟩

theorem class_of_isSurface {v : UInt8} (h : isSurface v) :
    ∃ c, ClipPacketTrigger.isSurface c ∧ c.asU8 = v := by
  rw [isSurface, Bool.and_eq_true, decide_eq_true_eq, decide_eq_true_eq, UInt8.le_iff_toNat_le,
    UInt8.le_iff_toNat_le] at h
  obtain ⟨k, ⟨hlow, hhigh⟩, rfl⟩ := exists_ofNat (P := fun k => 4 ≤ k ∧ k ≤ 9) h
  interval_cases k
  exacts [⟨.hidIn, rfl, rfl⟩, ⟨.hidOut, rfl, rfl⟩, ⟨.vendorInterrupt, rfl, rfl⟩,
    ⟨.vendorBulk, rfl, rfl⟩, ⟨.control, rfl, rfl⟩, ⟨.emit, rfl, rfl⟩]

theorem direction_of_le {v : UInt8} (h : v ≤ lockDirNeg) :
    ∃ d : Direction, d.isRelative = false ∧ d.asU8 = v := by
  obtain ⟨k, hk, rfl⟩ := exists_ofNat (P := (· ≤ 2)) (UInt8.le_iff_toNat_le.mp h)
  interval_cases k
  exacts [⟨.both, rfl, rfl⟩, ⟨.positive, rfl, rfl⟩, ⟨.negative, rfl, rfl⟩]

theorem action_of_le {v : UInt8} (h : v ≤ clipOpToggle) : ∃ a : ClipAction, a.asU8 = v := by
  obtain ⟨k, hk, rfl⟩ := exists_ofNat (P := (· ≤ 5)) (UInt8.le_iff_toNat_le.mp h)
  interval_cases k
  exacts [⟨.start, rfl⟩, ⟨.stop, rfl⟩, ⟨.pause, rfl⟩, ⟨.resume, rfl⟩, ⟨.restart, rfl⟩,
    ⟨.toggle, rfl⟩]

/-- The two bits a row keeps say whether it consumes and whether it drives once a run. -/
theorem kept_flags (flags : UInt8) : ∃ consume oncePerRun : Bool,
    flags &&& (clipTrigFConsume ||| clipTrigFRun) =
      (if consume then clipTrigFConsume else 0) ||| (if oncePerRun then clipTrigFRun else 0) := by
  generalize hv : flags &&& (clipTrigFConsume ||| clipTrigFRun) = v
  have hle : v.toNat ≤ 6 := by
    rw [← hv, UInt8.toNat_and]
    exact Nat.and_le_right
  have h : v &&& (clipTrigFConsume ||| clipTrigFRun) = v := by
    rw [← hv, UInt8.and_assoc, UInt8.and_self]
  obtain ⟨k, hk, rfl⟩ := exists_ofNat (P := (· ≤ 6)) hle
  clear hv
  interval_cases k
  exacts [⟨false, false, rfl⟩, absurd h (by decide), ⟨true, false, rfl⟩, absurd h (by decide),
    ⟨false, true, rfl⟩, absurd h (by decide), ⟨true, true, rfl⟩]

/-- The trigger, and the packets it met. -/
def Holds (r : MockPacketTrigger) (e : ClipPacketTriggerEntry) : Prop :=
  r = { boxed e.trigger with hits := r.hits, live := r.live } ∧
    e.hits.toNat = min r.hits.toNat 0xFFFF

theorem addressable_spec {class_ dir : UInt8} {matchBytes mask : List UInt8}
    (h : addressable class_ dir matchBytes mask) :
    isSurface class_ ∧ dir ≤ lockDirNeg ∧ matchBytes.length ≤ pktMatchMax ∧
      mask.length = matchBytes.length := by
  unfold addressable at h
  dsimp only at h
  split at h
  · cases h
  next hno => exact ⟨by simpa using fun hs => hno (.inl hs), by simpa using fun hd => hno (.inr (.inl hd)), by omega, by omega⟩

theorem admissible_action {class_ : UInt8} {id : UInt16} {dir action flags slen : UInt8}
    {mask : List UInt8} {imperfect : Bool}
    (h : admissible class_ id dir action flags slen mask imperfect) : action ≤ clipOpToggle := by
  unfold admissible at h
  dsimp only at h
  split at h
  · cases h
  next hno => exact UInt8.not_lt.mp fun ha => hno (.inl ha)

/-- A row the box let in is a trigger that the crate has names for. -/
theorem Admitted.named {r : MockPacketTrigger} (h : Admitted r) :
    ∃ t : ClipPacketTrigger, r = { boxed t with hits := r.hits, live := r.live } ∧
      ClipPacketTrigger.isSurface t.class_ ∧ t.direction.isRelative = false ∧
      t.mask.length = t.matchBytes.length ∧ t.matchBytes.length ≤ pktMatchMax := by
  obtain ⟨hsurface, hdir, hlen, hmask⟩ := addressable_spec h.address
  obtain ⟨class_, hnamed, hclass⟩ := class_of_isSurface hsurface
  obtain ⟨direction, hrel, hdirection⟩ := direction_of_le hdir
  obtain ⟨sent, imperfect, hsent, hfields⟩ := h.fields
  obtain ⟨action, haction⟩ := action_of_le (admissible_action hfields)
  obtain ⟨consume, oncePerRun, hkept⟩ := kept_flags sent
  have hflags := hsent.trans hkept
  obtain ⟨class', id, dir, act, flags, slen, matchBytes, mask, hits, live⟩ := r
  dsimp only at hclass hdirection haction hflags hlen hmask
  subst hclass hdirection haction hflags
  exact ⟨⟨class_, id, direction, action, matchBytes, mask, consume, oncePerRun, slen⟩, rfl, hnamed,
    hrel, hmask, hlen⟩

theorem length_packetTriggerBytes (r : MockPacketTrigger) :
    (packetTriggerBytes r).length = clipPktTrigEntry + r.matchBytes.length + r.mask.length := by
  simp only [packetTriggerBytes, List.length_append, List.length_cons, length_toLeBytes,
    clipPktTrigEntry]

theorem flags_says_consume (t : ClipPacketTrigger) :
    decide (t.flags &&& clipTrigFConsume ≠ 0) = t.consume := by
  unfold ClipPacketTrigger.flags
  cases t.consume <;> cases t.oncePerRun <;> decide

theorem flags_says_run (t : ClipPacketTrigger) :
    decide (t.flags &&& clipTrigFRun ≠ 0) = t.oncePerRun := by
  unfold ClipPacketTrigger.flags
  cases t.consume <;> cases t.oncePerRun <;> decide

theorem fromWire_packetTriggerBytes {t : ClipPacketTrigger}
    (hsurface : ClipPacketTrigger.isSurface t.class_) (hrel : t.direction.isRelative = false)
    (hlen : t.matchBytes.length ≤ pktMatchMax) (hits : UInt32) (live : Bool) :
    ClipPacketTriggerEntry.fromWire
        (packetTriggerBytes { boxed t with hits := hits, live := live }) =
      some ⟨t, UInt16.ofNat (min hits.toNat 0xFFFF)⟩ := by
  have hm : (UInt8.ofNat t.matchBytes.length).toNat = t.matchBytes.length := by
    rw [UInt8.toNat_ofNat']
    simp only [pktMatchMax] at hlen
    omega
  change ClipPacketTriggerEntry.fromWire (t.class_.asU8 :: UInt8.ofNat t.id.toNat ::
    UInt8.ofNat (t.id.toNat / 256) :: t.direction.asU8 :: t.action.asU8 :: t.flags ::
    t.selectorLen :: UInt8.ofNat t.matchBytes.length ::
    UInt8.ofNat (UInt16.ofNat (min hits.toNat 0xFFFF)).toNat ::
    UInt8.ofNat ((UInt16.ofNat (min hits.toNat 0xFFFF)).toNat / 256) ::
    (t.matchBytes ++ t.mask)) = _
  unfold ClipPacketTriggerEntry.fromWire
  have hnamed : (TrafficClass.tryFrom t.class_.toCatch).toOption = some t.class_ := by
    rw [TrafficClass.tryFrom_toCatch]
    rfl
  simp only [TrafficClass.asU8, CatchClass.fromU8_asU8, Direction.fromU8_asU8,
    ClipAction.fromU8_asU8, fromLeBytes_toLeBytes, hm, List.take_left, List.drop_left,
    flags_says_consume, flags_says_run, Option.bind_eq_bind, Option.bind_some, hnamed,
    Option.filter_some, hrel, Bool.not_false, if_true, hsurface, not_true_eq_false, if_false,
    Option.pure_def]

/-- A row is read back as the trigger it holds. -/
theorem Admitted.fromWire {r : MockPacketTrigger} (h : Admitted r) :
    ∃ e, ClipPacketTriggerEntry.fromWire (packetTriggerBytes r) = some e ∧ Holds r e := by
  obtain ⟨t, hr, hsurface, hrel, -, hlen⟩ := h.named
  refine ⟨⟨t, UInt16.ofNat (min r.hits.toNat 0xFFFF)⟩, ?_, hr, ?_⟩
  · rw [hr]
    exact fromWire_packetTriggerBytes hsurface hrel hlen r.hits r.live
  · rw [UInt16.toNat_ofNat']
    omega

theorem Admitted.size {r : MockPacketTrigger} (h : Admitted r) (rest : List UInt8) :
    (packetTriggerBytes r ++ rest)[7]? = some (UInt8.ofNat r.matchBytes.length) ∧
      (UInt8.ofNat r.matchBytes.length).toNat = r.matchBytes.length ∧
      r.matchBytes.length ≤ pktMatchMax ∧
      clipPktTrigEntry + 2 * r.matchBytes.length = (packetTriggerBytes r).length := by
  obtain ⟨-, -, hlen, hmask⟩ := addressable_spec h.address
  refine ⟨rfl, ?_, hlen, ?_⟩
  · rw [UInt8.toNat_ofNat']
    simp only [pktMatchMax] at hlen
    omega
  · rw [length_packetTriggerBytes, hmask]
    omega

theorem Admitted.reads {r : MockPacketTrigger} (h : Admitted r) :
    Records.Reads ClipPacketTriggerEntry.read packetTriggerBytes
      (fun r => ClipPacketTriggerEntry.fromWire (packetTriggerBytes r)) r := by
  intro rest
  obtain ⟨hat, hm, -, hsize⟩ := h.size rest
  rw [ClipPacketTriggerEntry.read, hat]
  simp only [Option.bind_eq_bind, Option.bind_some, hm, hsize, List.take_left, Option.pure_def]

theorem Admitted.skips {r : MockPacketTrigger} (h : Admitted r) :
    Records.Reads clipPacketSize packetTriggerBytes (fun _ => ()) r := by
  intro rest
  obtain ⟨hat, hm, hlen, hsize⟩ := h.size rest
  rw [clipPacketSize, hat]
  simp only [Option.bind_eq_bind, Option.bind_some, hm, hsize, if_neg (Nat.not_lt.mpr hlen)]

theorem length_packets {rows : Rows} (h : ∀ r ∈ rows, Admitted r) :
    (rows.flatMap packetTriggerBytes).length =
      clipPktTrigEntry * rows.length + 2 * matchUsed rows := by
  induction rows with
  | nil => rfl
  | cons r rows ih =>
    have ih := ih fun r hr => h r (List.mem_cons_of_mem _ hr)
    have hused : matchUsed (r :: rows) = r.matchBytes.length + matchUsed rows := List.sum_cons
    obtain ⟨-, -, -, hsize⟩ := (h r List.mem_cons_self).size []
    rw [List.flatMap_cons, List.length_append, ih, ← hsize, hused, List.length_cons]
    simp only [clipPktTrigEntry]
    omega

theorem Holdable.sublist {rows rows' : Rows} (h : Holdable rows) (hsub : rows'.Sublist rows) :
    Holdable rows' where
  count := hsub.length_le.trans h.count
  pool := ((hsub.map _).sum_le_sum fun _ _ => Nat.zero_le _).trans h.pool
  admitted := fun r hr => h.admitted r (hsub.mem hr)

/-- An overwrite leaves a row at its key, with the old fields or the new ones. -/
theorem Admitted.overwrite {old new : MockPacketTrigger} (hold : Admitted old)
    (hnew : Admitted new) (hk : old.key = new.key) : Admitted (old.overwrite new) := by
  unfold MockPacketTrigger.overwrite
  simp only [MockPacketTrigger.key, Prod.mk.injEq] at hk
  obtain ⟨hclass, hid, hdir, hmatch, hmask⟩ := hk
  split
  · refine ⟨hold.address, ?_⟩
    dsimp only
    rw [hclass, hid, hdir, hmask]
    exact hnew.fields
  · exact hold

@[simp] theorem overwrite_matchBytes (old new : MockPacketTrigger) :
    (old.overwrite new).matchBytes = old.matchBytes := by
  unfold MockPacketTrigger.overwrite
  split <;> rfl

theorem Holdable.modify {rows : Rows} (h : Holdable rows) {i : Nat} {row : MockPacketTrigger}
    (hi : Keyed.position MockPacketTrigger.key rows row.key = some i) (hrow : Admitted row) :
    Holdable (rows.modify i fun r => r.overwrite row) := by
  obtain ⟨hlt, hkey, -⟩ := List.findIdx?_eq_some_iff_getElem.mp hi
  have hat : rows.modify i (fun r => r.overwrite row) = rows.set i (rows[i].overwrite row) := by
    rw [List.modify_eq_set_getElem?, List.getElem?_eq_getElem hlt]
    rfl
  rw [hat]
  refine ⟨?_, ?_, fun r hr => ?_⟩
  · rw [List.length_set]
    exact h.count
  · have hsame : (rows.set i (rows[i].overwrite row)).map (·.matchBytes.length) =
        rows.map (·.matchBytes.length) := by
      rw [List.map_set, overwrite_matchBytes,
        ← List.getElem_map (fun r : MockPacketTrigger => r.matchBytes.length)
          (h := by simpa using hlt), List.set_getElem_self]
    rw [matchUsed, hsame]
    exact h.pool
  · obtain hr | rfl := List.mem_or_eq_of_mem_set hr
    · exact h.admitted r hr
    · exact (h.admitted _ (List.getElem_mem hlt)).overwrite hrow (of_decide_eq_true hkey)

theorem Holdable.set {rows rows' : Rows} (h : Holdable rows) {class_ : UInt8} {id : UInt16}
    {dir action flags slen : UInt8} {matchBytes mask : List UInt8} {imperfect : Bool} {i : Nat}
    (hs : PacketTriggers.set rows class_ id dir action flags slen matchBytes mask imperfect =
      some (rows', i)) : Holdable rows' := by
  unfold PacketTriggers.set at hs
  split at hs
  · cases hs
  next haddr =>
    dsimp only at hs
    split at hs
    · obtain ⟨j, -, heq⟩ := Option.map_eq_some_iff.mp hs
      cases heq
      exact h.sublist (List.eraseIdx_sublist _ _)
    · split at hs
      · cases hs
      next hadm =>
        have hrow : Admitted ⟨class_, id, dir, action, flags &&& (clipTrigFConsume ||| clipTrigFRun),
            slen, matchBytes, mask, 0, false⟩ :=
          ⟨not_not.mp haddr, flags, imperfect, rfl, not_not.mp hadm⟩
        split at hs
        next j hj =>
          cases hs
          exact h.modify hj hrow
        next =>
          split at hs
          · cases hs
          next hroom =>
            cases hs
            refine ⟨?_, ?_, fun r hr => ?_⟩
            · rw [List.length_append, List.length_singleton]
              omega
            · rw [matchUsed, List.map_append, List.sum_append]
              exact Nat.not_lt.mp fun hp => hroom (.inr hp)
            · rw [List.mem_append, List.mem_singleton] at hr
              obtain hr | rfl := hr
              · exact h.admitted r hr
              · exact hrow

/-- Whatever frames arrive, the table holds what a reply can say. -/
theorem Holdable.applyClipTriggerFrame {rows : Rows} (h : Holdable rows) (imperfect : Bool)
    (p : List UInt8) : Holdable (PacketTriggers.applyClipTriggerFrame rows imperfect p) := by
  unfold PacketTriggers.applyClipTriggerFrame
  split
  · split
    · split
      · dsimp only
        split
        · exact h
        · cases hs : PacketTriggers.set rows _ _ _ _ _ _ _ _ imperfect with
          | none => exact h
          | some s => exact h.set hs
      · exact h
    · split
      · exact h.sublist (List.nil_sublist _)
      · exact h
  · exact h

theorem holdable_foldl (frames : List (Bool × List UInt8)) :
    Holdable (frames.foldl (fun rows f => applyClipTriggerFrame rows f.1 f.2) []) := by
  induction frames using List.reverseRecOn with
  | nil => exact ⟨Nat.zero_le _, Nat.zero_le _, fun _ h => absurd h List.not_mem_nil⟩
  | append_singleton frames f ih =>
    rw [List.foldl_append, List.foldl_cons, List.foldl_nil]
    exact ih.applyClipTriggerFrame f.1 f.2

end Rows

theorem clipTrigger_reads (t : ClipTrigger) :
    Records.Reads ClipTrigger.read clipTriggerBytes some t := by
  intro rest
  have hconsume : decide (t.consume.toUInt8 ≠ 0) = t.consume := by cases t.consume <;> rfl
  change some ((do
    let class_ ← Class.fromU8 t.on.class_.asU8
    let edge ← Edge.fromU8 t.edge.asU8
    let action ← ClipAction.fromU8 t.action.asU8
    return (⟨⟨class_, fromLeBytes _ _⟩, edge, action, t.consume.toUInt8 ≠ 0⟩ : ClipTrigger)), 6) = _
  rw [Class.fromU8_asU8, Edge.fromU8_asU8, ClipAction.fromU8_asU8, fromLeBytes_toLeBytes]
  simp only [Option.bind_eq_bind, Option.bind_some, hconsume]
  rfl

theorem blanketScope_lt (scope : List Blanket) : (blanketScope scope).toNat < 2 ^ 5 := by
  have hbit : ∀ b : Blanket, b.clipLockBit.toNat < 2 ^ 5 := by
    intro b
    cases b <;> decide
  induction scope using List.reverseRecOn with
  | nil => decide
  | append_singleton scope b ih =>
    rw [blanketScope, List.foldl_append, List.foldl_cons, List.foldl_nil, UInt8.toNat_or]
    exact Nat.or_lt_two_pow ih (hbit b)

/-- The groups a scope names have its bits. -/
theorem blanketScope_blanketFromScope (scope : List Blanket) :
    blanketScope (blanketFromScope (blanketScope scope)) = blanketScope scope := by
  obtain ⟨k, hk, hscope⟩ := exists_ofNat (P := (· < 2 ^ 5)) (blanketScope_lt scope)
  rw [hscope]
  interval_cases k <;> rfl

theorem clipFlags_says (cfg : ClipSettings) :
    decide (clipFlags cfg &&& clipCfgFLoop ≠ 0) = cfg.loop_ ∧
      decide (clipFlags cfg &&& clipCfgFRetain ≠ 0) = cfg.retain ∧
      decide (clipFlags cfg &&& clipCfgFFinalized ≠ 0) = cfg.finalized ∧
      decide (clipFlags cfg &&& clipCfgFRide ≠ 0) = cfg.ride := by
  unfold clipFlags
  cases cfg.loop_ <;> cases cfg.retain <;> cases cfg.finalized <;> cases cfg.ride <;> decide

section Layout

variable (c : ClipStatus) (cfg : ClipSettings) (rows : Rows)

def packetSection : List UInt8 := UInt8.ofNat rows.length :: rows.flatMap packetTriggerBytes

def triggerSection : List UInt8 := cfg.triggers.flatMap clipTriggerBytes ++ packetSection rows

def configSection : List UInt8 :=
  blanketScope cfg.autolock :: clipFlags cfg :: UInt8.ofNat cfg.triggers.length ::
    triggerSection cfg rows

def heldSection : List UInt8 :=
  UInt8.ofNat c.held.length :: (c.held.flatMap Usage.pushLe ++ configSection cfg rows)

/-- What the box can say in one reply. -/
structure Sayable : Prop where
  held : c.held.length ≤ clipHeldMax
  triggers : cfg.triggers.length ≤ clipTrigMax
  packets : Holdable rows

variable {c cfg rows}

theorem clipStatusPayload_eq (h : Sayable c cfg rows) :
    clipStatusPayload c cfg rows = clipScalars c ++ heldSection c cfg rows := by
  unfold clipStatusPayload heldSection configSection triggerSection packetSection
  rw [List.take_of_length_le h.held, List.take_of_length_le h.triggers]
  simp only [List.append_assoc, List.cons_append]

theorem length_held : (c.held.flatMap Usage.pushLe).length = c.held.length * 3 := by
  simp only [List.length_flatMap, Usage.pushLe, List.length_cons, length_toLeBytes,
    List.map_const', List.sum_replicate, smul_eq_mul]

theorem length_triggers :
    (cfg.triggers.flatMap clipTriggerBytes).length = cfg.triggers.length * 6 := by
  simp only [List.length_flatMap, clipTriggerBytes, List.length_cons, List.length_append,
    List.length_nil, length_toLeBytes, List.map_const', List.sum_replicate, smul_eq_mul]

/-- Where the config, the input triggers and the packet triggers start. -/
def configAt (c : ClipStatus) : Nat := respClipHdr + c.held.length * 3

def packetsAt (c : ClipStatus) (cfg : ClipSettings) : Nat :=
  configAt c + 3 + cfg.triggers.length * 6

theorem drop_held (h : Sayable c cfg rows) :
    (clipStatusPayload c cfg rows).drop (respClipHdr - 1) = heldSection c cfg rows := by
  rw [clipStatusPayload_eq h]
  exact List.drop_left' rfl

theorem drop_config (h : Sayable c cfg rows) :
    (clipStatusPayload c cfg rows).drop (configAt c) = configSection cfg rows := by
  have hsplit : configAt c = respClipHdr - 1 + ((c.held.flatMap Usage.pushLe).length + 1) := by
    rw [length_held]
    simp only [configAt, respClipHdr]
    omega
  rw [hsplit, ← List.drop_drop, drop_held h, heldSection, List.drop_succ_cons, List.drop_left]

theorem drop_triggers (h : Sayable c cfg rows) :
    (clipStatusPayload c cfg rows).drop (configAt c + 3) = triggerSection cfg rows := by
  rw [← List.drop_drop, drop_config h]
  rfl

theorem drop_packets (h : Sayable c cfg rows) :
    (clipStatusPayload c cfg rows).drop (packetsAt c cfg) = packetSection rows := by
  rw [packetsAt, ← List.drop_drop, drop_triggers h, triggerSection, ← length_triggers,
    List.drop_left]

theorem length_clipStatusPayload (h : Sayable c cfg rows) :
    (clipStatusPayload c cfg rows).length =
      packetsAt c cfg + 1 + (rows.flatMap packetTriggerBytes).length := by
  rw [clipStatusPayload_eq h, List.length_append, heldSection, List.length_cons, List.length_append,
    configSection, List.length_cons, List.length_cons, List.length_cons, triggerSection,
    List.length_append, packetSection, List.length_cons, length_held, length_triggers]
  have hscalars : (clipScalars c).length = 30 := rfl
  simp only [hscalars, packetsAt, configAt, respClipHdr]
  omega

theorem toNat_count {n m : Nat} (h : n ≤ m) (hm : m < 256) : (UInt8.ofNat n).toNat = n := by
  rw [UInt8.toNat_ofNat']
  omega

theorem getElem?_of_drop {p q : List UInt8} {off : Nat} (h : p.drop off = q) (i : Nat) :
    p[off + i]? = q[i]? := by
  rw [← h, List.getElem?_drop]

theorem clipConfigOffset_payload (h : Sayable c cfg rows) :
    clipConfigOffset (clipStatusPayload c cfg rows) = some (configAt c) := by
  have hheld : (clipStatusPayload c cfg rows)[respClipHdr - 1]? =
      some (UInt8.ofNat c.held.length) := getElem?_of_drop (drop_held h) 0
  have htrig : (clipStatusPayload c cfg rows)[configAt c + 2]? =
      some (UInt8.ofNat cfg.triggers.length) := getElem?_of_drop (drop_config h) 2
  have hpkt : (clipStatusPayload c cfg rows)[packetsAt c cfg]? =
      some (UInt8.ofNat rows.length) := getElem?_of_drop (drop_packets h) 0
  have hdrop : (clipStatusPayload c cfg rows).drop (packetsAt c cfg + 1) =
      rows.flatMap packetTriggerBytes ++ [] := by
    rw [← List.drop_drop, drop_packets h, List.append_nil]
    rfl
  have hwalk := Records.walk_flatMap (fun r hr => (h.packets.admitted r hr).skips) hdrop
  have hend : (clipStatusPayload c cfg rows).length =
      packetsAt c cfg + 1 + (rows.flatMap packetTriggerBytes).length := length_clipStatusPayload h
  unfold clipConfigOffset
  simp only [hheld, Option.bind_eq_bind, Option.bind_some, toNat_count h.held (by decide),
    ← configAt.eq_def]
  simp only [htrig, Option.bind_some, toNat_count h.triggers (by decide), ← packetsAt.eq_def,
    if_neg (Nat.not_lt.mpr h.triggers)]
  simp only [hpkt, Option.bind_some, toNat_count h.packets.count (by decide),
    if_neg (Nat.not_lt.mpr h.packets.count), hwalk, hend, if_true]

theorem status_fromPayload (h : Sayable c cfg rows) :
    ClipStatus.fromPayload (clipStatusPayload c cfg rows) = some c := by
  have hlist : Usage.decodeList (heldSection c cfg rows) = some c.held := by
    have hdrop : (heldSection c cfg rows).drop 1 =
        c.held.flatMap Usage.pushLe ++ configSection cfg rows := rfl
    have hwalk := Records.walk_flatMap (fun u _ => Usage.reads u) hdrop
    unfold Usage.decodeList
    change (do return (← Records.walk Usage.read _ (UInt8.ofNat c.held.length).toNat 1).1) = _
    rw [toNat_count h.held (by decide), hwalk, List.map_id']
    rfl
  have hstate : ClipState.fromU8 (clipStateByte c.state) = some c.state := by
    cases c.state <;> rfl
  unfold ClipStatus.fromPayload
  rw [clipConfigOffset_payload h, drop_held h, hlist, clipStatusPayload_eq h]
  simp only [Option.bind_eq_bind, Option.bind_some, clipScalars, toLeBytes32, toLeBytes,
    List.cons_append, List.nil_append, fromLeBytes32_toLeBytes32, fromLeBytes_toLeBytes, hstate]
  rfl

theorem settings_fromPayload (h : Sayable c cfg rows) :
    ClipSettings.fromPayload (clipStatusPayload c cfg rows) =
      some { cfg with
        autolock := blanketFromScope (blanketScope cfg.autolock)
        packetTriggers := (rows.map fun r =>
          ClipPacketTriggerEntry.fromWire (packetTriggerBytes r)).reduceOption } := by
  have hscope := getElem?_of_drop (drop_config h) 0
  have hflags := getElem?_of_drop (drop_config h) 1
  have htrig := getElem?_of_drop (drop_config h) 2
  have hpkt := getElem?_of_drop (drop_packets h) 0
  have hwalkT := Records.walk_flatMap (fun t _ => clipTrigger_reads t) (drop_triggers h)
  have hdrop : (clipStatusPayload c cfg rows).drop (packetsAt c cfg + 1) =
      rows.flatMap packetTriggerBytes ++ [] := by
    rw [← List.drop_drop, drop_packets h, List.append_nil]
    rfl
  have hwalkP := Records.walk_flatMap (fun r hr => (h.packets.admitted r hr).reads) hdrop
  obtain ⟨hloop, hretain, hfinalized, hride⟩ := clipFlags_says cfg
  have htriggers : (cfg.triggers.map some).reduceOption = cfg.triggers := by
    simp [List.reduceOption]
  change (clipStatusPayload c cfg rows)[configAt c]? = some (blanketScope cfg.autolock) at hscope
  change (clipStatusPayload c cfg rows)[configAt c + 1]? = some (clipFlags cfg) at hflags
  change (clipStatusPayload c cfg rows)[configAt c + 2]? =
    some (UInt8.ofNat cfg.triggers.length) at htrig
  change (clipStatusPayload c cfg rows)[packetsAt c cfg]? = some (UInt8.ofNat rows.length) at hpkt
  unfold ClipSettings.fromPayload
  simp only [clipConfigOffset_payload h, Option.bind_eq_bind, Option.bind_some, hscope, hflags,
    htrig, toNat_count h.triggers (by decide), hwalkT, length_triggers, ← packetsAt.eq_def, hpkt,
    toNat_count h.packets.count (by decide), hwalkP, hloop, hretain, hfinalized, hride, htriggers,
    Option.pure_def]

/-- The settings as the host reads them back. -/
structure SettingsRead (cfg : ClipSettings) (rows : Rows) (cfg' : ClipSettings) : Prop where
  autolock : blanketScope cfg'.autolock = blanketScope cfg.autolock
  loop_ : cfg'.loop_ = cfg.loop_
  retain : cfg'.retain = cfg.retain
  finalized : cfg'.finalized = cfg.finalized
  ride : cfg'.ride = cfg.ride
  triggers : cfg'.triggers = cfg.triggers
  packetTriggers : List.Forall₂ Holds rows cfg'.packetTriggers

/-- Whatever the box can say in one reply fits a frame, and both decoders read it back. -/
theorem clip_survives_readback (c : ClipStatus) (cfg : ClipSettings) (rows : Rows)
    (hheld : c.held.length ≤ clipHeldMax) (htriggers : cfg.triggers.length ≤ clipTrigMax)
    (hpackets : Holdable rows) :
    (clipStatusPayload c cfg rows).length ≤ maxPayload ∧
      ClipStatus.fromPayload (clipStatusPayload c cfg rows) = some c ∧
      ∃ cfg', ClipSettings.fromPayload (clipStatusPayload c cfg rows) = some cfg' ∧
        SettingsRead cfg rows cfg' := by
  have h : Sayable c cfg rows := ⟨hheld, htriggers, hpackets⟩
  refine ⟨?_, status_fromPayload h, _, settings_fromPayload h, ?_⟩
  · have hcount := hpackets.count
    have hpool := hpackets.pool
    rw [length_clipStatusPayload h, length_packets hpackets.admitted]
    simp only [packetsAt, configAt, respClipHdr, clipHeldMax, clipTrigMax, clipPktTrigMax,
      clipPktMatchPool, clipPktTrigEntry, maxPayload] at *
    omega
  · exact
      { autolock := blanketScope_blanketFromScope cfg.autolock
        loop_ := rfl
        retain := rfl
        finalized := rfl
        ride := rfl
        triggers := rfl
        packetTriggers := Records.forall₂_reduceOption fun r hr =>
          (hpackets.admitted r hr).fromWire }

end Layout

/-- A loaded clip with a key held, an input trigger and a packet trigger that met two packets. -/
def playing : ClipStatus :=
  { ClipStatus.default with state := .playing, free := 4096, held := [⟨.key, 4⟩] }

def looping : ClipSettings where
  autolock := [.keys, .aim]
  loop_ := true
  retain := true
  finalized := true
  ride := false
  triggers := [⟨⟨.button, 1⟩, .press, .start, true⟩]
  packetTriggers := []

def reportRow : MockPacketTrigger where
  class_ := catchClsHidIn
  id := 2
  dir := lockDirPos
  action := clipOpStart
  flags := clipTrigFRun
  slen := 1
  matchBytes := [0x07, 0x20]
  mask := [0xFF, 0x20]
  hits := 70000
  live := true

theorem playing_survives_readback :
    (clipStatusPayload playing looping [reportRow]).length ≤ maxPayload ∧
      ClipStatus.fromPayload (clipStatusPayload playing looping [reportRow]) = some playing ∧
      ∃ cfg', ClipSettings.fromPayload (clipStatusPayload playing looping [reportRow]) = some cfg' ∧
        SettingsRead looping [reportRow] cfg' :=
  clip_survives_readback playing looping [reportRow] (by decide) (by decide)
    ⟨by decide, by decide, by
      simpa using ⟨by decide, clipTrigFPresent ||| clipTrigFRun, false, by decide, by decide⟩⟩

end Medius.Readback
