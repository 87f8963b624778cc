import Medius.Mock.Replies
import Medius.Protocol.Response

/-! What each reply reads back as, byte for byte: what it was packed from, less what no reply has
room or a spelling for. -/

namespace Medius.Readback

open Protocol Mock Device Medius.Types Checked Checked.Reading

section Fixed

theorem ite_length {α : Type} {p : List UInt8} {n : Nat} {r : Reading α} (h : n ≤ p.length) :
    (if p.length < n then refused else r) = r := if_neg (Nat.not_lt.mpr h)

def saidVersion (v : Version) : Version := 
  { v with name := .lossy (v.name.bytes.take nameMax) }

theorem version_reads (v : Version) (hmac : v.mac.length = 6) :
    Version.fromPayload (versionPayload v) = value (saidVersion v) := by
  obtain ⟨pv, maj, min, pat, mac, name⟩ := v
  match mac, hmac with
  | [m₀, m₁, m₂, m₃, m₄, m₅], _ =>
    rw [Version.fromPayload, ite_length (by simp [versionPayload])]
    simp [versionPayload, slice, sliceFrom, saidVersion]

theorem toUInt8_and_ne_zero (f : UInt16) (m : UInt8) :
    f.toUInt8 &&& m ≠ 0 ↔ f &&& m.toUInt16 ≠ 0 := by
  have hm : m.toNat < 2 ^ 8 := m.toNat_lt
  have hand : (f.toUInt8 &&& m).toNat = (f &&& m.toUInt16).toNat := by
    have h := Nat.and_mod_two_pow (a := f.toNat) (b := m.toNat) (n := 8)
    rw [Nat.mod_eq_of_lt hm, Nat.mod_eq_of_lt (Nat.and_lt_two_pow _ hm)] at h
    rw [UInt8.toNat_and, UInt16.toNat_and, UInt16.toNat_toUInt8, UInt8.toNat_toUInt16, h]
  rw [ne_eq, ne_eq, ← UInt8.toNat_inj, ← UInt16.toNat_inj, hand]
  rfl

theorem or_and_ne_zero (a b m : UInt16) : (a ||| b) &&& m ≠ 0 ↔ a &&& m ≠ 0 ∨ b &&& m ≠ 0 := by
  have hdist : (a ||| b) &&& m = (a &&& m) ||| (b &&& m) := by
    apply UInt16.toNat_inj.mp
    simp only [UInt16.toNat_and, UInt16.toNat_or, Nat.and_or_distrib_right]
  rw [hdist, ne_eq, UInt16.or_eq_zero_iff, not_and_or]

theorem flag_and_ne_zero (on : Bool) (bit m : UInt16) :
    (if on then bit else 0) &&& m ≠ 0 ↔ on ∧ bit &&& m ≠ 0 := by
  cases on <;> simp

theorem fromFlags_toFlags (h : Health) : Health.fromFlags h.toFlags = h := by
  simp only [Health.fromFlags, Health.toFlags, toUInt8_and_ne_zero, or_and_ne_zero,
    flag_and_ne_zero]
  simp +decide only [and_true, and_false, or_false, false_or, Bool.decide_eq_true]

theorem health_reads (h : Health) : Health.fromPayload (healthPayload h) = value h := by
  change (do
    let flags ← le16 (toLeBytes h.toFlags) 0
    return Health.fromFlags flags) = _
  simp only [le16, toLeBytes, index_cons_zero, index_cons_succ, value_bind, pure_eq,
    fromLeBytes_toLeBytes, fromFlags_toFlags]

def saidInfo (m : DeviceInfo) : DeviceInfo :=
  { m with product := .lossy (m.product.bytes.take deviceInfoProductMax) }

theorem deviceInfo_reads (m : DeviceInfo) :
    DeviceInfo.fromPayload (deviceInfoPayload m) = value (saidInfo m) := by
  have hkind : DeviceKind.fromU8 (deviceKindByte m.kind) = m.kind := by cases m.kind <;> rfl
  have hserial : decide ((flag m.hasSerial diHasSerial ||| flag m.hasBos diHasBos) &&& diHasSerial
      ≠ 0) = m.hasSerial := by
    cases m.hasSerial <;> cases m.hasBos <;> decide
  have hbos : decide ((flag m.hasSerial diHasSerial ||| flag m.hasBos diHasBos) &&& diHasBos
      ≠ 0) = m.hasBos := by
    cases m.hasSerial <;> cases m.hasBos <;> decide
  rw [DeviceInfo.fromPayload, ite_length (by simp [deviceInfoPayload, toLeBytes])]
  simp only [deviceInfoPayload, toLeBytes, List.cons_append, List.nil_append, le16, index_cons_succ,
    index_cons_zero, value_bind, pure_eq, fromLeBytes_toLeBytes, hkind, hserial, hbos]
  simp [sliceFrom, saidInfo]

theorem caps_reads (c : Reply.Caps) : Reply.Caps.fromPayload (capsPayload c) = value c := by
  obtain ⟨⟨nb, x, y, w, pan, rid, nh⟩, ⟨nk, nkro, cons, sys, krid⟩, mcd, kcd⟩ := c
  rw [Reply.Caps.fromPayload, ite_length (by simp [capsPayload])]
  simp only [capsPayload, index_cons_succ, index_cons_zero, value_bind, pure_eq]
  congr 2
  · congr 1
    all_goals revert x y w pan rid; decide
  · congr 1
    all_goals revert nkro cons sys krid; decide
  · revert mcd kcd
    decide
  · revert mcd kcd
    decide

def saidRate (r : Rate) : Rate := { r with changeDriven := false }

theorem rate_reads (r : Rate) : Rate.fromPayload (ratePayload r) = value (saidRate r) := by
  have hflags : decide (flag r.confident Protocol.rateConfident &&& Protocol.rateConfident ≠ 0) =
      r.confident ∧
      decide (flag r.confident Protocol.rateConfident &&& rateChangeDriven ≠ 0) = false := by
    cases r.confident <;> decide
  rw [Rate.fromPayload, ite_length (by simp [ratePayload, toLeBytes])]
  simp only [ratePayload, toLeBytes, List.cons_append, List.nil_append, le16, index_cons_succ,
    index_cons_zero, value_bind, pure_eq, fromLeBytes_toLeBytes, hflags.1, hflags.2, saidRate]

theorem stats_reads (s : Stats) : Stats.fromPayload (statsPayload s) = value s := by
  rw [Stats.fromPayload, ite_length (by simp [statsPayload, toLeBytes, toLeBytes32])]
  simp only [statsPayload, toLeBytes, toLeBytes32, List.cons_append, List.nil_append, le16, le32,
    index_cons_succ, index_cons_zero, value_bind, pure_eq, fromLeBytes_toLeBytes,
    fromLeBytes32_toLeBytes32]

theorem toUInt8_ne_zero (b : Bool) : decide (b.toUInt8 ≠ 0) = b := by cases b <;> rfl

theorem imperfect_reads (i : ImperfectStatus) :
    ImperfectStatus.fromPayload (optionsImperfectPayload i) = value i := by
  rw [ImperfectStatus.fromPayload, ite_length (by simp [optionsImperfectPayload])]
  simp only [optionsImperfectPayload, index_cons_succ, index_cons_zero, value_bind, pure_eq,
    toUInt8_ne_zero]

theorem movementRiding_reads (ms : UInt16) :
    movementRidingFromPayload (optionsMoveRidePayload ms) = value (window ms) := by
  rw [movementRidingFromPayload, ite_length (by simp [optionsMoveRidePayload, toLeBytes])]
  simp only [optionsMoveRidePayload, toLeBytes, le16, index_cons_succ, index_cons_zero, value_bind,
    pure_eq, fromLeBytes_toLeBytes]

/-- A window that is on is read back as at least a millisecond. -/
def saidBearing (b : Bearing) : Bearing :=
  { b with window := b.window.map fun ms => if ms = 0 then 1 else ms }

theorem window_rideWindowMs (w : Option UInt16) :
    window (rideWindowMs (w.map millis)) = w.map fun ms => if ms = 0 then 1 else ms := by
  cases w with
  | none => rfl
  | some ms =>
    rw [Option.map_some, Option.map_some]
    by_cases h : ms = 0
    · rw [h, if_pos rfl, show rideWindowMs (some (millis 0)) = 1 by decide]
      rfl
    · rw [rideWindowMs_millis h, window, if_pos h, if_neg h]

theorem bearing_reads (b : Bearing) :
    Bearing.fromPayload (optionsBearingPayload b) = value (saidBearing b) := by
  rw [Bearing.fromPayload, ite_length (by simp [optionsBearingPayload, toLeBytes])]
  simp only [optionsBearingPayload, toLeBytes, List.cons_append, List.nil_append, le16,
    index_cons_succ, index_cons_zero, value_bind, pure_eq, fromLeBytes_toLeBytes,
    BearingMode.fromU8_asU8, ofOption_some, window_rideWindowMs, saidBearing]

theorem render_reads (mode : RenderMode) (full ready : Bool) :
    RenderStatus.fromPayload (optionsRenderPayload mode full ready) =
      value ⟨mode, full, ready⟩ := by
  rw [RenderStatus.fromPayload, ite_length (by simp [optionsRenderPayload])]
  simp only [optionsRenderPayload, index_cons_succ, index_cons_zero, value_bind, pure_eq,
    RenderMode.fromU8_toWire, ofOption_some, toUInt8_ne_zero]

theorem spread_reads (percent : UInt16) (learnedUs : UInt32) :
    SpreadStatus.fromPayload (optionsSpreadPayload percent learnedUs) =
      value ⟨percent, spreadSpan percent learnedUs⟩ := by
  rw [SpreadStatus.fromPayload, ite_length (by simp [optionsSpreadPayload, toLeBytes, toLeBytes32])]
  simp only [optionsSpreadPayload, toLeBytes, toLeBytes32, List.cons_append, List.nil_append, le16,
    le32, index_cons_succ, index_cons_zero, value_bind, pure_eq, fromLeBytes_toLeBytes,
    fromLeBytes32_toLeBytes32]

/-- The box paces at a rate it can pace at. -/
def saidPace : EmitPace → EmitPace
  | .fixed hz => .fixed (if hz = 0 then 1000 else min hz 1000)
  | pace => pace

def saidEmit (pace : EmitPace) (render : RenderMode) (renderReady : Bool)
    (forceHz : Option UInt16) (nativeHz : UInt16) (allowed : Bool) : EmitPaceStatus :=
  let resolved := (resolvePace pace).2.2
  let force := forceHz.filter fun hz => hz ≠ 0 && allowed
  { mode := saidPace pace
    resolvedHz := if render ≠ .off ∧ renderReady ∧ resolved = 0 then 1000 else resolved
    forceHz := forceHz.filter (· ≠ 0)
    advertisedHz := force.elim nativeHz fun hz => UInt16.ofNat (1000 / forcedInterval hz)
    forceActive := force.isSome }

theorem forceHz_reads (forceHz : Option UInt16) :
    (if forceHz.getD 0 ≠ 0 then some (forceHz.getD 0) else none) = forceHz.filter (· ≠ 0) := by
  cases forceHz with
  | none => rfl
  | some hz => by_cases h : hz = 0 <;> simp [h, Option.filter]

theorem emitBytes_reads (pace : EmitPace) (resolved force advertised : UInt16) (active : Bool) :
    EmitPaceStatus.fromPayload (qOptions :: optEmit :: (resolvePace pace).1 ::
        toLeBytes (resolvePace pace).2.1 ++ toLeBytes resolved ++ toLeBytes force ++
        toLeBytes advertised ++ [active.toUInt8]) =
      value ⟨saidPace pace, resolved, if force ≠ 0 then some force else none, advertised,
        active⟩ := by
  rw [EmitPaceStatus.fromPayload, ite_length (by simp [toLeBytes])]
  cases pace with
  | learned | interval | fixed hz =>
    simp only [resolvePace, toLeBytes, List.cons_append, List.nil_append, le16, index_cons_succ,
      index_cons_zero, value_bind, pure_eq, fromLeBytes_toLeBytes, toUInt8_ne_zero, saidPace]
    rfl

theorem emitPace_reads (pace : EmitPace) (render : RenderMode) (renderReady : Bool)
    (forceHz : Option UInt16) (nativeHz : UInt16) (allowed : Bool) :
    EmitPaceStatus.fromPayload
        (optionsEmitPayload pace render renderReady forceHz nativeHz allowed) =
      value (saidEmit pace render renderReady forceHz nativeHz allowed) := by
  unfold optionsEmitPayload saidEmit
  rw [← forceHz_reads]
  cases forceHz.filter fun hz => hz ≠ 0 && allowed <;> exact emitBytes_reads pace _ _ _ _

end Fixed

section Catch

/-- The estimate in the one spelling the block has for it. -/
def saidClock (c : ClockEstimate) : ClockEstimate :=
  { c with
    ratePpb := c.ratePpb.filter (· ≠ clkRateNone)
    age := c.age.map fun ms => min ms 0xFFFE }

theorem ratePpb_reads (rate : Option Int32) :
    (if rate.getD clkRateNone = clkRateNone then none else some (rate.getD clkRateNone)) =
      rate.filter (· ≠ clkRateNone) := by
  cases rate with
  | none => rfl
  | some r => by_cases h : r = clkRateNone <;> simp [h, Option.filter]

theorem age_reads (age : Option UInt16) :
    (if (age.elim 0xFFFF fun ms => min ms 0xFFFE) = 0xFFFF then none
      else some (age.elim 0xFFFF fun ms => min ms 0xFFFE)) = age.map fun ms => min ms 0xFFFE := by
  cases age with
  | none => rfl
  | some ms =>
    refine if_neg fun h => ?_
    have hle : (min ms 0xFFFE).toNat ≤ 0xFFFE := by
      change (if ms ≤ 0xFFFE then ms else 0xFFFE).toNat ≤ _
      split
      next hms => exact UInt16.le_iff_toNat_le.mp hms
      next => exact le_rfl
    have hval : (min ms 0xFFFE).toNat = 0xFFFF := congrArg UInt16.toNat h
    omega

theorem clock_reads (c : ClockEstimate) :
    ClockEstimate.fromPayload (clockBytes c) = value (saidClock c) := by
  rw [ClockEstimate.fromPayload, ite_length (by simp [clockBytes, toLeBytes, toLeBytes32])]
  simp only [clockBytes, toLeBytes, toLeBytes32, List.cons_append, List.nil_append, le16, le32,
    index_cons_succ, index_cons_zero, value_bind, pure_eq, fromLeBytes_toLeBytes,
    fromLeBytes32_toLeBytes32, Int32.toInt32_toUInt32, age_reads, ratePpb_reads, saidClock]

/-- An id no wire byte says is every id, and a prefix of no bytes the whole packet. -/
def saidFilter (f : CatchFilter) : CatchFilter where
  class_ := f.class_
  id := f.id.filter (· ≠ catchIdAny)
  direction := f.direction
  capture := f.capture.normal
  id_of_class := fun h => by rw [f.id_of_class h, Option.filter_none]

theorem capture_reads (c : Capture) : Capture.fromU8 c.asU8 = c.normal := by
  cases c with
  | whole => rfl
  | first n => by_cases h : n = 0 <;> simp [Capture.fromU8, Capture.asU8, Capture.normal,
      Capture.bytes, h]

theorem filter_reads (f : CatchFilter) :
    CatchFilter.fromWire f.wire.1 f.wire.2 f.direction.asU8 f.capture.asU8 =
      some (saidFilter f) := by
  obtain ⟨class_, id, direction, capture, hid⟩ := f
  cases class_ with
  | none =>
    obtain rfl : id = none := hid rfl
    simp [CatchFilter.fromWire, CatchFilter.wire, saidFilter, capture_reads]
  | some c =>
    cases id with
    | none =>
      simp [CatchFilter.fromWire, CatchFilter.wire, saidFilter, capture_reads,
        CatchClass.asU8_ne_any]
    | some i =>
      by_cases h : i = catchIdAny <;>
        simp [CatchFilter.fromWire, CatchFilter.wire, saidFilter, capture_reads,
          CatchClass.asU8_ne_any, Option.filter, h]

def saidEntry (e : CatchEntry) : CatchEntry := { e with filter := saidFilter e.filter }

def saidCatch (c : CatchState) : CatchState :=
  { c with clock := saidClock c.clock, entries := (c.entries.take catchMaxn).map saidEntry }

theorem length_catchEntryBytes (e : CatchEntry) : (catchEntryBytes e).length = CatchState.entry :=
  rfl

theorem readEntry_reads {p rest : List UInt8} {o : Nat} {e : CatchEntry}
    (h : p.drop o = catchEntryBytes e ++ rest) :
    CatchState.readEntry p o = value (some (saidEntry e)) := by
  have hat : ∀ i, index p (o + i) = index (catchEntryBytes e ++ rest) i := fun i => by
    rw [← h, index_drop]
  have h0 := hat 0
  rw [Nat.add_zero] at h0
  unfold CatchState.readEntry le16
  rw [h0, hat 1, hat (1 + 1), hat 3, hat 4, hat 5, hat (5 + 1)]
  simp only [catchEntryBytes, toLeBytes, List.cons_append, List.nil_append, index_cons_succ,
    index_cons_zero, value_bind, pure_eq, fromLeBytes_toLeBytes, filter_reads, saidEntry]

theorem readEntries_reads {p : List UInt8} {o : Nat} {entries : List CatchEntry}
    (h : p.drop o = entries.flatMap catchEntryBytes) :
    CatchState.readEntries p entries.length o =
      value (entries.map fun e => some (saidEntry e)) := by
  induction entries generalizing o with
  | nil => rfl
  | cons e entries ih =>
    rw [List.flatMap_cons] at h
    have hlen := congrArg List.length h
    rw [List.length_drop, List.length_append, length_catchEntryBytes] at hlen
    have hnext : p.drop (o + CatchState.entry) = entries.flatMap catchEntryBytes := by
      rw [← List.drop_drop, h, List.drop_left' (length_catchEntryBytes e)]
    have hin : ¬o + CatchState.entry > p.length := by
      simp only [CatchState.entry] at hlen ⊢
      omega
    rw [List.length_cons, CatchState.readEntries, if_neg hin, readEntry_reads h, ih hnext]
    rfl

theorem reduceOption_map_some {α β : Type} (f : α → β) (l : List α) :
    (l.map fun a => some (f a)).reduceOption = l.map f := by
  simp [List.reduceOption, List.filterMap_map]

theorem catch_reads (c : CatchState) :
    CatchState.fromPayload (catchRespPayload c) = value (saidCatch c) := by
  have hcount : (c.entries.take catchMaxn).length ≤ 32 := List.length_take_le _ _
  have hbyte : (UInt8.ofNat (c.entries.take catchMaxn).length).toNat =
      (c.entries.take catchMaxn).length := by
    rw [UInt8.toNat_ofNat']
    omega
  have hflag : decide (c.tableFull.toUInt8 &&& 0x01 ≠ 0) = c.tableFull := by
    cases c.tableFull <;> rfl
  have hrows : CatchState.readEntries (catchRespPayload c) (c.entries.take catchMaxn).length
      CatchState.hdr = _ := readEntries_reads rfl
  have hclock : slice (catchRespPayload c) 6 18 = value (clockBytes c.clock) := by
    rw [slice, if_pos ⟨by decide, by simp [catchRespPayload, clockBytes, toLeBytes, toLeBytes32]⟩]
    rfl
  have hlen : CatchState.hdr ≤ (catchRespPayload c).length := by
    simp [catchRespPayload, clockBytes, toLeBytes, toLeBytes32, CatchState.hdr]
  rw [CatchState.fromPayload, ite_length hlen]
  have hn : index (catchRespPayload c) 18 = value (UInt8.ofNat (c.entries.take catchMaxn).length) :=
    rfl
  have hfull : index (catchRespPayload c) 1 = value c.tableFull.toUInt8 := rfl
  have hdropped : le32 (catchRespPayload c) 2 = value c.dropped := by
    simp only [catchRespPayload, toLeBytes32, List.cons_append, List.nil_append, le32,
      index_cons_succ, index_cons_zero, value_bind, pure_eq, fromLeBytes32_toLeBytes32]
  simp only [hn, value_bind, hbyte, hrows, hfull, hflag, hdropped, hclock, clock_reads, pure_eq,
    reduceOption_map_some, saidCatch]

end Catch

section Firmware

/-- Both chips run the version the box says; only the device chip is ever on probation. -/
def saidFirmware (v : Version) (update : UpdateState) (pending : Bool) : FirmwareInfo where
  device := ⟨v.fwMajor, v.fwMinor, v.fwPatch, 0, if pending then .pendingVerify else .valid⟩
  host := some ⟨v.fwMajor, v.fwMinor, v.fwPatch, 0, .valid⟩
  slotSize := UInt32.ofNat mockSlotSize
  deviceStaged := update.device.staged
  hostStaged := update.host.staged

theorem firmware_reads (v : Version) (update : UpdateState) (pending : Bool) :
    FirmwareInfo.fromPayload (firmwarePayload v update pending) =
      value (saidFirmware v update pending) := by
  have hstaged : ∀ d h : Bool, decide ((d.toUInt8 ||| h.toUInt8 <<< 1) &&& 0x01 ≠ 0) = d ∧
      decide ((d.toUInt8 ||| h.toUInt8 <<< 1) &&& 0x02 ≠ 0) = h := by decide
  have hstate : ImageState.fromU8 (if pending then 1 else 2) =
      if pending then .pendingVerify else .valid := by
    cases pending <;> rfl
  rw [FirmwareInfo.fromPayload, ite_length (by simp [firmwarePayload, toLeBytes32])]
  simp only [firmwarePayload, toLeBytes32, List.cons_append, List.nil_append, le32,
    ChipFirmware.readAt, index_cons_succ, index_cons_zero, value_bind, pure_eq,
    fromLeBytes32_toLeBytes32, (hstaged _ _).1, (hstaged _ _).2, hstate, ne_eq,
    not_true_eq_false, if_false]
  rfl

end Firmware

section Rows

theorem mapM_eq_value {α : Type} {f : Nat → Reading α} {as : List α}
    (h : ∀ i a, as[i]? = some a → f i = value a) :
    (List.range as.length).mapM f = value as := by
  induction as generalizing f with
  | nil => rfl
  | cons a as ih =>
    have hrest : (List.range as.length).mapM (fun i => f (i + 1)) = value as :=
      ih fun i b hb => h (i + 1) b hb
    rw [List.length_cons, List.range_succ_eq_map, List.mapM_cons, h 0 a rfl, List.mapM_map]
    simp only [Function.comp_def, Nat.succ_eq_add_one, hrest, value_bind, pure_eq]

theorem slice?_flatMap {α : Type} {size : Nat} {bytes : α → List UInt8}
    (hlen : ∀ a, (bytes a).length = size) {as : List α} {i : Nat} {a : α} (h : as[i]? = some a) :
    slice? (as.flatMap bytes) (size * i) (size * i + size) = some (bytes a) := by
  induction as generalizing i with
  | nil => cases h
  | cons b as ih =>
    cases i with
    | zero =>
      cases h
      rw [List.flatMap_cons, Nat.mul_zero, Nat.zero_add, ← hlen a, slice?,
        if_pos ⟨Nat.zero_le _, by simp⟩, List.take_left, List.drop_zero]
    | succ i =>
      have hcons := slice?_append (bytes b) (as.flatMap bytes) (size * i) (size * i + size)
      rw [hlen, ih h] at hcons
      rw [List.flatMap_cons, Nat.mul_succ, Nat.add_comm (size * i) size, Nat.add_assoc]
      exact hcons

/-- Rows laid end to end are read back one by one. -/
theorem readRows_reads {α β : Type} (size : Nat) {base : Nat} {bytes : α → List UInt8}
    {R : α → β → Prop} {readRow : List UInt8 → Reading (Option β)} (head : List UInt8)
    {as : List α} (hbase : head.length = base) (hlen : ∀ a, (bytes a).length = size)
    (hread : ∀ a ∈ as, ∃ b, readRow (bytes a) = value (some b) ∧ R a b) :
    ∃ bs, readRows size readRow (head ++ as.flatMap bytes) base as.length = value bs ∧
      List.Forall₂ R as bs := by
  obtain ⟨bs, hbs⟩ : ∃ bs, List.Forall₂ (fun a b => readRow (bytes a) = value (some b) ∧ R a b)
      as bs := by
    induction as with
    | nil => exact ⟨[], .nil⟩
    | cons a as ih =>
      obtain ⟨bs, hbs⟩ := ih fun a ha => hread a (List.mem_cons_of_mem _ ha)
      obtain ⟨b, hb⟩ := hread a List.mem_cons_self
      exact ⟨b :: bs, .cons hb hbs⟩
  refine ⟨bs, ?_, hbs.imp fun _ _ h => h.2⟩
  have hrows : (List.range (bs.map some).length).mapM (fun i => do
      readRow (← ofOption (slice? (head ++ as.flatMap bytes) (base + size * i)
        (base + size * i + size)))) = value (bs.map some) := by
    refine mapM_eq_value fun i row hrow => ?_
    rw [List.getElem?_map, Option.map_eq_some_iff] at hrow
    obtain ⟨b, hb, rfl⟩ := hrow
    obtain ⟨hi, rfl⟩ := List.getElem?_eq_some_iff.mp hb
    have hi' : i < as.length := hbs.length_eq ▸ hi
    rw [← hbase, Nat.add_assoc, slice?_append,
      slice?_flatMap hlen (List.getElem?_eq_getElem hi')]
    exact (hbs.get hi' hi).1
  rw [List.length_map, ← hbs.length_eq] at hrows
  unfold readRows
  dsimp only
  rw [hrows, value_bind, pure_eq]
  simp [List.reduceOption]

end Rows

end Medius.Readback
