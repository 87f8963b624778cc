import Medius.Lib.Steps
import Medius.Protocol.Frame

/-! The reader thread, one separate access of the shared slot at a time, while another
thread swaps transports under it. -/

namespace Medius.Link

open Protocol

structure TransportSlot (τ : Type) where
  current : τ
  generation : Nat

structure Counters where
  framesRx : Nat := 0
  crcDrops : Nat := 0
  deriving DecidableEq

/-- Where the reader loop stands.  `top` is before it loads the generation. -/
inductive ReaderPoint (τ : Type)
  | spawned | top | fetch
  | read (current : τ)
  | feed (current : τ) (bytes : List UInt8)
  deriving DecidableEq

structure Reader (τ : Type) where
  slot : TransportSlot τ
  /-- A swap has replaced the transport and not moved the generation yet. -/
  swapping : Bool
  point : ReaderPoint τ
  decoder : FrameDecoder
  seenGeneration : Nat
  counters : Counters
  /-- The transports whose bytes this decoder has been fed. -/
  fedBy : List τ
  /-- The frames every decoder so far has rejected for a bad CRC. -/
  rejected : Nat

inductive ReaderLabel (τ : Type)
  | swapReplace (transport : τ)
  | swapMove
  | loop
  | readOk (bytes : List UInt8)
  | readErr
  deriving DecidableEq

namespace Reader

variable {τ : Type}

def start (transport : τ) : Reader τ where
  slot := ⟨transport, 0⟩
  swapping := false
  point := .spawned
  decoder := .new
  seenGeneration := 0
  counters := {}
  fedBy := []
  rejected := 0

def loadGeneration (s : Reader τ) : Reader τ :=
  if s.slot.generation ≠ s.seenGeneration then
    { s with
      point := .fetch
      decoder := .new
      seenGeneration := s.slot.generation
      fedBy := [] }
  else { s with point := .fetch }

def feedDecoder (s : Reader τ) (current : τ) (bytes : List UInt8) : Reader τ :=
  let (decoder, frames) := s.decoder.feed bytes
  { s with
    point := .top
    decoder := decoder
    counters := ⟨s.counters.framesRx + frames.length, decoder.crcErrorCount⟩
    fedBy := s.fedBy ++ [current]
    rejected := s.rejected + (decoder.crcErrorCount - s.decoder.crcErrorCount) }

/-- A read that fails hands over to the reconnect, which swaps like any other thread. -/
def next (s : Reader τ) : ReaderLabel τ → Option (Reader τ)
  | .swapReplace transport =>
    if s.swapping then none
    else some { s with slot := { s.slot with current := transport }, swapping := true }
  | .swapMove =>
    if s.swapping then
      some { s with
        slot := { s.slot with generation := s.slot.generation + 1 }
        swapping := false }
    else none
  | .loop =>
    match s.point with
    | .spawned => some { s with seenGeneration := s.slot.generation, point := .top }
    | .top => some s.loadGeneration
    | .fetch => some { s with point := .read s.slot.current }
    | .feed current bytes => some (s.feedDecoder current bytes)
    | .read _ => none
  | .readOk bytes =>
    match s.point with
    | .read current =>
      some { s with point := if bytes.isEmpty then .top else .feed current bytes }
    | _ => none
  | .readErr =>
    match s.point with
    | .read _ => some { s with point := .top }
    | _ => none

/-! ## One decoder, one transport -/

/-- The decoder has been fed by one transport only. -/
def OneTransport (s : Reader τ) : Prop := ∀ t ∈ s.fedBy, ∀ t' ∈ s.fedBy, t = t'

/-- The transport is fetched with no swap under way and none since the generation was
loaded. -/
def FetchInTime (s : Reader τ) : ReaderLabel τ → Prop
  | .loop => s.point = .fetch → s.swapping = false ∧ s.slot.generation = s.seenGeneration
  | _ => True

/-- No swap has touched the slot since the generation was loaded. -/
def Settled (s : Reader τ) : Prop := s.swapping = false ∧ s.slot.generation = s.seenGeneration

/-- The transport the reader has fetched and not fed from yet. -/
def fetched (s : Reader τ) : Option τ :=
  match s.point with
  | .read t | .feed t _ => some t
  | _ => none

/-- The transports this decoder has bytes of, fed or about to be. -/
def sources (s : Reader τ) : List τ := s.fedBy ++ s.fetched.toList

structure TransportInv (s : Reader τ) : Prop where
  seen : s.seenGeneration ≤ s.slot.generation
  spawned : s.point = .spawned → s.fedBy = []
  one : ∀ t ∈ s.sources, ∀ t' ∈ s.sources, t = t'
  current : s.Settled → ∀ t ∈ s.sources, t = s.slot.current

theorem start_transportInv (transport : τ) : (start transport).TransportInv where
  seen := le_rfl
  spawned _ := rfl
  one := by simp [sources, start, fetched]
  current := by simp [sources, start, fetched]

/-- Moving on with nothing new fetched. -/
theorem TransportInv.of_point {s : Reader τ} (h : s.TransportInv) {p : ReaderPoint τ}
    (hp : p ≠ .spawned)
    (hsub : ∀ t ∈ ({ s with point := p } : Reader τ).sources, t ∈ s.sources) :
    ({ s with point := p } : Reader τ).TransportInv where
  seen := h.seen
  spawned hs := absurd hs hp
  one t ht t' ht' := h.one t (hsub t ht) t' (hsub t' ht')
  current hs t ht := h.current hs t (hsub t ht)

theorem TransportInv.of_top {s : Reader τ} (h : s.TransportInv) :
    ({ s with point := .top } : Reader τ).TransportInv := by
  refine h.of_point (by simp) fun t ht => ?_
  simp only [sources, fetched, Option.toList_none, List.append_nil] at ht
  exact List.mem_append_left _ ht

theorem loadGeneration_transportInv {s : Reader τ} (h : s.TransportInv)
    (hp : s.point = .top) : s.loadGeneration.TransportInv := by
  unfold loadGeneration
  split
  · exact ⟨le_rfl, fun _ => rfl, by simp [sources, fetched], by simp [sources, fetched]⟩
  · exact h.of_point (by simp) fun t ht => by simpa [sources, fetched, hp] using ht

theorem next_transportInv {s s' : Reader τ} {l : ReaderLabel τ} (h : s.TransportInv)
    (hok : s.FetchInTime l) (hn : s.next l = some s') : s'.TransportInv := by
  cases l with
  | swapReplace transport =>
    simp only [next] at hn
    split at hn
    · cases hn
    · cases hn
      exact ⟨h.seen, h.spawned, h.one, fun hs => absurd hs.1 (by simp)⟩
  | swapMove =>
    simp only [next] at hn
    split at hn
    · cases hn
      refine ⟨h.seen.trans (Nat.le_succ _), h.spawned, h.one, fun hs => ?_⟩
      have hgen : s.slot.generation + 1 = s.seenGeneration := hs.2
      have hseen := h.seen
      omega
    · cases hn
  | loop =>
    simp only [next] at hn
    split at hn
    next hp =>
      cases hn
      have hfed := h.spawned hp
      exact ⟨le_rfl, by simp, by simp [sources, fetched, hfed], by simp [sources, fetched, hfed]⟩
    next hp =>
      cases hn
      exact loadGeneration_transportInv h hp
    next hp =>
      cases hn
      have hset : s.Settled := hok hp
      have hall : ∀ t ∈ s.fedBy ++ [s.slot.current], t = s.slot.current := by
        intro t ht
        rcases List.mem_append.mp ht with ht | ht
        · exact h.current hset t (List.mem_append_left _ ht)
        · exact List.mem_singleton.mp ht
      refine ⟨h.seen, by simp, fun t ht t' ht' => ?_, fun _ t ht => hall t ht⟩
      rw [hall t ht, hall t' ht']
    next current bytes hp =>
      cases hn
      have hsources : (s.feedDecoder current bytes).sources = s.sources := by
        simp [feedDecoder, sources, fetched, hp]
      refine ⟨h.seen, by simp [feedDecoder], ?_, fun hs => ?_⟩
      · rw [hsources]
        exact h.one
      · rw [hsources]
        exact h.current hs
    next => cases hn
  | readOk bytes =>
    simp only [next] at hn
    split at hn
    next current hp =>
      cases hn
      split
      · exact h.of_top
      · exact h.of_point (by simp) fun t ht => by simpa [sources, fetched, hp] using ht
    next => cases hn
  | readErr =>
    simp only [next] at hn
    split at hn
    next =>
      cases hn
      exact h.of_top
    next => cases hn

/-- While every fetch is in time, no decoder is fed by two transports. -/
theorem oneTransport_of_fetchInTime {τ : Type} (transport : τ) (labels : List (ReaderLabel τ))
    (s : Reader τ) (hok : Steps.Guarded next FetchInTime (start transport) labels)
    (hr : Steps.run next (start transport) labels = some s) : s.OneTransport := by
  have h := Steps.run_induction (fun _ _ _ hI hok hn => next_transportInv hI hok hn)
    (start_transportInv transport) hok hr
  exact fun t ht t' ht' =>
    h.one t (List.mem_append_left _ ht) t' (List.mem_append_left _ ht')

instance [DecidableEq τ] (s : Reader τ) : ∀ l, Decidable (s.FetchInTime l)
  | .loop =>
    inferInstanceAs (Decidable
      (s.point = .fetch → s.swapping = false ∧ s.slot.generation = s.seenGeneration))
  | .swapReplace _ | .swapMove | .readOk _ | .readErr => .isTrue trivial

/-- A swap that falls between the load and the fetch: one decoder reads the head of a frame
from the old transport and its rest from the new one. -/
theorem decoder_mixes_transports :
    let labels : List (ReaderLabel Bool) :=
      [.loop, .loop, .loop, .readOk [sof, 0x06], .loop,
        .loop, .swapReplace true, .loop, .readOk [sof, 0x06, 0, 0], .loop]
    ∃ s, Steps.run next (start false) labels = some s ∧ s.fedBy = [false, true] ∧
      ¬s.OneTransport := by
  refine ⟨_, rfl, rfl, fun h => ?_⟩
  exact absurd (h false (by decide) true (by decide)) (by decide)

/-- One round of the loop from its top, reading these bytes. -/
def round (bytes : List UInt8) : List (ReaderLabel Bool) :=
  [.loop, .loop, .readOk bytes, .loop]

/-- A swap that falls between two rounds of the loop is in time. -/
theorem oneTransport_of_fetchInTime_swap :
    ∃ s, Steps.run next (start false)
        (.loop :: round [sof, 0x06] ++ [.swapReplace true, .swapMove] ++ round [sof]) = some s ∧
      s.fedBy = [true] ∧ s.OneTransport := by
  obtain ⟨s, hr, hfed⟩ : ∃ s, Steps.run next (start false)
      (.loop :: round [sof, 0x06] ++ [.swapReplace true, .swapMove] ++ round [sof]) = some s ∧
      s.fedBy = [true] := ⟨_, rfl, rfl⟩
  exact ⟨s, hr, hfed, oneTransport_of_fetchInTime false _ s (by decide) hr⟩

/-! ## The published CRC drops -/

/-- No decoder is dropped after it has rejected a frame. -/
def RenewsClean (s : Reader τ) : ReaderLabel τ → Prop
  | .loop => s.point = .top → s.slot.generation ≠ s.seenGeneration → s.decoder.crcErrorCount = 0
  | _ => True

structure DropsInv (s : Reader τ) : Prop where
  published : s.counters.crcDrops = s.decoder.crcErrorCount
  counted : s.decoder.crcErrorCount = s.rejected

theorem start_drops (transport : τ) : (start transport).DropsInv := ⟨rfl, rfl⟩

theorem feedDecoder_drops {s : Reader τ} (h : s.DropsInv) (current : τ) (bytes : List UInt8) :
    (s.feedDecoder current bytes).DropsInv ∧
      s.counters.crcDrops ≤ (s.feedDecoder current bytes).counters.crcDrops := by
  have hle := FrameDecoder.crcErrorCount_le_feed s.decoder bytes
  obtain ⟨hpub, hcount⟩ := h
  refine ⟨⟨rfl, ?_⟩, ?_⟩
  · change (s.decoder.feed bytes).1.crcErrorCount =
      s.rejected + ((s.decoder.feed bytes).1.crcErrorCount - s.decoder.crcErrorCount)
    omega
  · rw [hpub]
    exact hle

theorem next_drops {s s' : Reader τ} {l : ReaderLabel τ} (h : s.DropsInv)
    (hok : s.RenewsClean l) (hn : s.next l = some s') :
    s'.DropsInv ∧ s.counters.crcDrops ≤ s'.counters.crcDrops := by
  cases l with
  | swapReplace transport =>
    simp only [next] at hn
    split at hn <;> cases hn
    exact ⟨⟨h.published, h.counted⟩, le_rfl⟩
  | swapMove =>
    simp only [next] at hn
    split at hn <;> cases hn
    exact ⟨⟨h.published, h.counted⟩, le_rfl⟩
  | loop =>
    simp only [next] at hn
    split at hn
    next =>
      cases hn
      exact ⟨⟨h.published, h.counted⟩, le_rfl⟩
    next hp =>
      cases hn
      unfold loadGeneration
      split
      next hgen =>
        have hzero : s.decoder.crcErrorCount = 0 := hok hp hgen
        obtain ⟨hpub, hcount⟩ := h
        exact ⟨⟨hpub.trans hzero, hzero.symm.trans hcount⟩, le_rfl⟩
      next => exact ⟨⟨h.published, h.counted⟩, le_rfl⟩
    next =>
      cases hn
      exact ⟨⟨h.published, h.counted⟩, le_rfl⟩
    next current bytes _ =>
      cases hn
      exact feedDecoder_drops h current bytes
    next => cases hn
  | readOk bytes =>
    simp only [next] at hn
    split at hn <;> cases hn
    exact ⟨⟨h.published, h.counted⟩, le_rfl⟩
  | readErr =>
    simp only [next] at hn
    split at hn <;> cases hn
    exact ⟨⟨h.published, h.counted⟩, le_rfl⟩

/-- While no decoder is dropped after it has rejected a frame, the published drops are all
the frames rejected so far, and they only grow. -/
theorem crcDrops_of_renewsClean {τ : Type} (transport : τ) (labels more : List (ReaderLabel τ))
    (s s' : Reader τ) (hok : Steps.Guarded next RenewsClean (start transport) (labels ++ more))
    (hr : Steps.run next (start transport) labels = some s)
    (hr' : Steps.run next s more = some s') :
    s.counters.crcDrops = s.rejected ∧ s'.counters.crcDrops = s'.rejected ∧
      s.counters.crcDrops ≤ s'.counters.crcDrops := by
  have hstep : ∀ (c : Nat) (s : Reader τ) l s', (s.DropsInv ∧ c ≤ s.counters.crcDrops) →
      s.RenewsClean l → next s l = some s' → s'.DropsInv ∧ c ≤ s'.counters.crcDrops := by
    intro c s l s' ⟨hinv, hle⟩ hok hn
    obtain ⟨hinv', hle'⟩ := next_drops hinv hok hn
    exact ⟨hinv', hle.trans hle'⟩
  obtain ⟨h, -⟩ := Steps.run_induction (hstep 0) ⟨start_drops transport, Nat.zero_le _⟩
    hok.of_append hr
  obtain ⟨h', hle⟩ := Steps.run_induction (hstep s.counters.crcDrops) ⟨h, le_rfl⟩
    (hok.of_append_right hr) hr'
  exact ⟨h.published.trans h.counted, h'.published.trans h'.counted, hle⟩

instance [DecidableEq τ] (s : Reader τ) : ∀ l, Decidable (s.RenewsClean l)
  | .loop =>
    inferInstanceAs (Decidable (s.point = .top →
      s.slot.generation ≠ s.seenGeneration → s.decoder.crcErrorCount = 0))
  | .swapReplace _ | .swapMove | .readOk _ | .readErr => .isTrue trivial

/-- A `QUERY` frame whose CRC is wrong. -/
def badFrame : List UInt8 := [sof, 0x05, 1, 0, 0, 0xFF, 0xFF]

/-- One frame is rejected on the first transport; the counter is back at zero after the
first read on the second. -/
theorem crcDrops_falls :
    (Steps.run next (start false) (.loop :: round badFrame)).map (·.counters.crcDrops) = some 1 ∧
      (Steps.run next (start false) (.loop :: round badFrame ++
        [.swapReplace true, .swapMove] ++ round [0])).map
        (fun s => (s.counters.crcDrops, s.rejected)) = some (0, 1) := by
  decide +kernel

/-- A first transport that rejects nothing, then one that rejects a frame. -/
theorem crcDrops_of_renewsClean_swap :
    ∃ s s', Steps.run next (start false) (.loop :: round [0]) = some s ∧
      Steps.run next s ([.swapReplace true, .swapMove] ++ round badFrame) = some s' ∧
      s'.counters.crcDrops = 1 ∧ s.counters.crcDrops = s.rejected ∧
      s'.counters.crcDrops = s'.rejected ∧ s.counters.crcDrops ≤ s'.counters.crcDrops := by
  have hdrops : (Steps.run next (start false) (.loop :: round [0] ++
      ([.swapReplace true, .swapMove] ++ round badFrame))).map (·.counters.crcDrops) = some 1 := by
    decide +kernel
  obtain ⟨s', hrun, hone⟩ := Option.map_eq_some_iff.mp hdrops
  rw [Steps.run_append] at hrun
  obtain ⟨s, hr, hr'⟩ := Option.bind_eq_some_iff.mp hrun
  exact ⟨s, s', hr, hr', hone,
    crcDrops_of_renewsClean false (.loop :: round [0])
      ([.swapReplace true, .swapMove] ++ round badFrame) s s' (by decide +kernel) hr hr'⟩

end Reader

end Medius.Link
