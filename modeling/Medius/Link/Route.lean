import Medius.Link.Correlation
import Medius.Link.Deliver
import Medius.Link.Restart
import Medius.Protocol.Response
import Medius.Types.Log

/-! Where the reader puts each frame it decodes. -/

namespace Medius.Link

open Protocol Medius.Types DropOldest

abbrev logsCapacity : Nat := 1024

/-- One subscription's queue; `since` is how many frames had come when it began. -/
structure Subscriber where
  sub : CatchSub
  queue : Queue CatchEvent
  since : Nat

def Subscriber.deliver (s : Subscriber) (gaps : Gaps) (event : CatchEvent) : Subscriber :=
  if wanted s.sub event then { s with queue := s.queue.push catchCapacity gaps event } else s

/-- What is received while the reader routes one frame: the log lines, and the events of each
subscription. -/
structure Pauses where
  logs : Gaps := {}
  events : Nat → Gaps := fun _ => {}

/-- What the reader hands frames to.  `updates` is what went into the channel; nothing counts the
lines that `logs` drops. -/
structure Inbox where
  correlation : Correlation
  watch : Watch
  refused : Option UInt8
  logs : Queue LogLine
  updates : List (List UInt8)
  subs : List Subscriber
  framesRx : Nat

namespace Correlation

/-- A frame that is nothing to this entry. -/
def Foreign (seq : UInt8) (e : PendingEntry) (f : DecodedFrame) : Prop :=
  f.seq ≠ seq ∨ f.ty ≠ e.expectedTy ∨ f.payload.head? ≠ some e.expectedWhat

/-- A frame the entry waits for. -/
structure Replies (e : PendingEntry) (f : DecodedFrame) : Prop where
  ty : e.expectedTy = f.ty
  kind : f.ty = .resp ∨ f.ty = .transferResp
  what : f.payload.head? = some e.expectedWhat
  not_hello : f.seq ≠ helloSeq

variable {c : Correlation} {seq : UInt8} {e : PendingEntry} {f : DecodedFrame}

theorem deliver_foreign (he : c.pending seq = some e) (hf : Foreign seq e f) :
    (c.deliver f).pending seq = some e := by
  unfold deliver
  rcases deliver_spec c.pending f with hd | ⟨e', he', hty, hwhat, hd⟩
  · rw [hd]
    exact he
  · rw [hd]
    have hne : seq ≠ f.seq := by
      rintro rfl
      cases he.symm.trans he'
      exact hf.elim (absurd rfl) (·.elim (absurd hty.symm) (absurd hwhat))
    exact (Function.update_of_ne hne _ _).trans he

theorem routeFrame_foreign (he : c.pending seq = some e) (hf : Foreign seq e f) :
    (c.routeFrame f).pending seq = some e := by
  unfold routeFrame
  split
  · split
    · exact he
    · exact deliver_foreign he hf
  · exact deliver_foreign he hf
  · exact he

theorem mem_received_deliver {p : Nat × DecodedFrame} (hp : p ∈ (c.deliver f).received) :
    p ∈ c.received ∨ p.2 = f := by
  unfold deliver at hp
  split at hp
  · exact (List.mem_append.mp hp).imp_right fun h => congrArg Prod.snd (List.mem_singleton.mp h)
  · exact .inl hp

theorem mem_received_routeFrame {p : Nat × DecodedFrame} (hp : p ∈ (c.routeFrame f).received) :
    p ∈ c.received ∨ p.2 = f := by
  unfold routeFrame at hp
  split at hp
  · split at hp
    · exact .inl hp
    · exact mem_received_deliver hp
  · exact mem_received_deliver hp
  · exact .inl hp

theorem received_deliver (c : Correlation) (f : DecodedFrame) :
    c.received ⊆ (c.deliver f).received := by
  unfold deliver
  split
  · exact List.subset_append_left _ _
  · exact List.Subset.refl _

theorem received_routeFrame (c : Correlation) (f : DecodedFrame) :
    c.received ⊆ (c.routeFrame f).received := by
  unfold routeFrame
  split
  · split
    · exact List.Subset.refl _
    · exact received_deliver c f
  · exact received_deliver c f
  · exact List.Subset.refl _

theorem routeFrame_replies (he : c.pending f.seq = some e) (hf : Replies e f) :
    (e.genId, f) ∈ (c.routeFrame f).received := by
  have hdeliver : (e.genId, f) ∈ (c.deliver f).received := by
    unfold deliver Pending.deliver
    rw [he]
    dsimp only
    rw [if_pos ⟨hf.ty, hf.what⟩]
    exact List.mem_append_right _ (List.mem_singleton_self _)
  unfold routeFrame
  split
  · rw [if_neg fun h => hf.not_hello h.1]
    exact hdeliver
  · exact hdeliver
  next hresp htransfer => exact (hf.kind.elim hresp htransfer).elim

/-- A registration where a `SEQ` is free, a cancel of another's and frames without a reply leave an
entry as it is. -/
def Spares (genId : Nat) (c : Correlation) : CorrelationLabel → Prop
  | .register .. => c.pending.HasFree
  | .cancel _ g => g ≠ genId
  | .frame _ => False
  | .otherFrames _ => True

theorem next_spares {c' : Correlation} {l : CorrelationLabel} (hs : Spares e.genId c l)
    (hn : c.next l = some c') (he : c.pending seq = some e) : c'.pending seq = some e := by
  cases l with
  | register ty what =>
    cases hn
    exact ((Pending.spares_iff _ c.queryGen c.seq ty what).mpr hs).kept seq e he
  | cancel s g =>
    simp only [next] at hn
    split at hn
    · cases hn
      exact cancel_kept he (Ne.symm hs)
    · cases hn
  | frame f => exact hs.elim
  | otherFrames sent =>
    cases hn
    exact he

theorem received_next {c' : Correlation} {l : CorrelationLabel} (hl : ∀ f, l ≠ .frame f)
    (hn : c.next l = some c') : c'.received = c.received := by
  cases l with
  | register ty what =>
    cases hn
    rfl
  | cancel s g =>
    simp only [next] at hn
    split at hn
    · cases hn
      rfl
    · cases hn
  | frame f => exact absurd rfl (hl f)
  | otherFrames sent =>
    cases hn
    rfl

end Correlation

namespace Inbox

def start : Inbox where
  correlation := .start 0
  watch := {}
  refused := none
  logs := {}
  updates := []
  subs := []
  framesRx := 0

def noteReply (i : Inbox) : Inbox := { i with watch := i.watch.noteReply }

/-- A box back on another protocol is refused. -/
def noteHello (i : Inbox) (payload : List UInt8) : Inbox :=
  match parseResp payload with
  | .value (.version v) =>
    if v.protoVer ≠ protoVer then { i with refused := some v.protoVer }
    else
      { i with
        refused := none
        watch := i.watch.noteHello (some v.protoVer) i.refused.isSome }
  | _ => i

def deliverEvent (i : Inbox) (events : Nat → Gaps) (ty : FrameType) (payload : List UInt8) :
    Inbox :=
  match decodeEvent ty payload with
  | some event => { i with subs := i.subs.map fun s => s.deliver (events s.sub.id) event }
  | none => i

def routeFrame (i : Inbox) (pauses : Pauses) (f : DecodedFrame) : Inbox :=
  let i := { i with framesRx := i.framesRx + 1 }
  match f.ty with
  | .resp =>
    if f.seq = helloSeq ∧ f.payload.head? = some qVersion then i.noteHello f.payload
    else { i.noteReply with correlation := i.correlation.deliver f }
  | .transferResp => { i.noteReply with correlation := i.correlation.deliver f }
  | .log => { i with logs := i.logs.push logsCapacity pauses.logs (parseLog f.payload) }
  | .motionEvent | .usageEvent | .trafficEvent => i.deliverEvent pauses.events f.ty f.payload
  | .updateResp => { i.noteReply with updates := i.updates ++ [f.payload] }
  | _ => i

/-! ## What a frame is to each of them -/

def updateOf (f : DecodedFrame) : Option (List UInt8) :=
  if f.ty = .updateResp then some f.payload else none

def lineOf (f : DecodedFrame) : Option LogLine :=
  if f.ty = .log then some (parseLog f.payload) else none

def eventFor (sub : CatchSub) (f : DecodedFrame) : Option CatchEvent :=
  (decodeEvent f.ty f.payload).filter (wanted sub)

theorem noteHello_frame (i : Inbox) (payload : List UInt8) :
    ∃ watch refused, i.noteHello payload = { i with watch := watch, refused := refused } := by
  unfold noteHello
  split
  · split <;> exact ⟨_, _, rfl⟩
  · exact ⟨_, _, rfl⟩

section Route

variable (i : Inbox) (pauses : Pauses) (f : DecodedFrame)

theorem deliverEvent_frame (events : Nat → Gaps) (ty : FrameType) (payload : List UInt8) :
    i.deliverEvent events ty payload = { i with
      subs := i.subs.map fun s =>
        (decodeEvent ty payload).elim s (s.deliver (events s.sub.id)) } := by
  unfold deliverEvent
  cases decodeEvent ty payload with
  | none => simp
  | some event => rfl

/-- A frame goes to one place only. -/
theorem routeFrame_frame : i.routeFrame pauses f =
    { correlation := i.correlation.routeFrame f
      watch := (i.routeFrame pauses f).watch
      refused := (i.routeFrame pauses f).refused
      logs := (lineOf f).elim i.logs (i.logs.push logsCapacity pauses.logs)
      updates := i.updates ++ (updateOf f).toList
      subs := i.subs.map fun s =>
        (decodeEvent f.ty f.payload).elim s (s.deliver (pauses.events s.sub.id))
      framesRx := i.framesRx + 1 } := by
  obtain ⟨ty, seq, payload⟩ := f
  cases ty
  case resp =>
    by_cases hhello : seq = helloSeq ∧ payload.head? = some qVersion
    · obtain ⟨watch, refused, hnote⟩ :=
        noteHello_frame { i with framesRx := i.framesRx + 1 } payload
      simp [routeFrame, hhello, hnote, Correlation.routeFrame, lineOf, updateOf, decodeEvent]
    · simp [routeFrame, hhello, noteReply, Correlation.routeFrame, lineOf, updateOf, decodeEvent]
  case motionEvent | usageEvent | trafficEvent =>
    simp [routeFrame, deliverEvent_frame, Correlation.routeFrame, lineOf, updateOf]
  all_goals
    simp [routeFrame, noteReply, Correlation.routeFrame, lineOf, updateOf, decodeEvent]

end Route

/-- What a subscription was offered of the frames since it began; `sharp`, if its queue was never
emptied as the reader came to make room. -/
structure Heard (sharp : Prop) (frames : List DecodedFrame) (s : Subscriber) : Prop where
  since : s.since ≤ frames.length
  queue : Idle catchCapacity sharp s.queue
  offered : s.queue.offered = (frames.drop s.since).filterMap (eventFor s.sub)

/-- Every frame that came is where it belongs, in its order. -/
structure Sorted (sharp : Prop) (frames : List DecodedFrame) (i : Inbox) : Prop where
  count : i.framesRx = frames.length
  updates : i.updates = frames.filterMap updateOf
  logs : Idle logsCapacity False i.logs
  lines : i.logs.offered = frames.filterMap lineOf
  subs : ∀ s ∈ i.subs, Heard sharp frames s
  queries : i.correlation.Inv
  answers : ∀ p ∈ i.correlation.received, p.2 ∈ frames

variable {sharp : Prop} {frames : List DecodedFrame} {i : Inbox} {pauses : Pauses}

theorem Sorted.start : Sorted sharp [] start where
  count := rfl
  updates := rfl
  logs := idle_empty _ _
  lines := rfl
  subs := fun _ h => absurd h List.not_mem_nil
  queries := Correlation.start_inv 0
  answers := fun _ h => absurd h List.not_mem_nil

theorem Heard.route {s : Subscriber} (h : Heard sharp frames s) {gaps : Gaps}
    (hgaps : sharp → gaps.evict < catchCapacity) (f : DecodedFrame) :
    Heard sharp (frames ++ [f]) ((decodeEvent f.ty f.payload).elim s (s.deliver gaps)) := by
  have hdrop : (frames ++ [f]).drop s.since = frames.drop s.since ++ [f] :=
    List.drop_append_of_le_length h.since
  have hsince : s.since ≤ (frames ++ [f]).length := by
    rw [List.length_append]
    exact h.since.trans (Nat.le_add_right _ _)
  have hsame (hnone : eventFor s.sub f = none) : Heard sharp (frames ++ [f]) s := by
    refine ⟨hsince, h.queue, ?_⟩
    rw [hdrop, List.filterMap_append, ← h.offered, List.filterMap_cons_none hnone]
    exact (List.append_nil _).symm
  cases hevent : decodeEvent f.ty f.payload with
  | none => exact hsame (by simp [eventFor, hevent])
  | some event =>
    change Heard sharp _ (s.deliver gaps event)
    unfold Subscriber.deliver
    split
    next hwanted =>
      obtain ⟨hqueue, hoffered⟩ := h.queue.push (by decide) hgaps event
      refine ⟨hsince, hqueue, ?_⟩
      have hsome : eventFor s.sub f = some event := by simp [eventFor, hevent, hwanted]
      rw [hoffered, hdrop, List.filterMap_append, ← h.offered, List.filterMap_cons_some hsome]
      rfl
    next hwanted => exact hsame (by simpa [eventFor, hevent] using hwanted)

theorem Sorted.route (h : Sorted sharp frames i)
    (hpauses : sharp → ∀ id, (pauses.events id).evict < catchCapacity) (f : DecodedFrame) :
    Sorted sharp (frames ++ [f]) (i.routeFrame pauses f) := by
  rw [routeFrame_frame]
  constructor
  · rw [List.length_append]
    exact congrArg (· + 1) h.count
  · rw [List.filterMap_append, h.updates]
    cases hupdate : updateOf f <;> simp [hupdate]
  · cases hline : lineOf f with
    | none => exact h.logs
    | some line => exact (h.logs.push (by decide) False.elim line).1
  · rw [List.filterMap_append, ← h.lines]
    cases hline : lineOf f with
    | none => simp [hline]
    | some line => simpa [hline] using (h.logs.push (by decide) False.elim line).2
  · intro s hs
    obtain ⟨s, hmem, rfl⟩ := List.mem_map.mp hs
    exact (h.subs s hmem).route (fun hsharp => hpauses hsharp s.sub.id) f
  · exact Correlation.routeFrame_inv h.queries f
  · intro p hp
    rw [List.mem_append, List.mem_singleton]
    exact (Correlation.mem_received_routeFrame hp).imp_left (h.answers p)

theorem correlation_routeFrame (i : Inbox) (pauses : Pauses) (f : DecodedFrame) :
    (i.routeFrame pauses f).correlation = i.correlation.routeFrame f := by
  rw [routeFrame_frame]

end Inbox

end Medius.Link
