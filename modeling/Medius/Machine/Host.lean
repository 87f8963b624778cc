import Medius.Link.Route
import Medius.Machine.Wire

/-! A host's link and the box at the far end of the transport: commands, queries and their
waiters, the reader, the receivers of what it sorts, and whatever befalls the box, in any order. -/

namespace Medius.Machine

open Protocol Mock Link Medius.Types

/-- `backlog` is what the reader has decoded of its last read and not come to yet; `routed` is
history. -/
structure Host where
  exchange : Exchange
  inbox : Inbox
  backlog : List DecodedFrame
  routed : List DecodedFrame
  framesTx : Nat

/-- `ask` registers a waiter and writes its frame; `cancel` is a waiter's timeout; the reader
reads, then routes frame by frame. -/
inductive HostAct
  | ask (now : Nat) (ty expected : FrameType) (what : UInt8) (payload : List UInt8)
  | cancel (seq : UInt8) (genId : Nat)
  | send (now : Nat) (ty : FrameType) (payload : List UInt8)
  | read (n : Nat)
  | route (pauses : Pauses)
  | subscribe (sub : CatchSub)
  | unsubscribe (id : Nat)
  | recvEvent (id : Nat)
  | recvLog
  | push (f : DecodedFrame)
  | befall (now : Nat) (e : Box.Event)

namespace Host

variable (digest : List UInt8 → Vector UInt8 32)

def start (b : Box) : Host where
  exchange := .start b
  inbox := .start
  backlog := []
  routed := []
  framesTx := 0

/-- Nothing is written to a box that was refused. -/
def writeFrame (h : Host) (now : Nat) (seq : UInt8) (ty : FrameType) (payload : List UInt8) :
    Option (Host × Except Error Unit) :=
  match h.inbox.refused with
  | some got => some (h, .error (.badProtoVer got))
  | none =>
    match encode ty seq payload with
    | .error _ => some (h, .error .frameTooLong)
    | .ok frame => do
      let exchange ← h.exchange.next digest (.write now frame)
      return ({ h with exchange, framesTx := h.framesTx + 1 }, .ok ())

def correlate (h : Host) (l : CorrelationLabel) : Option Host := do
  let correlation ← h.inbox.correlation.next l
  return { h with inbox := { h.inbox with correlation } }

/-- The `SEQ` the next query takes. -/
def querySeq (h : Host) : UInt8 := (h.inbox.correlation.pending.takeSeq h.inbox.correlation.seq).1

/-- A waiter whose frame cannot be written is taken back. -/
def ask (h : Host) (now : Nat) (ty expected : FrameType) (what : UInt8) (payload : List UInt8) :
    Option Host := do
  let registered ← h.correlate (.register expected what)
  let (written, sent) ← registered.writeFrame digest now h.querySeq ty payload
  match sent with
  | .ok () => return written
  | .error _ => written.correlate (.cancel h.querySeq h.inbox.correlation.queryGen)

def send (h : Host) (now : Nat) (ty : FrameType) (payload : List UInt8) : Option Host := do
  let counted ← h.correlate (.otherFrames 1)
  let (written, _) ← counted.writeFrame digest now h.inbox.correlation.seq ty payload
  return written

def mapSubs (h : Host) (f : List Subscriber → List Subscriber) : Host :=
  { h with inbox := { h.inbox with subs := f h.inbox.subs } }

def next (h : Host) : HostAct → Option Host
  | .ask now ty expected what payload => h.ask digest now ty expected what payload
  | .cancel seq genId => h.correlate (.cancel seq genId)
  | .send now ty payload => h.send digest now ty payload
  | .read n =>
    if h.backlog = [] then do
      let exchange ← h.exchange.next digest (.read n)
      let backlog := (h.exchange.decoder.feed (h.exchange.transport.read n).1).2
      return { h with exchange, backlog }
    else none
  | .route pauses =>
    match h.backlog with
    | [] => none
    | f :: backlog =>
      some { h with
        inbox := h.inbox.routeFrame pauses f, backlog := backlog, routed := h.routed ++ [f] }
  | .subscribe sub => some (h.mapSubs (· ++ [⟨sub, {}, h.inbox.framesRx⟩]))
  | .unsubscribe id => some (h.mapSubs fun subs => subs.filter fun s => s.sub.id ≠ id)
  | .recvEvent id => some (h.mapSubs fun subs =>
      subs.map fun s => if s.sub.id = id then { s with queue := s.queue.receive } else s)
  | .recvLog => some { h with inbox := { h.inbox with logs := h.inbox.logs.receive } }
  | .push f => do
    let exchange ← h.exchange.next digest (.push f)
    return { h with exchange }
  | .befall now e => do
    let exchange ← h.exchange.next digest (.befall now e)
    return { h with exchange }

/-! ## What a step may change -/

/-- The host has decoded nothing more, and what was sent is still sent. -/
structure Wired (s s' : Exchange) : Prop where
  carried : Exchange.Carried digest .default s → Exchange.Carried digest .default s'
  whole : s.transport.outDecoder.state = .sof → s'.transport.outDecoder.state = .sof
  delivered : s'.delivered = s.delivered
  sent : s.sent <+: s'.sent

/-- What was decoded is routed, or next to be. -/
def Through (h : Host) : Prop := h.exchange.delivered = h.routed ++ h.backlog

/-- Nothing is routed, and waiters whose generation is `calm` keep their entry. -/
structure Quiet (calm : Nat → Prop) (h h' : Host) : Prop where
  carried : Exchange.Carried digest .default h.exchange →
    Exchange.Carried digest .default h'.exchange
  whole : h.exchange.transport.outDecoder.state = .sof →
    h'.exchange.transport.outDecoder.state = .sof
  sent : h.exchange.sent <+: h'.exchange.sent
  through : h.Through → h'.Through
  routed : h'.routed = h.routed
  sorted : ∀ sharp frames, h.inbox.Sorted sharp frames → h'.inbox.Sorted sharp frames
  received : h.inbox.correlation.received ⊆ h'.inbox.correlation.received
  pending : ∀ seq e, h.inbox.correlation.Inv → h.inbox.correlation.pending seq = some e →
    calm e.genId → h'.inbox.correlation.pending seq = some e

variable {digest}

theorem Wired.refl (s : Exchange) : Wired digest s s where
  carried := id
  whole := id
  delivered := rfl
  sent := List.prefix_rfl

theorem wired_write {s s' : Exchange} {now : Nat} {f : DecodedFrame} {frame : List UInt8}
    (henc : encode f.ty f.seq f.payload = .ok frame)
    (hs : s.next digest (.write now frame) = some s') : Wired digest s s' := by
  have hcarried (h : Exchange.Carried digest .default s) := h.write hs
  obtain ⟨-, rfl⟩ := Exchange.next_write hs
  refine ⟨hcarried, fun hidle => ?_, rfl, List.prefix_append _ _⟩
  have hfits := (encode_eq_ok henc).1 f (List.mem_singleton_self f)
  obtain ⟨d, hfeed, hsof, -⟩ := FrameDecoder.feed_frame hidle hfits
  rw [henc] at hfeed
  change (s.transport.outDecoder.feed frame).1.state = .sof
  exact (congrArg (fun r => r.1.state) hfeed).trans hsof

theorem wired_push {s s' : Exchange} {f : DecodedFrame}
    (hs : s.next digest (.push f) = some s') : Wired digest s s' := by
  have hcarried (h : Exchange.Carried digest .default s) := h.push hs
  unfold Exchange.next at hs
  dsimp only at hs
  unfold MockTransport.pushFrame at hs
  cases henc : encode f.ty f.seq f.payload with
  | error e =>
    rw [henc] at hs
    cases hs
  | ok bytes =>
    rw [henc] at hs
    cases hs
    exact ⟨hcarried, id, rfl, List.prefix_append _ _⟩

theorem wired_befall {s s' : Exchange} {now : Nat} {e : Box.Event}
    (hs : s.next digest (.befall now e) = some s') : Wired digest s s' := by
  have hcarried (h : Exchange.Carried digest .default s) := h.befall hs
  unfold Exchange.next at hs
  dsimp only at hs
  split at hs
  · cases hs
  · unfold MockTransport.befall at hs
    dsimp only at hs
    cases henc : Box.encodeAll (s.transport.box.step digest now e).2 with
    | error err =>
      rw [henc] at hs
      cases hs
    | ok bytes =>
      rw [henc] at hs
      cases hs
      exact ⟨hcarried, id, rfl, List.prefix_append _ _⟩

theorem Quiet.of_wired {h : Host} {s : Exchange} (hs : Wired digest h.exchange s) (tx : Nat) :
    Quiet digest (fun _ => True) h { h with exchange := s, framesTx := tx } where
  carried := hs.carried
  whole := hs.whole
  sent := hs.sent
  through := hs.delivered.trans
  routed := rfl
  sorted := fun _ _ hsorted => hsorted
  received := List.Subset.refl _
  pending := fun _ _ _ he _ => he

theorem Quiet.mono {P Q : Nat → Prop} {h h' : Host} (hq : Quiet digest P h h')
    (hpq : ∀ seq e, h.inbox.correlation.Inv → h.inbox.correlation.pending seq = some e →
      Q e.genId → P e.genId) : Quiet digest Q h h' :=
  { hq with pending := fun seq e hi he hQ => hq.pending seq e hi he (hpq seq e hi he hQ) }

theorem inv_correlate {h h' : Host} {l : CorrelationLabel} (hs : h.correlate l = some h')
    (hi : h.inbox.correlation.Inv) : h'.inbox.correlation.Inv := by
  obtain ⟨c, hc, rest⟩ := Option.bind_eq_some_iff.mp hs
  cases rest
  exact Correlation.next_inv hi hc

theorem quiet_correlate {h h' : Host} {l : CorrelationLabel} (hl : ∀ f, l ≠ .frame f)
    (hs : h.correlate l = some h') :
    Quiet digest (fun g => Correlation.Spares g h.inbox.correlation l) h h' := by
  obtain ⟨c, hc, rest⟩ := Option.bind_eq_some_iff.mp hs
  cases rest
  have hreceived := Correlation.received_next hl hc
  refine ⟨id, id, List.prefix_rfl, id, rfl, fun sharp frames hsorted => ?_,
    fun _ hp => hreceived ▸ hp, fun seq e _ he hcalm => Correlation.next_spares hcalm hc he⟩
  refine { hsorted with queries := Correlation.next_inv hsorted.queries hc, answers := ?_ }
  intro p hp
  exact hsorted.answers p (hreceived ▸ hp)

/-- A frame is written whole or not at all. -/
theorem writeFrame_cases {h h' : Host} {now : Nat} {seq : UInt8} {ty : FrameType}
    {payload : List UInt8} {r : Except Error Unit}
    (hs : h.writeFrame digest now seq ty payload = some (h', r)) :
    (h' = h ∧ ∃ err, r = .error err) ∨
      r = .ok () ∧ ∃ frame s, encode ty seq payload = .ok frame ∧
        h.exchange.next digest (.write now frame) = some s ∧
        h' = { h with exchange := s, framesTx := h.framesTx + 1 } := by
  unfold writeFrame at hs
  split at hs
  · cases hs
    exact .inl ⟨rfl, _, rfl⟩
  · split at hs
    · cases hs
      exact .inl ⟨rfl, _, rfl⟩
    next frame henc =>
      obtain ⟨s, hwrite, rest⟩ := Option.bind_eq_some_iff.mp hs
      cases rest
      exact .inr ⟨rfl, frame, s, henc, hwrite, rfl⟩

theorem quiet_writeFrame {h h' : Host} {now : Nat} {seq : UInt8} {ty : FrameType}
    {payload : List UInt8} {r : Except Error Unit}
    (hs : h.writeFrame digest now seq ty payload = some (h', r)) :
    Quiet digest (fun _ => True) h h' := by
  obtain ⟨rfl, -⟩ | ⟨-, frame, s, henc, hwrite, rfl⟩ := writeFrame_cases hs
  · exact .of_wired (.refl _) h'.framesTx
  · exact .of_wired (@wired_write digest _ _ _ ⟨ty, seq, payload⟩ _ henc hwrite) _

theorem Quiet.trans {P Q : Nat → Prop} {h h' h'' : Host} (hp : Quiet digest P h h')
    (hq : Quiet digest Q h' h'')
    (hi : h.inbox.correlation.Inv → h'.inbox.correlation.Inv) :
    Quiet digest (fun g => P g ∧ Q g) h h'' where
  carried := hq.carried ∘ hp.carried
  whole := hq.whole ∘ hp.whole
  sent := hp.sent.trans hq.sent
  through := hq.through ∘ hp.through
  routed := hq.routed.trans hp.routed
  sorted := fun sharp frames hsorted => hq.sorted sharp frames (hp.sorted sharp frames hsorted)
  received := List.Subset.trans hp.received hq.received
  pending := fun seq e hinv he hcalm =>
    hq.pending seq e (hi hinv) (hp.pending seq e hinv he hcalm.1) hcalm.2

/-- No step takes the waiter's entry away: no cancel of it, and no query while every `SEQ` is
taken. -/
def Calm (genId : Nat) (h : Host) : HostAct → Prop
  | .ask .. => h.inbox.correlation.pending.HasFree
  | .cancel _ g => g ≠ genId
  | _ => True

theorem correlation_writeFrame {h h' : Host} {now : Nat} {seq : UInt8} {ty : FrameType}
    {payload : List UInt8} {r : Except Error Unit}
    (hs : h.writeFrame digest now seq ty payload = some (h', r)) : h'.inbox = h.inbox := by
  obtain ⟨rfl, -⟩ | ⟨-, frame, s, henc, hwrite, rfl⟩ := writeFrame_cases hs <;> rfl

theorem quiet_ask {h h' : Host} {now : Nat} {ty expected : FrameType} {what : UInt8}
    {payload : List UInt8} (hs : h.ask digest now ty expected what payload = some h') :
    Quiet digest (fun _ => h.inbox.correlation.pending.HasFree) h h' := by
  simp only [ask, Option.bind_eq_bind, Option.bind_eq_some_iff] at hs
  obtain ⟨registered, hregister, ⟨written, sent⟩, hwrite, rest⟩ := hs
  have hregistered := inv_correlate hregister
  have hwritten := (@quiet_correlate digest _ _ _ (by simp) hregister).trans
    (quiet_writeFrame hwrite) hregistered
  dsimp only at rest
  cases sent with
  | ok =>
    cases rest
    exact hwritten.mono fun _ _ _ _ hfree => ⟨hfree, trivial⟩
  | error err =>
    refine (hwritten.trans (quiet_correlate (by simp) rest) fun hi => ?_).mono
      fun seq e hi he hfree => ?_
    · rw [correlation_writeFrame hwrite]
      exact hregistered hi
    · refine ⟨⟨hfree, trivial⟩, fun hsame => ?_⟩
      exact absurd hsame.symm (hi.fresh _ (hi.entry seq e he).1).ne

theorem quiet_send {h h' : Host} {now : Nat} {ty : FrameType} {payload : List UInt8}
    (hs : h.send digest now ty payload = some h') : Quiet digest (fun _ => True) h h' := by
  simp only [send, Option.bind_eq_bind, Option.bind_eq_some_iff] at hs
  obtain ⟨counted, hcount, ⟨written, sent⟩, hwrite, rest⟩ := hs
  cases rest
  have hwritten := (@quiet_correlate digest _ _ _ (by simp) hcount).trans
    (quiet_writeFrame hwrite) (inv_correlate hcount)
  exact hwritten.mono fun _ _ _ _ _ => ⟨trivial, trivial⟩

theorem quiet_mapSubs {h : Host} {f : List Subscriber → List Subscriber}
    (hf : ∀ sharp frames, h.inbox.Sorted sharp frames →
      ∀ s ∈ f h.inbox.subs, Inbox.Heard sharp frames s) :
    Quiet digest (fun _ => True) h (h.mapSubs f) where
  carried := id
  whole := id
  sent := List.prefix_rfl
  through := id
  routed := rfl
  sorted := fun sharp frames hsorted => { hsorted with subs := hf sharp frames hsorted }
  received := List.Subset.refl _
  pending := fun _ _ _ he _ => he

/-- A step routes one frame, or none. -/
theorem next_cases {h h' : Host} {a : HostAct} (hs : h.next digest a = some h') :
    (∃ pauses f, a = .route pauses ∧ h.backlog = f :: h'.backlog ∧
      h' = { h with
        inbox := h.inbox.routeFrame pauses f
        backlog := h'.backlog
        routed := h.routed ++ [f] }) ∨
    Quiet digest (fun g => Calm g h a) h h' := by
  cases a with
  | ask now ty expected what payload => exact .inr (quiet_ask hs)
  | cancel seq genId => exact .inr ((quiet_correlate (by simp) hs).mono fun _ _ _ _ hcalm => hcalm)
  | send now ty payload => exact .inr (quiet_send hs)
  | read n =>
    simp only [next] at hs
    split at hs
    next hdone =>
      obtain ⟨s, hread, rest⟩ := Option.bind_eq_some_iff.mp hs
      cases rest
      refine .inr ⟨fun hcarried => hcarried.read hread, ?_, ?_, fun hthrough => ?_, rfl,
        fun _ _ hsorted => hsorted, List.Subset.refl _, fun _ _ _ he _ => he⟩
      · cases hread
        exact id
      · cases hread
        exact List.prefix_rfl
      · cases hread
        change h.exchange.delivered ++ _ = h.routed ++ _
        rw [hthrough, hdone, List.append_nil]
        rfl
    · cases hs
  | route pauses =>
    simp only [next] at hs
    split at hs
    · cases hs
    next f backlog hbacklog =>
      cases hs
      exact .inl ⟨pauses, f, rfl, hbacklog, rfl⟩
  | subscribe sub =>
    cases hs
    refine .inr (quiet_mapSubs fun sharp frames hsorted s hmem => ?_)
    obtain hold | hnew := List.mem_append.mp hmem
    · exact hsorted.subs s hold
    · cases List.mem_singleton.mp hnew
      refine ⟨hsorted.count.le, DropOldest.idle_empty _ _, ?_⟩
      change [] = (frames.drop h.inbox.framesRx).filterMap _
      rw [hsorted.count, List.drop_length]
      rfl
  | unsubscribe id =>
    cases hs
    exact .inr (quiet_mapSubs fun sharp frames hsorted s hmem =>
      hsorted.subs s (List.mem_filter.mp hmem).1)
  | recvEvent id =>
    cases hs
    refine .inr (quiet_mapSubs fun sharp frames hsorted s hmem => ?_)
    obtain ⟨t, ht, rfl⟩ := List.mem_map.mp hmem
    have hheard := hsorted.subs t ht
    split
    · exact ⟨hheard.since, hheard.queue.receive, hheard.offered⟩
    · exact hheard
  | recvLog =>
    cases hs
    exact .inr ⟨id, id, List.prefix_rfl, id, rfl,
      fun _ _ hsorted => { hsorted with logs := hsorted.logs.receive }, List.Subset.refl _,
      fun _ _ _ he _ => he⟩
  | push f =>
    obtain ⟨s, hpush, rest⟩ := Option.bind_eq_some_iff.mp hs
    cases rest
    exact .inr (.of_wired (wired_push hpush) _)
  | befall now e =>
    obtain ⟨s, hbefall, rest⟩ := Option.bind_eq_some_iff.mp hs
    cases rest
    exact .inr (.of_wired (wired_befall hbefall) _)

/-- No subscription's queue is emptied between the reader's finding it full and its making room. -/
def Prompt : HostAct → Prop
  | .route pauses => ∀ id, (pauses.events id).evict < catchCapacity
  | _ => True

/-- The host's end and the box's agree on every frame between them. -/
structure Linked (digest : List UInt8 → Vector UInt8 32) (sharp : Prop) (h : Host) : Prop where
  carried : Exchange.Carried digest .default h.exchange
  whole : h.exchange.transport.outDecoder.state = .sof
  through : h.Through
  sorted : h.inbox.Sorted sharp h.routed

variable {sharp : Prop}

theorem Linked.start : Linked digest sharp (.start .default) := ⟨.start _, rfl, rfl, .start⟩

theorem Linked.next {h h' : Host} (hl : Linked digest sharp h) {a : HostAct}
    (ha : sharp → Prompt a) (hs : h.next digest a = some h') : Linked digest sharp h' := by
  obtain ⟨pauses, f, rfl, hbacklog, hroute⟩ | hquiet := next_cases hs
  · rw [hroute]
    refine ⟨hl.carried, hl.whole, ?_, hl.sorted.route ha f⟩
    change h.exchange.delivered = h.routed ++ [f] ++ h'.backlog
    rw [hl.through, hbacklog, List.append_assoc]
    rfl
  · refine ⟨hquiet.carried hl.carried, hquiet.whole hl.whole, hquiet.through hl.through, ?_⟩
    rw [hquiet.routed]
    exact hquiet.sorted _ _ hl.sorted

theorem linked_of_run {acts : List HostAct} {h : Host} (hacts : sharp → ∀ a ∈ acts, Prompt a)
    (hr : Steps.run (Host.next digest) (.start .default) acts = some h) :
    Linked digest sharp h :=
  Steps.run_induction (fun _ _ _ hl ha hs => hl.next ha hs) .start
    (.of_forall (fun a ha _ hsharp => hacts hsharp a ha) _) hr

/-- In every run each frame the host has routed is where it belongs.  Acknowledgements are all
there, log lines and each subscription's events but for those the queue made room over, none of
which a subscription leaves uncounted; a waiter has at most one reply, routed and its own. -/
theorem frames_sorted {acts : List HostAct} {h : Host}
    (hr : Steps.run (Host.next digest) (.start .default) acts = some h) :
    let frames := h.routed
    let i := h.inbox
    (frames ++ h.backlog <+: h.exchange.sent ∧
      (h.exchange.transport.inbound = [] → frames ++ h.backlog = h.exchange.sent)) ∧
    i.framesRx = frames.length ∧ i.updates = frames.filterMap Inbox.updateOf ∧
    ((i.logs.received ++ i.logs.items).Sublist (frames.filterMap Inbox.lineOf) ∧
      i.logs.items.length ≤ logsCapacity) ∧
    (∀ s ∈ i.subs, let events := (frames.drop s.since).filterMap (Inbox.eventFor s.sub)
      (s.queue.received ++ s.queue.items).Sublist events ∧
        s.queue.items.length ≤ catchCapacity ∧
        events.length ≤ s.queue.dropped + (s.queue.received.length + s.queue.items.length) ∧
        ((∀ a ∈ acts, Prompt a) →
          s.queue.dropped + (s.queue.received.length + s.queue.items.length) = events.length)) ∧
    i.correlation.Delivers ∧ ∀ p ∈ i.correlation.received, p.2 ∈ frames := by
  intro frames i
  obtain ⟨hcarried, -, hthrough, hsorted⟩ :=
    @linked_of_run digest (∀ a ∈ acts, Prompt a) acts h id hr
  have hsent := hcarried.sent_eq.1
  rw [show h.exchange.delivered = frames ++ h.backlog from hthrough] at hsent
  refine ⟨⟨⟨_, hsent.symm⟩, fun hdrained => ?_⟩, hsorted.count, hsorted.updates, ?_, fun s hs => ?_,
    hsorted.queries.toDelivers, hsorted.answers⟩
  · rw [hdrained] at hsent
    exact (List.append_nil _).symm.trans hsent.symm
  · obtain ⟨horder, hroom, -⟩ := hsorted.logs.balance
    exact ⟨hsorted.lines ▸ horder, hroom⟩
  · have hheard := hsorted.subs s hs
    change _ ∧ _ ∧ ((frames.drop s.since).filterMap (Inbox.eventFor s.sub)).length ≤ _ ∧
      (_ → _ = ((frames.drop s.since).filterMap (Inbox.eventFor s.sub)).length)
    rw [← hheard.offered]
    exact hheard.queue.balance

/-- A query, a log line and an event for a subscription, routed and received, then a reboot. -/
def busy : List HostAct :=
  [.subscribe Deliver.axisX, .ask 1 .query .resp qVersion [qVersion], .push ⟨.log, 0, [1, 72, 105]⟩,
    .push ⟨.motionEvent, 0, [0, 0, 0, 0, 0, 1, 0, 0, 0, 0, 0, 0, 0]⟩, .read 512, .route {},
    .route {}, .route {}, .recvEvent 0, .recvLog, .befall 2 .restart, .read 64]

theorem frames_sorted_busy :
    ∃ h : Host, Steps.run (Host.next fun _ => Vector.replicate 32 0) (.start .default) busy =
        some h ∧
      (h.routed.length = 3 ∧ h.backlog.length = 1 ∧ h.inbox.correlation.received.length = 1 ∧
        h.inbox.logs.received.length = 1 ∧
        h.inbox.subs.map (fun s => s.queue.received.length) = [1]) ∧
      let frames := h.routed
      let i := h.inbox
      (frames ++ h.backlog <+: h.exchange.sent ∧
        (h.exchange.transport.inbound = [] → frames ++ h.backlog = h.exchange.sent)) ∧
      i.framesRx = frames.length ∧ i.updates = frames.filterMap Inbox.updateOf ∧
      ((i.logs.received ++ i.logs.items).Sublist (frames.filterMap Inbox.lineOf) ∧
        i.logs.items.length ≤ logsCapacity) ∧
      (∀ s ∈ i.subs, let events := (frames.drop s.since).filterMap (Inbox.eventFor s.sub)
        (s.queue.received ++ s.queue.items).Sublist events ∧
          s.queue.items.length ≤ catchCapacity ∧
          events.length ≤ s.queue.dropped + (s.queue.received.length + s.queue.items.length) ∧
          ((∀ a ∈ busy, Prompt a) →
            s.queue.dropped + (s.queue.received.length + s.queue.items.length) =
              events.length)) ∧
      i.correlation.Delivers ∧ ∀ p ∈ i.correlation.received, p.2 ∈ frames := by
  have hrun : ((Steps.run (Host.next fun _ => Vector.replicate 32 0) (.start .default) busy).map
      fun h => (h.routed.length, h.backlog.length, h.inbox.correlation.received.length,
        h.inbox.logs.received.length, h.inbox.subs.map fun s => s.queue.received.length)) =
          some (3, 1, 1, 1, [1]) := by decide +kernel
  obtain ⟨h, hr, hfacts⟩ := Option.map_eq_some_iff.mp hrun
  simp only [Prod.mk.injEq] at hfacts
  exact ⟨h, hr, hfacts, frames_sorted hr⟩

end Host

end Medius.Machine
