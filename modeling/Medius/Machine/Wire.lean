import Medius.Framing.Decoder
import Medius.Lib.Steps
import Medius.Machine.Stored
import Medius.Mock.Transport

/-! A host and the box over the transport's bytes, written and read in whatever pieces. -/

namespace Medius.Machine

open Protocol Mock Medius.Types

section Encoding

/-- Frames back to back. -/
def bytesOf (frames : List DecodedFrame) : List UInt8 := wire (frames.map ([], ·))

theorem bytesOf_append (fs gs : List DecodedFrame) :
    bytesOf (fs ++ gs) = bytesOf fs ++ bytesOf gs := by
  rw [bytesOf, List.map_append, wire_append]
  rfl

def Fits (frames : List DecodedFrame) : Prop := ∀ f ∈ frames, f.payload.length ≤ maxPayload

theorem Fits.append {fs gs : List DecodedFrame} (hf : Fits fs) (hg : Fits gs) :
    Fits (fs ++ gs) := fun f h => (List.mem_append.mp h).elim (hf f) (hg f)

theorem encode_eq_ok {f : DecodedFrame} {bytes : List UInt8}
    (h : encode f.ty f.seq f.payload = .ok bytes) : Fits [f] ∧ bytes = bytesOf [f] := by
  have hfits : f.payload.length ≤ maxPayload := by
    unfold encode at h
    split at h
    · cases h
    next hlen => exact Nat.not_lt.mp hlen
  refine ⟨fun g hg => List.mem_singleton.mp hg ▸ hfits, ?_⟩
  simp [bytesOf, h, Except.toOption]

theorem mapM_encode {frames : List DecodedFrame} {encoded : List (List UInt8)}
    (h : frames.mapM (fun f => encode f.ty f.seq f.payload) = .ok encoded) :
    Fits frames ∧ encoded.flatten = bytesOf frames := by
  induction frames generalizing encoded with
  | nil =>
    cases h
    exact ⟨fun _ h => absurd h List.not_mem_nil, rfl⟩
  | cons f frames ih =>
    rw [List.mapM_cons] at h
    cases hone : encode f.ty f.seq f.payload with
    | error e =>
      rw [hone] at h
      cases h
    | ok one =>
      rw [hone] at h
      cases hrest : frames.mapM fun f => encode f.ty f.seq f.payload with
      | error e =>
        rw [hrest] at h
        cases h
      | ok rest =>
        rw [hrest] at h
        cases h
        obtain ⟨hfits, hone⟩ := encode_eq_ok hone
        obtain ⟨hfits', hrest⟩ := ih hrest
        refine ⟨hfits.append hfits', ?_⟩
        rw [List.flatten_cons, hone, hrest, ← bytesOf_append]
        rfl

theorem encodeAll_eq_ok {frames : List DecodedFrame} {bytes : List UInt8}
    (h : Box.encodeAll frames = .ok bytes) : Fits frames ∧ bytes = bytesOf frames := by
  unfold Box.encodeAll at h
  cases henc : frames.mapM fun f => encode f.ty f.seq f.payload with
  | error e =>
    rw [henc] at h
    cases h
  | ok encoded =>
    rw [henc] at h
    cases h
    exact mapM_encode henc

end Encoding

section Exchange

variable (digest : List UInt8 → Vector UInt8 32)

/-- The frames the box sends over a run of timed events. -/
def outputs (b : Box) : List (Nat × Box.Event) → List DecodedFrame
  | [] => []
  | e :: events => (b.step digest e.1 e.2).2 ++ outputs (b.step digest e.1 e.2).1 events

theorem run_append (b : Box) (es es' : List (Nat × Box.Event)) :
    run digest b (es ++ es') = run digest (run digest b es) es' := List.foldl_append ..

theorem outputs_append (b : Box) (es es' : List (Nat × Box.Event)) :
    outputs digest b (es ++ es') = outputs digest b es ++ outputs digest (run digest b es) es' := by
  induction es generalizing b with
  | nil => rfl
  | cons e es ih =>
    rw [List.cons_append, outputs, ih, outputs, List.append_assoc]
    rfl

def frameEvents (now : Nat) (frames : List DecodedFrame) : List (Nat × Box.Event) :=
  frames.map fun f => (now, .frame f)

theorem foldlM_answer {now : Nat} {frames : List DecodedFrame} {b b' : Box}
    {replies replies' : List UInt8}
    (h : frames.foldlM (MockTransport.answer digest now) (b, replies) = .ok (b', replies')) :
    b' = run digest b (frameEvents now frames) ∧
      Fits (outputs digest b (frameEvents now frames)) ∧
      replies' = replies ++ bytesOf (outputs digest b (frameEvents now frames)) := by
  induction frames generalizing b replies with
  | nil =>
    cases h
    exact ⟨rfl, fun _ h => absurd h List.not_mem_nil, (List.append_nil _).symm⟩
  | cons f frames ih =>
    rw [List.foldlM_cons] at h
    cases hone : MockTransport.answer digest now (b, replies) f with
    | error e =>
      rw [hone] at h
      cases h
    | ok one =>
      rw [hone] at h
      unfold MockTransport.answer at hone
      dsimp only at hone
      cases henc : Box.encodeAll (b.onFrame digest now f).2 with
      | error e =>
        rw [henc] at hone
        cases hone
      | ok bytes =>
        rw [henc] at hone
        cases hone
        obtain ⟨hfits, hbytes⟩ := encodeAll_eq_ok henc
        obtain ⟨hb, hfits', hreplies⟩ := ih h
        refine ⟨hb, hfits.append hfits', ?_⟩
        rw [hreplies, hbytes, List.append_assoc, ← bytesOf_append]
        rfl

/-- Both ends of the transport.  Of the host there is its decoder and the frames that it gave;
beside it stand what the host wrote, what befell the box, and what was put in the host's way. -/
structure Exchange where
  transport : MockTransport
  decoder : FrameDecoder
  delivered : List DecodedFrame
  written : List UInt8
  heard : List (Nat × Box.Event)
  sent : List DecodedFrame

inductive Move
  | write (now : Nat) (buf : List UInt8)
  | read (n : Nat)
  | push (f : DecodedFrame)
  | befall (now : Nat) (e : Box.Event)

namespace Exchange

def start (b : Box) : Exchange where
  transport := .new b
  decoder := .new
  delivered := []
  written := []
  heard := []
  sent := []

/-- The run of a move, unless a frame is too long to encode. -/
def next (s : Exchange) : Move → Option Exchange
  | .write now buf => do
    let t ← (s.transport.writeAll digest now buf).toOption
    let events := frameEvents now (s.transport.outDecoder.feed buf).2
    return {
      s with
      transport := t
      written := s.written ++ buf
      heard := s.heard ++ events
      sent := s.sent ++ outputs digest s.transport.box events }
  | .read n =>
    let (bytes, t) := s.transport.read n
    let (decoder, frames) := s.decoder.feed bytes
    some { s with transport := t, decoder := decoder, delivered := s.delivered ++ frames }
  | .push f => do
    let t ← (s.transport.pushFrame f).toOption
    return { s with transport := t, sent := s.sent ++ [f] }
  | .befall now e =>
    match e with
    | .frame _ => none
    | e => do
      let t ← (s.transport.befall digest now e).toOption
      return {
        s with
        transport := t
        heard := s.heard ++ [(now, e)]
        sent := s.sent ++ outputs digest s.transport.box [(now, e)] }

/-- The frame an event brings. -/
def frame? : Nat × Box.Event → Option DecodedFrame
  | (_, .frame f) => some f
  | _ => none

/-- The bytes in flight and the bytes read are those of the frames sent. -/
structure Carried (b : Box) (s : Exchange) : Prop where
  box : s.transport.box = run digest b s.heard
  heard : FrameDecoder.new.feed s.written = (s.transport.outDecoder, s.heard.filterMap frame?)
  said : (outputs digest b s.heard).Sublist s.sent
  fits : Fits s.sent
  bytes : ∃ read, bytesOf s.sent = read ++ s.transport.inbound ∧
    FrameDecoder.new.feed read = (s.decoder, s.delivered)

variable {digest} {b : Box} {s s' : Exchange}

theorem Carried.start (b : Box) : Carried digest b (start b) where
  box := rfl
  heard := rfl
  said := .slnil
  fits := fun _ h => absurd h List.not_mem_nil
  bytes := ⟨[], rfl, rfl⟩

theorem filterMap_frameEvents (now : Nat) (frames : List DecodedFrame) :
    (frameEvents now frames).filterMap frame? = frames := by
  rw [frameEvents, List.filterMap_map]
  exact List.filterMap_some

/-- What a write comes to. -/
theorem next_write {now : Nat} {buf : List UInt8}
    (hs : next digest s (.write now buf) = some s') :
    let events := frameEvents now (s.transport.outDecoder.feed buf).2
    Fits (outputs digest s.transport.box events) ∧ s' =
      { s with
        transport :=
          { inbound := s.transport.inbound ++ bytesOf (outputs digest s.transport.box events)
            outDecoder := (s.transport.outDecoder.feed buf).1
            box := run digest s.transport.box events }
        written := s.written ++ buf
        heard := s.heard ++ events
        sent := s.sent ++ outputs digest s.transport.box events } := by
  unfold next at hs
  dsimp only at hs
  cases ht : s.transport.writeAll digest now buf with
  | error e =>
    rw [ht] at hs
    cases hs
  | ok t =>
    rw [ht] at hs
    cases hs
    unfold MockTransport.writeAll at ht
    dsimp only at ht
    cases hfold : (s.transport.outDecoder.feed buf).2.foldlM (MockTransport.answer digest now)
        (s.transport.box, []) with
    | error e =>
      rw [hfold] at ht
      cases ht
    | ok r =>
      rw [hfold] at ht
      cases ht
      obtain ⟨hb, hfits, hreplies⟩ := foldlM_answer digest hfold
      refine ⟨hfits, ?_⟩
      rw [hb, hreplies, List.nil_append]

theorem Carried.write (h : Carried digest b s) {now : Nat} {buf : List UInt8}
    (hs : next digest s (.write now buf) = some s') : Carried digest b s' := by
  obtain ⟨hfits, rfl⟩ := next_write hs
  obtain ⟨read, hread, hfeed⟩ := h.bytes
  refine ⟨?_, ?_, ?_, h.fits.append hfits, read, ?_, hfeed⟩
  · rw [run_append, ← h.box]
  · rw [FrameDecoder.feed_append, h.heard, List.filterMap_append, filterMap_frameEvents]
    rfl
  · rw [outputs_append, ← h.box]
    exact h.said.append (.refl _)
  · rw [bytesOf_append, hread, List.append_assoc]

theorem Carried.read (h : Carried digest b s) {n : Nat}
    (hs : next digest s (.read n) = some s') : Carried digest b s' := by
  cases hs
  obtain ⟨read, hread, hfeed⟩ := h.bytes
  refine ⟨h.box, h.heard, h.said, h.fits, read ++ s.transport.inbound.take n, ?_, ?_⟩
  · rw [hread, List.append_assoc]
    exact congrArg (read ++ ·) (List.take_append_drop n _).symm
  · rw [FrameDecoder.feed_append, hfeed]
    rfl

theorem Carried.push (h : Carried digest b s) {f : DecodedFrame}
    (hs : next digest s (.push f) = some s') : Carried digest b s' := by
  unfold next at hs
  dsimp only at hs
  cases henc : encode f.ty f.seq f.payload with
  | error e =>
    unfold MockTransport.pushFrame at hs
    rw [henc] at hs
    cases hs
  | ok bytes =>
    unfold MockTransport.pushFrame at hs
    rw [henc] at hs
    cases hs
    obtain ⟨hfits, rfl⟩ := encode_eq_ok henc
    obtain ⟨read, hread, hfeed⟩ := h.bytes
    refine ⟨h.box, h.heard, h.said.trans (List.sublist_append_left ..), h.fits.append hfits, read,
      ?_, hfeed⟩
    rw [bytesOf_append, hread, List.append_assoc]
    rfl

theorem Carried.befall (h : Carried digest b s) {now : Nat} {e : Box.Event}
    (hs : next digest s (.befall now e) = some s') : Carried digest b s' := by
  unfold next at hs
  dsimp only at hs
  split at hs
  · cases hs
  next hframe =>
    unfold MockTransport.befall at hs
    dsimp only at hs
    cases henc : Box.encodeAll (s.transport.box.step digest now e).2 with
    | error e =>
      rw [henc] at hs
      cases hs
    | ok bytes =>
      rw [henc] at hs
      cases hs
      obtain ⟨hfits, rfl⟩ := encodeAll_eq_ok henc
      obtain ⟨read, hread, hfeed⟩ := h.bytes
      have hout : outputs digest s.transport.box [(now, e)] =
          (s.transport.box.step digest now e).2 := List.append_nil _
      have hnone : frame? (now, e) = none := by
        unfold frame?
        split
        next heq =>
          cases heq
          exact absurd rfl (hframe _)
        next => rfl
      refine ⟨?_, ?_, ?_, h.fits.append (hout ▸ hfits), read, ?_, hfeed⟩
      · rw [run_append, ← h.box]
        rfl
      · rw [h.heard, List.filterMap_append, List.filterMap_cons_none hnone, List.filterMap_nil,
          List.append_nil]
        rfl
      · rw [outputs_append, ← h.box]
        exact h.said.append (.refl _)
      · rw [bytesOf_append, hread, hout, List.append_assoc]
        rfl

theorem Carried.next (h : Carried digest b s) {m : Move} (hs : next digest s m = some s') :
    Carried digest b s' := by
  cases m with
  | write now buf => exact h.write hs
  | read n => exact h.read hs
  | push f => exact h.push hs
  | befall now e => exact h.befall hs

theorem carried_of_run {moves : List Move}
    (hr : Steps.run (Exchange.next digest) (start b) moves = some s) : Carried digest b s :=
  Steps.run_induction (fun _ _ _ h (_ : True) hs => h.next hs) (.start b)
    (.of_forall (fun _ _ _ => trivial) _) hr

/-- What is in flight is what the host's decoder has yet to give. -/
theorem Carried.sent_eq (h : Carried digest b s) :
    s.sent = s.delivered ++ (s.decoder.feed s.transport.inbound).2 ∧
      s.decoder.crcErrorCount = 0 := by
  obtain ⟨read, hread, hfeed⟩ := h.bytes
  obtain ⟨d, hsent, -, hcount⟩ := @FrameDecoder.feed_wire .new (s.sent.map ([], ·)) rfl
    fun p hp => by
      obtain ⟨f, hf, rfl⟩ := List.mem_map.mp hp
      exact ⟨List.not_mem_nil, h.fits f hf⟩
  change FrameDecoder.new.feed (bytesOf s.sent) = _ at hsent
  rw [hread, FrameDecoder.feed_append, hfeed] at hsent
  have hframes := congrArg Prod.snd hsent
  have hdecoder := congrArg (fun r => r.1.crcErrorCount) hsent
  refine ⟨?_, Nat.le_zero.mp ?_⟩
  · rw [List.map_map] at hframes
    exact (List.map_id _).symm.trans hframes.symm
  · exact (FrameDecoder.crcErrorCount_le_feed _ _).trans (hdecoder.trans hcount).le

end Exchange

/-- However the host's writes and reads are cut and ordered, the transport loses, repeats and
reorders nothing: the box meets the frames that the host wrote and makes of them what its own steps
make, and the host decodes what was sent, all of it once nothing is left to read. -/
theorem exchange_faithful (b : Box) {moves : List Move} {s : Exchange}
    (hr : Steps.run (Exchange.next digest) (.start b) moves = some s) :
    s.transport.box = run digest b s.heard ∧
      s.heard.filterMap Exchange.frame? = (FrameDecoder.new.feed s.written).2 ∧
      (outputs digest b s.heard).Sublist s.sent ∧
      s.delivered <+: s.sent ∧ (s.transport.inbound = [] → s.delivered = s.sent) ∧
      s.decoder.crcErrorCount = 0 := by
  have h := Exchange.carried_of_run hr
  obtain ⟨hsent, hcount⟩ := h.sent_eq
  refine ⟨h.box, (congrArg Prod.snd h.heard).symm, h.said, ⟨_, hsent.symm⟩, fun hdrained => ?_,
    hcount⟩
  rw [hsent, hdrained]
  exact (List.append_nil _).symm

/-- A query cut in two, its reply read in pieces with a boot between, and an event pushed. -/
def pieces : List Move :=
  [.write 3 [165, 5, 7], .read 4, .write 4 [1, 0, 0, 70, 84], .read 9, .befall 5 .restart,
    .push ⟨.log, 0, [1, 72, 105]⟩, .read 512]

theorem exchange_faithful_pieces :
    ∃ s : Exchange, Steps.run (Exchange.next fun _ => Vector.replicate 32 0) (.start .default)
        pieces = some s ∧
      (s.heard.length = 2 ∧ s.delivered.length = 3 ∧ s.sent.length = 3) ∧
      s.transport.box = run (fun _ => Vector.replicate 32 0) .default s.heard ∧
      s.heard.filterMap Exchange.frame? = (FrameDecoder.new.feed s.written).2 ∧
      (outputs (fun _ => Vector.replicate 32 0) .default s.heard).Sublist s.sent ∧
      s.delivered <+: s.sent ∧ (s.transport.inbound = [] → s.delivered = s.sent) ∧
      s.decoder.crcErrorCount = 0 := by
  have hrun : ((Steps.run (Exchange.next fun _ => Vector.replicate 32 0) (.start .default)
      pieces).map fun s => (s.heard.length, s.delivered.length, s.sent.length)) =
        some (2, 3, 3) := by decide +kernel
  obtain ⟨s, hr, hfacts⟩ := Option.map_eq_some_iff.mp hrun
  simp only [Prod.mk.injEq] at hfacts
  exact ⟨s, hr, hfacts, exchange_faithful _ .default hr⟩

section Query

theorem sound_run {b : Box} (h : Sound b) (events : List (Nat × Box.Event)) :
    Sound (run digest b events) := by
  induction events generalizing b with
  | nil => exact h
  | cons e events ih => exact ih (h.step e.1 e.2)

/-- The bytes a move puts on the wire for the box. -/
def Move.buf : Move → List UInt8
  | .write _ buf => buf
  | _ => []

/-- The host's own moves. -/
def Move.Host : Move → Prop
  | .write .. | .read _ => True
  | _ => False

/-- While only the host moves, the box meets the frames of what is written. -/
theorem host_run {moves : List Move} {s s' : Exchange} (hhost : ∀ m ∈ moves, m.Host)
    (hr : Steps.run (Exchange.next digest) s moves = some s') :
    ∃ events, events.map Prod.snd =
        ((s.transport.outDecoder.feed (moves.flatMap Move.buf)).2).map Box.Event.frame ∧
      s'.sent = s.sent ++ outputs digest s.transport.box events := by
  induction moves generalizing s with
  | nil =>
    cases hr
    exact ⟨[], rfl, (List.append_nil _).symm⟩
  | cons m moves ih =>
    rw [List.forall_mem_cons] at hhost
    obtain ⟨t, ht, hrest⟩ := Option.bind_eq_some_iff.mp hr
    cases m with
    | write now buf =>
      obtain ⟨-, rfl⟩ := Exchange.next_write ht
      obtain ⟨events, hevents, hsent⟩ := ih hhost.2 hrest
      refine ⟨frameEvents now (s.transport.outDecoder.feed buf).2 ++ events, ?_, ?_⟩
      · rw [List.flatMap_cons, Move.buf, FrameDecoder.feed_append, List.map_append, hevents,
          frameEvents, List.map_map]
        exact List.map_append.symm
      · rw [hsent, outputs_append, List.append_assoc]
    | read n =>
      cases ht
      obtain ⟨events, hevents, hsent⟩ := ih hhost.2 hrest
      exact ⟨events, hevents, hsent⟩
    | push f => exact hhost.1.elim
    | befall now e => exact hhost.1.elim

/-- A query written on an idle wire, in whatever pieces, is answered there if the box answers and has
something to say: once all is read the host has decoded the one reply, which decodes to what the box
holds. -/
theorem query_over_wire {moves more : List Move} {s s' : Exchange}
    (hr : Steps.run (Exchange.next digest) (.start .default) moves = some s)
    (hdrained : s.transport.inbound = []) (hidle : s.transport.outDecoder.state = .sof) {seq : UInt8} {p : List UInt8}
    (hentry : isEntryQuery p = false) (hhost : ∀ m ∈ more, m.Host)
    (hwritten : encode .query seq p = .ok (more.flatMap Move.buf))
    (hr' : Steps.run (Exchange.next digest) s more = some s') (hread : s'.transport.inbound = []) :
    ∃ now reply, s'.delivered = s.delivered ++
        ((if s.transport.box.pcSeen then [] else [s.transport.box.helloFrame]) ++
          (Option.map (fun payload => (⟨.resp, seq, payload⟩ : DecodedFrame)) reply).toList) ∧
      (reply.isSome ↔ s.transport.box.respond ∧
        ∃ resp, Answer (arrived s.transport.box now) p resp) ∧
      ∀ payload, reply = some payload → Answered (arrived s.transport.box now) p payload := by
  have h := Exchange.carried_of_run hr
  have h' : Exchange.Carried digest .default s' :=
    @Exchange.carried_of_run digest .default s' (moves ++ more) (by
      rw [Steps.run_append, hr]
      exact hr')
  obtain ⟨events, hevents, hsent⟩ := host_run digest hhost hr'
  have hone : ∃ now, events = [(now, .frame ⟨.query, seq, p⟩)] := by
    obtain ⟨hfits, hbytes⟩ := @encode_eq_ok ⟨.query, seq, p⟩ _ hwritten
    obtain ⟨d, hfeed, -⟩ := @FrameDecoder.feed_frame _ ⟨.query, seq, p⟩ hidle
      (hfits _ (List.mem_singleton_self _))
    rw [hwritten] at hfeed
    change s.transport.outDecoder.feed (more.flatMap Move.buf) = _ at hfeed
    rw [hfeed] at hevents
    obtain ⟨⟨now, e⟩, rfl, he⟩ := List.map_eq_singleton_iff.mp hevents
    exact ⟨now, by rw [show e = _ from he]⟩
  obtain ⟨now, rfl⟩ := hone
  have hsound : Sound s.transport.box := by
    rw [h.box]
    exact sound_run digest .default _
  have hquiet : s.transport.box.unsolicited = [] := by
    rw [h.box]
    exact unsolicited_run digest rfl _
  obtain ⟨-, reply, hout, hsome, hanswered⟩ :=
    @onFrame_answers digest _ hsound hquiet now seq p hentry
  have hdelivered : s.delivered = s.sent := by
    rw [h.sent_eq.1, hdrained]
    exact (List.append_nil _).symm
  have hdelivered' : s'.delivered = s'.sent := by
    rw [h'.sent_eq.1, hread]
    exact (List.append_nil _).symm
  refine ⟨now, reply, ?_, hsome, hanswered⟩
  rw [hdelivered', hsent, ← hdelivered, outputs, outputs, List.append_nil]
  exact congrArg (s.delivered ++ ·) hout

/-- Asked of a box that an earlier exchange gave a name, in two halves with a read between. -/
theorem query_over_wire_halves :
    let naming : List Move := [.write 1 ((encode .option 1 [optName, 65, 66]).toOption.getD []),
      .befall 2 .restart, .read 64]
    let asking : List Move := [.write 3 [165, 5, 7], .read 9, .write 4 [1, 0, 0, 70, 84],
      .read 512]
    ∃ s s' : Exchange,
      Steps.run (Exchange.next fun _ => Vector.replicate 32 0) (.start .default) naming = some s ∧
      Steps.run (Exchange.next fun _ => Vector.replicate 32 0) s asking = some s' ∧
      (s.delivered.length = 1 ∧ s'.delivered.length = 3 ∧
        s.transport.box.version.name.bytes = [65, 66]) ∧
      ∃ now reply, s'.delivered = s.delivered ++
        ((if s.transport.box.pcSeen then [] else [s.transport.box.helloFrame]) ++
          (Option.map (fun payload => (⟨.resp, 7, payload⟩ : DecodedFrame)) reply).toList) ∧
      (reply.isSome ↔ s.transport.box.respond ∧
        ∃ resp, Answer (arrived s.transport.box now) [qVersion] resp) ∧
      ∀ payload, reply = some payload → Answered (arrived s.transport.box now) [qVersion] payload := by
  intro naming asking
  have hrun : ((Steps.run (Exchange.next fun _ => Vector.replicate 32 0) (.start .default)
      naming).bind fun s => (Steps.run (Exchange.next fun _ => Vector.replicate 32 0) s
        asking).map fun s' => decide ((s.delivered.length = 1 ∧ s'.delivered.length = 3 ∧
          s.transport.box.version.name.bytes = [65, 66]) ∧ s.transport.inbound = [] ∧
          s.transport.outDecoder.state = .sof ∧ s'.transport.inbound = [])) = some true := by
    decide +kernel
  obtain ⟨s, hr, hrun⟩ := Option.bind_eq_some_iff.mp hrun
  obtain ⟨s', hr', hfacts⟩ := Option.map_eq_some_iff.mp hrun
  obtain ⟨hcounts, hdrained, hidle, hread⟩ := of_decide_eq_true hfacts
  refine ⟨s, s', hr, hr', hcounts, ?_⟩
  exact query_over_wire _ hr hdrained hidle rfl (by simp [asking, Move.Host])
    (by decide +kernel) hr' hread

end Query

end Exchange

end Medius.Machine
