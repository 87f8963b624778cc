import Medius.Error
import Medius.Link.Correlation
import Medius.Link.Reader
import Medius.Link.Reconnect
import Medius.Link.Restart
import Medius.Protocol.Response

/-! The probes of a reopened port, and the port a reconnect takes. -/

namespace Medius.Link

open Protocol Medius.Types Checked

/-- Any `SEQ` but the hello's. -/
abbrev probeSeq : UInt8 := 0x80

/-- One turn of a probe's loop; the deadline is the end of the list of turns. -/
inductive ProbeTurn
  | writeFailed
  | readFailed
  | read (bytes : List UInt8)

structure Probe (α : Type) where
  decoder : FrameDecoder := .new
  found : Option (Option α) := none
  hello : Bool := false

section

variable {α : Type} (what : UInt8) (read : List UInt8 → Option α)

def Probe.onFrame (p : Probe α) (f : DecodedFrame) : Probe α :=
  if f.ty ≠ .resp then p
  else { p with
    hello := p.hello || (f.seq = helloSeq ∧ f.payload.head? = some qVersion)
    found := if p.found.isNone ∧ f.payload.head? = some what then some (read f.payload)
      else p.found }

def Probe.run (p : Probe α) : List ProbeTurn → Probe α
  | [] => p
  | turn :: turns =>
    if p.found.isSome then p
    else
      match turn with
      | .writeFailed => p
      | .readFailed => p
      | .read bytes =>
        let (decoder, frames) := p.decoder.feed bytes
        run (frames.foldl (onFrame what read) { p with decoder := decoder }) turns

/-- What the first reply reads as, and whether a hello went past. -/
def probeSeeingHello (turns : List ProbeTurn) : Option α × Bool :=
  match encode .query probeSeq [what] with
  | .error _ => (none, false)
  | .ok _ =>
    let p := Probe.run what read {} turns
    (p.found.join, p.hello)

end

/-- A reopened port, by how each probe of it goes and how many frames it takes before a write to it
fails. -/
structure Port where
  version : List ProbeTurn
  caps : List ProbeTurn
  clip : List ProbeTurn
  room : Option Nat

namespace Port

def probeVersion (port : Port) : Option Version × Bool :=
  probeSeeingHello qVersion (fun p =>
    match parseResp p with
    | .value (.version v) => some v
    | _ => none) port.version

def probeCaps (port : Port) : Option UInt8 :=
  (probeSeeingHello qCaps (fun p =>
    match parseResp p with
    | .value (.caps c) => some c.mouse.nButtons
    | _ => none) port.caps).1.filter fun n => n > 0

def probeClip (port : Port) : Option (ClipStatus × ClipSettings) :=
  (probeSeeingHello qClip (fun p => do
    return (← ClipStatus.fromPayload p, ← ClipSettings.fromPayload p)) port.clip).1

end Port

structure BoxIdentity where
  serial : Option String
  mac : List UInt8

/-- The slot's transport is `none` while disconnected; `wire` is what was written to it. -/
structure ReconnectCtx where
  transport : TransportSlot (Option Port)
  refused : Option UInt8
  wire : List (List UInt8)
  seq : UInt8
  tx : Nat
  reconnects : Nat
  desired : DesiredState
  heldUpdates : List (List UInt8)
  updatesRx : List (List UInt8)
  restart : Watch

namespace ReconnectCtx

def swap (ctx : ReconnectCtx) (port : Port) : ReconnectCtx :=
  { ctx with
    transport := ⟨some port, ctx.transport.generation + 1⟩
    refused := none
    wire := [] }

/-- `write_frame`, with the `SEQ` taken for it. -/
def send (ctx : ReconnectCtx) (f : FrameType × List UInt8) : ReconnectCtx × Except Error Unit :=
  let seq := ctx.seq
  let ctx := { ctx with seq := seq + 1 }
  match ctx.refused with
  | some got => (ctx, .error (.badProtoVer got))
  | none =>
    match encode f.1 seq f.2 with
    | .error _ => (ctx, .error .frameTooLong)
    | .ok frame =>
      match ctx.transport.current with
      | none => (ctx, .error .io)
      | some port =>
        if port.room.all (ctx.wire.length < ·) then
          ({ ctx with wire := ctx.wire ++ [frame], tx := ctx.tx + 1 }, .ok ())
        else (ctx, .error .io)

def sendAll (ctx : ReconnectCtx) : List (FrameType × List UInt8) → ReconnectCtx × Except Error Unit
  | [] => (ctx, .ok ())
  | f :: fs =>
    match ctx.send f with
    | (ctx, .ok ()) => sendAll ctx fs
    | (ctx, .error e) => (ctx, .error e)

def reapplyHeldLocked (ctx : ReconnectCtx) : ReconnectCtx × Except Error Unit :=
  ctx.sendAll (reapplyFrames ctx.desired false)

/-- The end of `adopt_first`, for the port that passed both checks. -/
def adopt (ctx : ReconnectCtx) (port : Port) (restarted : Bool) :
    ReconnectCtx × Except Error Unit :=
  let ctx := match port.probeCaps with
    | some n => { ctx with desired := ctx.desired.noteDeclaredButtons n }
    | none => ctx
  let clip := if restarted then none else port.probeClip
  let ctx := { ctx.swap port with
    heldUpdates := []
    updatesRx := []
    reconnects := ctx.reconnects + 1 }
  if restarted then ({ ctx with restart := ctx.restart.begin }, .ok ())
  else
    let ctx := match clip with
      | some (status, settings) => { ctx with desired := ctx.desired.clipAdopt status settings }
      | none => ctx
    ctx.reapplyHeldLocked

/-- Takes the first reopened port that is this box on this build's protocol. -/
def adoptFirst (identity : Option BoxIdentity) (ctx : ReconnectCtx) (refused : Option UInt8) :
    List Port → ReconnectCtx × Except Error Unit
  | [] =>
    (ctx, .error (match refused with
      | some got => .badProtoVer got
      | none => .notFound))
  | port :: opened =>
    let (version, restarted) := port.probeVersion
    if identity.any fun id => version.all fun v => v.mac ≠ id.mac then
      adoptFirst identity ctx refused opened
    else
      match (version.map fun v => v.protoVer).filter fun p => p ≠ protoVer with
      | some got => adoptFirst identity ctx (some got) opened
      | none => ctx.adopt port restarted

end ReconnectCtx

/-! ## The port taken -/

/-- With an identity on record, the port's version reply names its MAC. -/
def Port.IsBox (identity : Option BoxIdentity) (port : Port) : Prop :=
  ∀ id, identity = some id → ∃ v, port.probeVersion.1 = some v ∧ v.mac = id.mac

/-- Its version reply, if any, carries this build's protocol. -/
def Port.Speaks (port : Port) : Prop :=
  ∀ v, port.probeVersion.1 = some v → v.protoVer = protoVer

namespace ReconnectCtx

variable {identity : Option BoxIdentity} {port : Port}

theorem not_isBox_iff :
    ¬port.IsBox identity ↔
      identity.any (fun id => port.probeVersion.1.all fun v => v.mac ≠ id.mac) = true := by
  unfold Port.IsBox
  cases identity <;> cases port.probeVersion.1 <;> simp

theorem speaks_iff :
    port.Speaks ↔
      (port.probeVersion.1.map fun v => v.protoVer).filter (fun p => p ≠ protoVer) = none := by
  unfold Port.Speaks
  cases port.probeVersion.1 <;> simp

theorem adoptFirst_skip (h : ¬port.IsBox identity) (ctx : ReconnectCtx) (refused : Option UInt8)
    (opened : List Port) :
    adoptFirst identity ctx refused (port :: opened) = adoptFirst identity ctx refused opened := by
  rw [adoptFirst]
  exact if_pos (not_isBox_iff.mp h)

theorem adoptFirst_refuse (h : port.IsBox identity) (hspeaks : ¬port.Speaks) (ctx : ReconnectCtx)
    (refused : Option UInt8) (opened : List Port) :
    ∃ v, port.probeVersion.1 = some v ∧ v.protoVer ≠ protoVer ∧
      adoptFirst identity ctx refused (port :: opened) =
        adoptFirst identity ctx (some v.protoVer) opened := by
  obtain ⟨got, hgot⟩ := Option.ne_none_iff_exists'.mp (mt speaks_iff.mpr hspeaks)
  obtain ⟨hmap, hne⟩ := Option.filter_eq_some_iff.mp hgot
  obtain ⟨v, hv, rfl⟩ := Option.map_eq_some_iff.mp hmap
  refine ⟨v, hv, of_decide_eq_true hne, ?_⟩
  rw [adoptFirst]
  dsimp only
  rw [if_neg (mt not_isBox_iff.mpr (not_not_intro h)), hgot]

theorem adoptFirst_take (h : port.IsBox identity) (hspeaks : port.Speaks) (ctx : ReconnectCtx)
    (refused : Option UInt8) (opened : List Port) :
    adoptFirst identity ctx refused (port :: opened) = ctx.adopt port port.probeVersion.2 := by
  rw [adoptFirst]
  dsimp only
  rw [if_neg (mt not_isBox_iff.mpr (not_not_intro h)), speaks_iff.mp hspeaks]

/-- A write changes nothing but the wire and what counts the frames. -/
theorem send_eq (ctx : ReconnectCtx) (f : FrameType × List UInt8) :
    ∃ wire seq tx, (ctx.send f).1 = { ctx with wire := wire, seq := seq, tx := tx } := by
  unfold send
  dsimp only
  split
  · exact ⟨_, _, _, rfl⟩
  split
  · exact ⟨_, _, _, rfl⟩
  split
  · exact ⟨_, _, _, rfl⟩
  split <;> exact ⟨_, _, _, rfl⟩

theorem sendAll_eq (fs : List (FrameType × List UInt8)) (ctx : ReconnectCtx) :
    ∃ wire seq tx, (ctx.sendAll fs).1 = { ctx with wire := wire, seq := seq, tx := tx } := by
  induction fs generalizing ctx with
  | nil => exact ⟨_, _, _, rfl⟩
  | cons f fs ih =>
    obtain ⟨wire, seq, tx, hsend⟩ := send_eq ctx f
    unfold sendAll
    split
    next ctx' hctx =>
      obtain rfl : ctx' = _ := (congrArg Prod.fst hctx).symm.trans hsend
      exact ih _
    next ctx' e hctx => exact ⟨wire, seq, tx, (congrArg Prod.fst hctx).symm.trans hsend⟩

/-- What a reconnect that took `port` leaves: one swap, no update reply of the old session, and a
recovery owed if the box booted meanwhile. -/
structure Took (ctx : ReconnectCtx) (port : Port) (after : ReconnectCtx) : Prop where
  current : after.transport.current = some port
  generation : after.transport.generation = ctx.transport.generation + 1
  reconnects : after.reconnects = ctx.reconnects + 1
  held : after.heldUpdates = []
  rx : after.updatesRx = []
  restart : after.restart = if port.probeVersion.2 then ctx.restart.begin else ctx.restart

theorem Took.sendAll {ctx after : ReconnectCtx} (h : Took ctx port after)
    (fs : List (FrameType × List UInt8)) : Took ctx port (after.sendAll fs).1 := by
  obtain ⟨wire, seq, tx, hsend⟩ := sendAll_eq fs after
  rw [hsend]
  exact ⟨h.current, h.generation, h.reconnects, h.held, h.rx, h.restart⟩

theorem adopt_took (ctx : ReconnectCtx) (port : Port) :
    Took ctx port (ctx.adopt port port.probeVersion.2).1 := by
  unfold adopt
  cases hrestarted : port.probeVersion.2 with
  | true => cases port.probeCaps <;> exact ⟨rfl, rfl, rfl, rfl, rfl, by rw [hrestarted]; rfl⟩
  | false =>
    cases port.probeCaps <;> cases port.probeClip <;>
      exact Took.sendAll ⟨rfl, rfl, rfl, rfl, rfl, by rw [hrestarted]; rfl⟩ _

/-- `got` is the protocol of a port that was refused for it. -/
def Refused (identity : Option BoxIdentity) (opened : List Port) (got : UInt8) : Prop :=
  ∃ port ∈ opened, port.IsBox identity ∧
    ∃ v, port.probeVersion.1 = some v ∧ v.protoVer = got ∧ got ≠ protoVer

theorem Refused.cons {opened : List Port} {got : UInt8} (h : Refused identity opened got)
    (port : Port) : Refused identity (port :: opened) got := by
  obtain ⟨p, hp, hgot⟩ := h
  exact ⟨p, List.mem_cons_of_mem _ hp, hgot⟩

/-- Either the first port that passes both checks is taken, or none passes and the last refusal is
what comes back. -/
theorem adoptFirst_cases (identity : Option BoxIdentity) (ctx : ReconnectCtx)
    (refused : Option UInt8) (opened : List Port) :
    (∃ before port after, opened = before ++ port :: after ∧
      (∀ p ∈ before, ¬(p.IsBox identity ∧ p.Speaks)) ∧ port.IsBox identity ∧ port.Speaks ∧
      adoptFirst identity ctx refused opened = ctx.adopt port port.probeVersion.2) ∨
    ((∀ p ∈ opened, ¬(p.IsBox identity ∧ p.Speaks)) ∧
      ∃ last, adoptFirst identity ctx refused opened =
          (ctx, .error (last.elim .notFound .badProtoVer)) ∧
        (last = refused ∧ (∀ p ∈ opened, p.IsBox identity → p.Speaks) ∨
          ∃ got, last = some got ∧ Refused identity opened got)) := by
  induction opened generalizing refused with
  | nil =>
    refine .inr ⟨nofun, refused, ?_, .inl ⟨rfl, nofun⟩⟩
    cases refused <;> rfl
  | cons port opened ih =>
    by_cases hbox : port.IsBox identity
    · by_cases hspeaks : port.Speaks
      · exact .inl ⟨[], port, opened, rfl, nofun, hbox, hspeaks,
          adoptFirst_take hbox hspeaks ctx refused opened⟩
      · obtain ⟨v, hv, hne, heq⟩ := adoptFirst_refuse hbox hspeaks ctx refused opened
        rw [heq]
        obtain ⟨before, p, after, rfl, hbefore, hp⟩ | ⟨hnone, last, hlast, hrefused⟩ :=
          ih (some v.protoVer)
        · exact .inl ⟨port :: before, p, after, rfl,
            List.forall_mem_cons.mpr ⟨fun h => hspeaks h.2, hbefore⟩, hp⟩
        · refine .inr ⟨List.forall_mem_cons.mpr ⟨fun h => hspeaks h.2, hnone⟩, last, hlast, ?_⟩
          obtain ⟨rfl, -⟩ | ⟨got, rfl, hgot⟩ := hrefused
          · exact .inr ⟨_, rfl, port, List.mem_cons_self, hbox, v, hv, rfl, hne⟩
          · exact .inr ⟨got, rfl, hgot.cons port⟩
    · rw [adoptFirst_skip hbox]
      obtain ⟨before, p, after, rfl, hbefore, hp⟩ | ⟨hnone, last, hlast, hrefused⟩ := ih refused
      · exact .inl ⟨port :: before, p, after, rfl,
          List.forall_mem_cons.mpr ⟨fun h => hbox h.1, hbefore⟩, hp⟩
      · refine .inr ⟨List.forall_mem_cons.mpr ⟨fun h => hbox h.1, hnone⟩, last, hlast, ?_⟩
        obtain ⟨rfl, hall⟩ | ⟨got, rfl, hgot⟩ := hrefused
        · exact .inl ⟨rfl, List.forall_mem_cons.mpr ⟨fun h => absurd h hbox, hall⟩⟩
        · exact .inr ⟨got, rfl, hgot.cons port⟩

/-- At most one port is taken, the first that passes both checks; if none passes, nothing changes
and a refusal for another protocol is what the error names. -/
theorem adoptFirst_takes_first (identity : Option BoxIdentity) (ctx : ReconnectCtx)
    (opened : List Port) :
    (∃ before port after, opened = before ++ port :: after ∧
      (∀ p ∈ before, ¬(p.IsBox identity ∧ p.Speaks)) ∧ port.IsBox identity ∧ port.Speaks ∧
      Took ctx port (adoptFirst identity ctx none opened).1) ∨
    ((∀ p ∈ opened, ¬(p.IsBox identity ∧ p.Speaks)) ∧
      (adoptFirst identity ctx none opened).1 = ctx ∧
      ((∃ p ∈ opened, p.IsBox identity ∧ ¬p.Speaks) →
        ∃ got, Refused identity opened got ∧
          (adoptFirst identity ctx none opened).2 = .error (.badProtoVer got)) ∧
      ((∀ p ∈ opened, p.IsBox identity → p.Speaks) →
        (adoptFirst identity ctx none opened).2 = .error .notFound)) := by
  obtain ⟨before, port, after, hopened, hbefore, hbox, hspeaks, heq⟩ |
    ⟨hnone, last, heq, hrefused⟩ := adoptFirst_cases identity ctx none opened
  · refine .inl ⟨before, port, after, hopened, hbefore, hbox, hspeaks, ?_⟩
    rw [heq]
    exact adopt_took ctx port
  · rw [heq]
    refine .inr ⟨hnone, rfl, ?_, ?_⟩
    · rintro ⟨p, hp, hbox, hspeaks⟩
      obtain ⟨rfl, hall⟩ | ⟨got, rfl, hgot⟩ := hrefused
      · exact absurd (hall p hp hbox) hspeaks
      · exact ⟨got, hgot, rfl⟩
    · intro hall
      obtain ⟨rfl, -⟩ | ⟨got, rfl, p, hp, hbox, v, hv, rfl, hne⟩ := hrefused
      · rfl
      · exact absurd (hall p hp hbox v hv) hne

end ReconnectCtx

end Medius.Link
