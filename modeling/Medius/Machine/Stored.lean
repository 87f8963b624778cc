import Medius.Machine.Queries

/-! What the box stores of its options: through boots, detaches and resets of the session the last
value of each stays, and the host reads it back. -/

namespace Medius.Machine

open Protocol Mock Device Medius.Types Checked Readback

/-- The options, in the spelling they are read back in. -/
structure Options where
  allowed : Bool
  ride : Option UInt16
  bearing : Bearing
  pace : EmitPace
  forceHz : Option UInt16
  mode : RenderMode
  full : Bool
  percent : UInt16
  name : Utf8.Text

/-- What a wiped box boots with. -/
def Options.default : Options where
  allowed := false
  ride := none
  bearing := .default
  pace := .learned
  forceHz := none
  mode := .despiked
  full := false
  percent := 100
  name := .empty

/-- Whole milliseconds, at least one and at most what a word holds. -/
def wholeMs (d : Duration) : UInt16 := UInt16.ofNat (max (min (d / 1000000) 65535) 1)

def Options.set (o : Options) : Setting → Options
  | .imperfect allow => { o with allowed := allow }
  | .movementRiding d => { o with ride := d.map wholeMs }
  | .emitPace pace forceHz =>
    { o with pace := saidPace pace, forceHz := forceHz.filter (· ≠ 0) }
  | .name text => { o with name := .lossy (text.bytes.take nameMax) }
  | .bearing d mode => { o with bearing := ⟨d.map wholeMs, mode⟩ }
  | .render mode full => { o with mode := mode, full := full }
  | .spread percent => { o with percent := percent }

def options (b : Box) : Options where
  allowed := b.imperfect.allowed
  ride := window b.moveRideMs
  bearing := saidBearing b.bearing
  pace := saidPace b.emitPace
  forceHz := b.emitForceHz.filter (· ≠ 0)
  mode := b.renderMode
  full := b.renderFull
  percent := b.spreadPercent
  name := .lossy (b.version.name.bytes.take nameMax)

/-- What an event does to what is stored. -/
inductive Change
  | set (s : Setting)
  | wipe
  | keep

def Options.after (o : Options) : Change → Options
  | .set s => o.set s
  | .wipe => .default
  | .keep => o

/-- An option call stores, a reset of the store wipes, and nothing else that befalls a box does
either. -/
inductive Changes : Box.Event → Change → Prop
  | set (seq : UInt8) (s : Setting) : Changes (.frame ⟨.option, seq, s.payload⟩) (.set s)
  | wipe (seq flags : UInt8) (rest : List UInt8) : flags &&& rstFNvs ≠ 0 →
      Changes (.frame ⟨.reset, seq, flags :: rest⟩) .wipe
  | reset (seq : UInt8) (p : List UInt8) : (∀ flags ∈ p.head?, flags &&& rstFNvs = 0) →
      Changes (.frame ⟨.reset, seq, p⟩) .keep
  | frame (f : DecodedFrame) : f.ty ≠ .option → f.ty ≠ .reset → Changes (.frame f) .keep
  | restart : Changes .restart .keep
  | linkLost : Changes .linkLost .keep
  | detach (back : Bool) : Changes (.detach back) .keep
  | attach : Changes .attach .keep
  | packet (class_ : TrafficClass) (id : UInt16) (direction : Direction) (head : List UInt8) :
      Changes (.packet class_ id direction head) .keep

section Frames

variable (b : Box) (now : Nat)

theorem options_of_beside {b b' : Box} (h : beside b' = beside b) : options b' = options b :=
  eq_of_beside options (fun _ => rfl) h

theorem options_arrived : options (arrived b now) = options b :=
  options_of_beside (b := { b with pcSeen := true }) (beside_arrived b now)

theorem window_wholeMs (d : Option Duration) : window (rideWindowMs d) = d.map wholeMs := by
  cases d with
  | none => rfl
  | some d => exact if_pos (rideWindowMs_some_ne d)

theorem options_applyImperfect (allow : Bool) :
    options (b.applyImperfect now allow) = { options b with allowed := allow } := by
  unfold Box.applyImperfect
  cases allow with
  | true =>
    dsimp only
    split <;> rfl
  | false =>
    dsimp only
    split <;> rfl

theorem options_applyEmit (pace : EmitPace) (force : Option UInt16) :
    options (b.applyEmit (emitPaceWire pace).1 (emitPaceWire pace).2 (force.getD 0)) =
      { options b with pace := saidPace pace, forceHz := force.filter (· ≠ 0) } := by
  have htwice : (force.filter (· ≠ 0)).filter (· ≠ 0) = force.filter (· ≠ 0) := by
    rw [Option.filter_filter]
    simp only [Bool.and_self]
  rw [← htwice, ← forceHz_reads force]
  cases pace <;> rfl

theorem options_applyRender (mode : RenderMode) (full : Bool) :
    options (b.applyRender mode.toWire full.toUInt8) =
      { options b with mode := mode, full := full } := by
  unfold Box.applyRender
  rw [RenderMode.fromU8_toWire]
  cases full <;> rfl

theorem options_applyBearing (ms : UInt16) (mode : BearingMode) :
    options (b.applyBearing ms mode.asU8) = { options b with bearing := ⟨window ms, mode⟩ } := by
  have hwindow : (window ms).map (fun ms => if ms = 0 then 1 else ms) = window ms := by
    unfold window
    split
    next h => exact congrArg some (if_neg h)
    next => rfl
  unfold Box.applyBearing
  rw [BearingMode.fromU8_asU8]
  exact congrArg (fun w => { options b with bearing := ⟨w, mode⟩ }) hwindow

/-- An option frame stores what its call was given. -/
theorem options_applyOptionFrame (s : Setting) :
    options (b.applyOptionFrame now s.payload) = (options b).set s := by
  cases s with
  | imperfect allow =>
    have hallow : decide (allow.toUInt8 ≠ 0) = allow := by cases allow <;> rfl
    change options (b.applyImperfect now (decide (allow.toUInt8 ≠ 0))) = _
    rw [hallow]
    exact options_applyImperfect b now allow
  | movementRiding d =>
    change options { b with moveRideMs := fromLeBytes _ _ } = _
    rw [fromLeBytes_toLeBytes]
    exact congrArg (fun w => { options b with ride := w }) (window_wholeMs d)
  | emitPace pace force =>
    change options (b.applyEmit _ (fromLeBytes _ _) (fromLeBytes _ _)) = _
    rw [fromLeBytes_toLeBytes, fromLeBytes_toLeBytes]
    exact options_applyEmit b pace force
  | name text =>
    have hname : Utf8.Text.lossy text.bytes = text := Utf8.Text.lossy_bytes text
    exact congrArg (fun t => { options b with name := .lossy (t.bytes.take nameMax) }) hname
  | bearing d mode =>
    change options (b.applyBearing (fromLeBytes _ _) _) = _
    rw [fromLeBytes_toLeBytes, options_applyBearing, window_wholeMs]
    rfl
  | render mode full => exact options_applyRender b mode full
  | spread percent =>
    change options { b with spreadPercent := fromLeBytes _ _ } = _
    rw [fromLeBytes_toLeBytes]
    rfl

theorem options_wiped {flags : UInt8} (hflags : flags &&& rstFNvs ≠ 0) (rest : List UInt8) :
    options (b.applyResetFrame now (flags :: rest)) = .default := by
  unfold Box.applyResetFrame
  dsimp only
  rw [if_pos hflags]
  rfl

theorem options_reset {p : List UInt8} (hflags : ∀ flags ∈ p.head?, flags &&& rstFNvs = 0) :
    options (b.applyResetFrame now p) = options b := by
  cases p with
  | nil => rfl
  | cons flags rest =>
    unfold Box.applyResetFrame
    dsimp only
    rw [if_neg (not_not.mpr (hflags flags rfl))]
    rfl

/-- Of the other frames none stores an option. -/
theorem options_applyFrame {ty : FrameType} (hoption : ty ≠ .option) (hreset : ty ≠ .reset)
    (p : List UInt8) : options (b.applyFrame now ty p) = options b := by
  by_cases hreboot : ty = .rebootDl
  · subst hreboot
    obtain ⟨seen, said, hbeside⟩ := beside_applyRebootDlFrame b now p
    exact options_of_beside (b := { b with pcSeen := seen, unsolicited := said }) hbeside
  · exact options_of_beside (beside_applyFrame b now hoption hreset hreboot p)

variable (digest : List UInt8 → Vector UInt8 32)

theorem options_replied {b b' : Box} (h : Replied b b') : options b' = options b := by
  obtain ⟨_, _, _, _, rfl⟩ := h
  rfl

theorem options_marked {b b' : Box} (h : Marked b b') : options b' = options b := by
  obtain ⟨_, rfl⟩ := h
  rfl

/-- A frame stores what its handler does on the box it reaches. -/
theorem options_onFrame (f : DecodedFrame) : ∃ b', options b' = options b ∧
    options (b.onFrame digest now f).1 = options (b'.applyFrame now f.ty f.payload) := by
  obtain ⟨b', b'', hb', hb'', hframe⟩ := @onFrame_cases digest b now f
  refine ⟨b', (options_marked hb').trans (options_arrived b now), ?_⟩
  rw [hframe]
  change options b'' = _
  exact (options_marked hb'').trans (options_replied (replied_reply digest _ f))

/-- One case for each thing that befalls a box. -/
theorem options_step {e : Box.Event} {c : Change} (h : Changes e c) :
    options (b.step digest now e).1 = (options b).after c := by
  cases h with
  | set seq s =>
    obtain ⟨b', hb', hframe⟩ := options_onFrame b now digest ⟨.option, seq, s.payload⟩
    exact hframe.trans ((options_applyOptionFrame b' now s).trans (by rw [hb']; rfl))
  | wipe seq flags rest hflags =>
    obtain ⟨b', -, hframe⟩ := options_onFrame b now digest ⟨.reset, seq, flags :: rest⟩
    exact hframe.trans (options_wiped b' now hflags rest)
  | reset seq p hflags =>
    obtain ⟨b', hb', hframe⟩ := options_onFrame b now digest ⟨.reset, seq, p⟩
    exact hframe.trans ((options_reset b' now hflags).trans hb')
  | frame f hoption hreset =>
    obtain ⟨b', hb', hframe⟩ := options_onFrame b now digest f
    exact hframe.trans ((options_applyFrame b' now hoption hreset f.payload).trans hb')
  | restart => rfl
  | linkLost => exact options_of_beside (beside_advance b now)
  | detach back => exact options_of_beside (beside_detach b now back)
  | attach => exact options_of_beside (beside_attach b now)
  | packet class_ id direction head =>
    exact options_of_beside (beside_clipPacket b class_ id direction head)

end Frames

section Runs

variable (digest : List UInt8 → Vector UInt8 32)

theorem unsolicited_run {b : Box} (h : b.unsolicited = []) (events : List (Nat × Box.Event)) :
    (run digest b events).unsolicited = [] := by
  induction events generalizing b with
  | nil => exact h
  | cons e events ih => exact ih (unsolicited_step h e.1 e.2)

theorem options_run {events : List (Nat × Box.Event)} {changes : List Change}
    (h : List.Forall₂ (fun e c => Changes e.2 c) events changes) (b : Box) :
    options (run digest b events) = changes.foldl Options.after (options b) := by
  induction h generalizing b with
  | nil => rfl
  | @cons e c events changes hhead _ ih =>
    exact (ih _).trans (congrArg (changes.foldl Options.after) (options_step b e.1 digest hhead))

/-- The queries an option is read back with; the name comes with the version. -/
def optionQueries : List (List UInt8) :=
  [[qOptions, optImperfect], [qOptions, optMoveRide], [qOptions, optBearing], [qOptions, optEmit],
    [qOptions, optRender], [qOptions, optSpread], [qVersion]]

/-- What the reply to such a query says of the option. -/
inductive Tells (o : Options) : List UInt8 → Resp → Prop
  | imperfect {i : ImperfectStatus} : i.allowed = o.allowed →
      Tells o [qOptions, optImperfect] (.imperfect i)
  | movementRiding : Tells o [qOptions, optMoveRide] (.movementRiding o.ride)
  | bearing : Tells o [qOptions, optBearing] (.bearing o.bearing)
  | emitPace {e : EmitPaceStatus} : e.mode = o.pace → e.forceHz = o.forceHz →
      Tells o [qOptions, optEmit] (.emitPace e)
  | render {r : RenderStatus} : r.mode = o.mode → r.full = o.full →
      Tells o [qOptions, optRender] (.render r)
  | spread {s : SpreadStatus} : s.percent = o.percent → Tells o [qOptions, optSpread] (.spread s)
  | name {v : Version} : v.name = o.name → Tells o [qVersion] (.version v)

theorem tells_queryReply (b : Box) : ∀ p ∈ optionQueries, ∃ payload resp,
    (b.queryReply p).2 = some payload ∧ parseResp payload = .value resp ∧
      Tells (options b) p resp := by
  simp only [optionQueries, List.forall_mem_cons, List.not_mem_nil, false_imp_iff, implies_true,
    and_true]
  exact ⟨⟨_, _, rfl, parse_imperfect _, .imperfect rfl⟩,
    ⟨_, _, rfl, parse_movementRiding _, .movementRiding⟩,
    ⟨_, _, rfl, parse_bearing _, .bearing⟩,
    ⟨_, _, rfl, parse_emitPace .., .emitPace rfl rfl⟩,
    ⟨_, _, rfl, parse_render .., .render rfl rfl⟩,
    ⟨_, _, rfl, parse_spread .., .spread rfl⟩,
    ⟨_, _, rfl, parse_version _ b.mac_len, .name rfl⟩⟩

/-- Whatever befalls the box, the host reads back of each option the last value it set: neither a
boot, a detach nor a release loses one, and only a reset of the store sets one otherwise. -/
theorem settings_read_back {events : List (Nat × Box.Event)} {changes : List Change}
    (hchanges : List.Forall₂ (fun e c => Changes e.2 c) events changes) (b : Box)
    (hresponds : (run digest b events).respond = true) (now : Nat) (seq : UInt8) :
    ∀ p ∈ optionQueries, ∃ payload resp,
      ⟨.resp, seq, payload⟩ ∈ ((run digest b events).onFrame digest now ⟨.query, seq, p⟩).2 ∧
        parseResp payload = .value resp ∧
        Tells (changes.foldl Options.after (options b)) p resp := by
  intro p hp
  obtain ⟨payload, resp, hreply, hparse, htells⟩ :=
    tells_queryReply (arrived (run digest b events) now) p hp
  refine ⟨payload, resp, ?_, hparse, ?_⟩
  · rw [onFrame_query, reply_query, respond_arrived, hresponds, if_pos rfl, hreply]
    simp
  · rw [← options_run digest hchanges b, ← options_arrived _ now]
    exact htells

/-- A riding window set before a boot. -/
theorem settings_read_back_booted :
    let events : List (Nat × Box.Event) :=
      [(0, .frame ⟨.option, 1, Setting.payload (.movementRiding (some 5000000))⟩), (1, .restart)]
    ∀ p ∈ optionQueries, ∃ payload resp,
      ⟨.resp, 7, payload⟩ ∈ ((run (fun _ => Vector.replicate 32 0) .default events).onFrame
        (fun _ => Vector.replicate 32 0) 5 ⟨.query, 7, p⟩).2 ∧
        parseResp payload = .value resp ∧
        Tells ([Change.set (.movementRiding (some 5000000)), .keep].foldl Options.after
          (options .default)) p resp :=
  settings_read_back _ (.cons (.set 1 _) (.cons .restart .nil)) .default rfl 5 7

end Runs

end Medius.Machine
