import Medius.Update.Transfer

namespace Medius.Update

open Protocol Medius.Types Medius.Device Medius.Mock

variable {digest : List UInt8 → Vector UInt8 32} {image : List UInt8} {target : UpdateTarget}

/-- Chunks the plan has still to send. -/
def chunksLeft (plan : ChunkPlan) : Nat := (plan.image.length - plan.sent + 503) / 504

/-- Host steps left once the call's reply is read. -/
def toGoAfter : Call → Nat
  | .begin_ image _ => 4 * chunkCount image + 7
  | .data plan => 4 * chunksLeft plan + 6
  | _ => 0

/-- Host steps left to the end of the transfer, when no wait has to look twice. -/
def toGo : Point (List UInt8) → Nat
  | .drain call | .drainHold call _ => toGoAfter call + 5
  | .purge call => toGoAfter call + 4
  | .send call => toGoAfter call + 3
  | .take call | .park call _ => toGoAfter call + 2
  | .receive call => toGoAfter call + 1
  | .purgeData image _ _ => 4 * chunkCount image + 7
  | .chunks plan => 4 * chunksLeft plan + 6 + if plan.unacked = 0 then 0 else 3
  | .returned _ => 0

theorem chunksLeft_planAt (a k : Nat) :
    chunksLeft (planAt image target a k) = chunkCount image - k := by
  simp only [chunksLeft, planAt, sentAt, chunkCount]
  omega

theorem toGo_chunks (a k : Nat) :
    toGo (.chunks (planAt image target a k)) =
      4 * (chunkCount image - k) + 6 + if k - a = 0 then 0 else 3 := by
  rw [toGo, chunksLeft_planAt]
  rfl

theorem returned_of_toGo_eq_zero {host : Point (List UInt8)} (h : toGo host = 0) :
    ∃ result, host = .returned result := by
  cases host with
  | returned result => exact ⟨result, rfl⟩
  | _ => simp [toGo] at h

theorem Stage.mono {host pending s reports} {last last' : Prop}
    (h : Stage digest image target host pending s last reports) (hl : last → last') :
    Stage digest image target host pending s last' reports := by
  cases h with
  | opening at_ idle => exact .opening at_ idle
  | waitingBegin at_ owed => exact .waitingBegin at_ (hl owed)
  | begun => exact .begun
  | streaming window from_ room left reported => exact .streaming window from_ room left reported
  | waitingAck at_ window from_ room left full owed reported =>
    exact .waitingAck at_ window from_ room left full (hl owed) reported
  | sent owed reported => exact .sent (hl owed) reported
  | ending at_ owed reported => exact .ending at_ (hl owed) reported
  | waitingEnd at_ owed reported => exact .waitingEnd at_ (hl owed) reported
  | finished owed reported => exact .finished (hl owed) reported

namespace Stage

variable {host : Point (List UInt8)} {pending : List (List UInt8)} {s : MockUpdate}
  {last : Prop} {reports : List UpdateProgress}

theorem reply_of_wait (h : Stage digest image target host pending s last reports) {call : Call}
    (hat : host = .take call ∨ host = .receive call) :
    ∃ reply, pending = [reply] ∧ (replyFor call.op reply).isSome := by
  have hreply : ∀ {call' : Call} {reply : List UInt8},
      host = .take call' ∨ host = .receive call' → (replyFor call'.op reply).isSome →
      (replyFor call.op reply).isSome := by
    intro call' reply hat' hsome
    obtain rfl : call = call' := by grind
    exact hsome
  cases h with
  | opening at_ | ending at_ => grind
  | begun | streaming | sent | finished => grind
  | waitingBegin at_ => exact ⟨_, rfl, hreply at_ (by simp [Call.op])⟩
  | waitingAck at_ =>
    have hwait := at_.resolve_left (by rintro rfl; simp at hat)
    exact ⟨_, rfl, hreply hwait (by simp [Call.op])⟩
  | waitingEnd at_ => exact ⟨_, rfl, hreply at_ (by simp [Call.op])⟩

theorem at_end (h : Stage digest image target host pending s last reports)
    (hat : host = .drain (.end_ target) ∨ host = .purge (.end_ target) ∨
      host = .send (.end_ target)) : pending = [] ∧ last := by
  cases h with
  | opening at_ | waitingBegin at_ | waitingAck at_ | waitingEnd at_ => grind
  | begun | streaming | sent | finished => grind
  | ending _ owed => exact ⟨rfl, owed⟩

theorem at_return (h : Stage digest image target host pending s last reports)
    {result : Except Error (Option UInt32)} (hat : host = .returned result) :
    result = .ok (some (UInt32.ofNat image.length)) ∧ pending = [] ∧ last ∧
      s = sessionStaged image digest ∧ Reported image (chunkCount image) reports := by
  cases h with
  | opening at_ | waitingBegin at_ | waitingAck at_ | waitingEnd at_ | ending at_ => grind
  | begun | streaming | sent => cases hat
  | finished owed reported =>
    cases hat
    exact ⟨rfl, rfl, owed, rfl, reported⟩

theorem increasing (h : Stage digest image target host pending s last reports) :
    (reports.map (·.sent)).Pairwise (· < ·) := by
  cases h with
  | opening | waitingBegin | begun => exact .nil
  | streaming _ _ _ _ reported => exact reported.increasing
  | waitingAck _ _ _ _ _ _ _ reported => exact reported.increasing
  | sent _ reported => exact reported.increasing
  | ending _ _ reported => exact reported.increasing
  | waitingEnd _ _ reported => exact reported.increasing
  | finished _ reported => exact reported.increasing

end Stage

/-- Where the window is full the host turns to wait; elsewhere it has a chunk to send. -/
theorem Stage.chunk {a k : Nat} {reports : List UpdateProgress} {last : Prop}
    (window : a % 16 = 0) (from_ : a ≤ k) (room : k < a + 16) (left : k < chunkCount image)
    (reported : Reported image a reports) {reply : Option (List UInt8)}
    (hr : reply = if (k + 1) % 16 = 0 ∨ k + 1 = chunkCount image then
      some (replyBytes otaOpData target UpdateStatus.ack (UInt16.ofNat (k + 1)).toUInt32)
      else none)
    (hl : reply ≠ none → last) :
    Stage digest image target (.chunks (planAt image target a (k + 1))) reply.toList
      (sessionAt image digest (k + 1)) last reports := by
  split at hr <;> subst hr
  next full =>
    exact .waitingAck (.inl rfl) window (by omega) (by omega) (by omega) (by omega)
      (hl (Option.some_ne_none _)) reported
  next open_ => exact .streaming window (by omega) (by omega) (by omega) reported

namespace Transfer

theorem start_inv (hne : image ≠ []) {st : UpdateState}
    (hst : (st.session target).active = false) :
    (start target image st).Inv digest image target := by
  have hhost : stageFirmware (ρ := List UInt8) target image = .drain (.begin_ image target) := by
    simp [stageFirmware, hne]
  refine ⟨?_, rfl⟩
  simp only [start, hhost]
  exact .opening (.inl rfl) hst

variable {w w' : Transfer}

theorem box_inv (h : w.Inv digest image target) (hn : w.next digest .box = some w') :
    w'.Inv digest image target := by
  obtain ⟨wire, hw, rfl⟩ := Option.map_eq_some_iff.mp hn
  refine ⟨?_, h.held⟩
  have hstage := h.stage.mono (Duplex.lastOwed_serve hw)
  simpa only [pending, session, Duplex.pending_serve hw, Duplex.settled_serve hw] using hstage

theorem reader_inv (h : w.Inv digest image target) (hn : w.next digest .reader = some w') :
    w'.Inv digest image target := by
  obtain ⟨host, ⟨rx, held⟩, ⟨requests, st, replies⟩, progress⟩ := w
  cases replies with
  | nil => cases hn
  | cons p ps =>
    cases hn
    refine ⟨?_, h.held⟩
    simpa [pending, session, Duplex.pending, Duplex.settled, Duplex.LastOwed] using h.stage

/-- A frame sent when the box has answered everything. -/
theorem send_answered {wire : Wire} {frame : List UInt8} {s : MockUpdate}
    {reply : Option (List UInt8)} (hw : wire.pending (answer digest) = [])
    (h : answer digest (wire.settled (answer digest)) frame =
      ((wire.settled (answer digest)).setSession s target, reply)) :
    ((wire.send frame).settled (answer digest)).session target = s ∧
      (wire.send frame).pending (answer digest) = reply.toList ∧
      (reply ≠ none → (wire.send frame).LastOwed (answer digest)) := by
  refine ⟨by simp [h], by simp [h, hw], fun hr => Duplex.lastOwed_send ?_⟩
  rw [h]
  exact hr

/-- Nothing is in flight. -/
def Flushed (w : Transfer) : Prop := w.wire.requests = [] ∧ w.wire.replies = []

theorem pending_of_flushed (h : w.Flushed) : w.wire.pending (answer digest) = [] := by
  rw [Duplex.pending, h.1, h.2]
  rfl

/-- A host step keeps the invariant and, with nothing in flight, comes nearer the end. -/
structure Advances (digest : List UInt8 → Vector UInt8 32) (image : List UInt8)
    (target : UpdateTarget) (w w' : Transfer) : Prop where
  inv : w'.Inv digest image target
  nearer : w.Flushed → 0 < toGo w.host → toGo w'.host < toGo w.host

theorem advances_of_hostStep (host : Point (List UInt8)) (rx : List (List UInt8)) (wire : Wire)
    (progress : List UpdateProgress)
    (hw : w.hostStep digest = ⟨host, ⟨rx, []⟩, wire, progress⟩)
    (h : Stage digest image target host (rx ++ wire.pending (answer digest))
      ((wire.settled (answer digest)).session target) (wire.LastOwed (answer digest)) progress)
    (nearer : w.Flushed → 0 < toGo w.host → toGo host < toGo w.host) :
    w.Advances digest image target (w.hostStep digest) := by
  rw [hw]
  exact ⟨⟨h, rfl⟩, nearer⟩

/-- With nothing queued or parked, `update_op` comes to its send and sends once. -/
theorem op_step {host : Point (List UInt8)} {wire : Wire} {progress : List UpdateProgress}
    {call : Call} (at_ : host = .drain call ∨ host = .purge call ∨ host = .send call) :
    (∃ host', (host' = .purge call ∨ host' = .send call) ∧ toGo host' < toGo host ∧
      hostStep digest ⟨host, ⟨[], []⟩, wire, progress⟩ = ⟨host', ⟨[], []⟩, wire, progress⟩) ∨
    (host = .send call ∧ hostStep digest ⟨host, ⟨[], []⟩, wire, progress⟩ =
      ⟨.take call, ⟨[], []⟩, wire.send (call.frame digest), progress⟩) := by
  rcases at_ with rfl | rfl | rfl
  · exact .inl ⟨_, .inl rfl, Nat.lt_add_one _, by simp [hostStep, Point.step]⟩
  · exact .inl ⟨_, .inr rfl, Nat.lt_add_one _,
      by simp [hostStep, Point.step, Updates.dropHeld]⟩
  · exact .inr ⟨rfl, by simp [hostStep, Point.step]⟩

/-- With nothing parked, a wait looks again or ends with the one reply it may read, and
leaves nothing behind. -/
theorem wait_step {host : Point (List UInt8)} {rx : List (List UInt8)} {wire : Wire}
    {progress : List UpdateProgress} {call : Call} {r : List UInt8} {status : UpdateStatus}
    {arg : UInt32} (at_ : host = .take call ∨ host = .receive call)
    (hr : replyFor call.op r = some (status, arg))
    (hp : rx ++ wire.pending (answer digest) = [r]) :
    (∃ host', (host' = .take call ∨ host' = .receive call) ∧
      (wire.pending (answer digest) = [] → toGo host' < toGo host) ∧
      hostStep digest ⟨host, ⟨rx, []⟩, wire, progress⟩ = ⟨host', ⟨rx, []⟩, wire, progress⟩) ∨
    (hostStep digest ⟨host, ⟨rx, []⟩, wire, progress⟩ =
      ⟨(call.onReply status arg).1, ⟨[], []⟩, wire,
        progress ++ (call.onReply (ρ := List UInt8) status arg).2.toList⟩ ∧
      wire.pending (answer digest) = [] ∧ toGo host = toGoAfter call + 1) := by
  rcases at_ with rfl | rfl
  · exact .inl ⟨_, .inr rfl, fun _ => Nat.lt_add_one _,
      by simp [hostStep, Point.step, Updates.takeHeld]⟩
  · cases rx with
    | nil =>
      refine .inl ⟨_, .inl rfl, fun hw => ?_, by simp [hostStep, Point.step]⟩
      simp [hw] at hp
    | cons p rx =>
      obtain ⟨rfl, rfl, hw⟩ : p = r ∧ rx = [] ∧ wire.pending (answer digest) = [] := by
        simpa using hp
      exact .inr ⟨by simp [hostStep, Point.step, Call.finish, hr], hw, rfl⟩

/-- Up to its send a command changes nothing, and its frame is answered once. -/
theorem op_advances {host : Point (List UInt8)} {wire : Wire} {progress : List UpdateProgress}
    {call : Call} {s : MockUpdate} {reply : List UInt8}
    (at_ : host = .drain call ∨ host = .purge call ∨ host = .send call)
    (hw : wire.pending (answer digest) = [])
    (hanswer : answer digest (wire.settled (answer digest)) (call.frame digest) =
      ((wire.settled (answer digest)).setSession s target, some reply))
    (stay : ∀ host', (host' = .drain call ∨ host' = .purge call ∨ host' = .send call) →
      Stage digest image target host' [] ((wire.settled (answer digest)).session target)
        (wire.LastOwed (answer digest)) progress)
    (sent : ∀ last : Prop, last → Stage digest image target (.take call) [reply] s last progress) :
    Advances digest image target ⟨host, ⟨[], []⟩, wire, progress⟩
      (hostStep digest ⟨host, ⟨[], []⟩, wire, progress⟩) := by
  rcases op_step at_ with ⟨host', hat, hlt, hstep⟩ | ⟨rfl, hstep⟩
  · refine advances_of_hostStep _ _ _ _ hstep ?_ fun _ _ => hlt
    rw [hw]
    exact stay host' (.inr hat)
  · obtain ⟨hs, hsent, hl⟩ := send_answered hw hanswer
    refine advances_of_hostStep _ _ _ _ hstep ?_ fun _ _ => Nat.lt_add_one _
    rw [hs, hsent]
    exact sent _ (hl (Option.some_ne_none _))

/-- A wait looks again, or goes on as its one reply says. -/
theorem wait_advances {host : Point (List UInt8)} {rx : List (List UInt8)} {wire : Wire}
    {progress : List UpdateProgress} {call : Call} {r : List UInt8} {status : UpdateStatus}
    {arg : UInt32} (at_ : host = .take call ∨ host = .receive call)
    (hr : replyFor call.op r = some (status, arg))
    (hp : rx ++ wire.pending (answer digest) = [r])
    (stay : ∀ host', (host' = .take call ∨ host' = .receive call) →
      Stage digest image target host' [r] ((wire.settled (answer digest)).session target)
        (wire.LastOwed (answer digest)) progress)
    (read : Stage digest image target (call.onReply status arg).1 []
      ((wire.settled (answer digest)).session target) (wire.LastOwed (answer digest))
      (progress ++ (call.onReply (ρ := List UInt8) status arg).2.toList))
    (nearer : toGo (call.onReply status arg).1 ≤ toGoAfter call) :
    Advances digest image target ⟨host, ⟨rx, []⟩, wire, progress⟩
      (hostStep digest ⟨host, ⟨rx, []⟩, wire, progress⟩) := by
  rcases wait_step at_ hr hp with ⟨host', hat, hlt, hstep⟩ | ⟨hstep, hw, hgo⟩
  · refine advances_of_hostStep _ _ _ _ hstep ?_ fun hf _ => hlt (pending_of_flushed hf)
    rw [hp]
    exact stay host' hat
  · refine advances_of_hostStep _ _ _ _ hstep ?_ fun _ _ => ?_
    · rw [hw]
      exact read
    · rw [hgo]
      exact Nat.lt_succ_of_le nearer

theorem hostStep_advances (hne : image ≠ []) (hlen : image.length ≤ mockSlotSize)
    (h : w.Inv digest image target) :
    w.Advances digest image target (w.hostStep digest) := by
  obtain ⟨host, ⟨rx, held⟩, wire, progress⟩ := w
  obtain ⟨stage, rfl⟩ := h
  generalize hs : session digest _ target = s at stage
  generalize hp : pending digest _ = pending at stage
  dsimp only at stage
  simp only [Transfer.session] at hs
  simp only [Transfer.pending] at hp
  cases stage with
  | opening at_ idle =>
    obtain ⟨rfl, hw⟩ := List.append_eq_nil_iff.mp hp
    subst hs
    exact op_advances at_ hw (answer_begin idle hne hlen) (fun _ hat => .opening hat idle)
      fun _ => .waitingBegin (.inl rfl)
  | waitingBegin at_ owed =>
    refine wait_advances at_ (replyFor_replyBytes ..) hp (fun _ hat => ?_) ?_ le_rfl
    · rw [hs]
      exact .waitingBegin hat owed
    · rw [hs]
      exact .begun
  | begun =>
    obtain ⟨rfl, hw⟩ := List.append_eq_nil_iff.mp hp
    refine advances_of_hostStep (.chunks (.new image target 16)) [] wire [] rfl ?_ fun _ _ => ?_
    · rw [hs, hw, new_eq_planAt]
      exact .streaming rfl le_rfl (by omega) (chunkCount_pos hne) (.start image)
    · rw [new_eq_planAt, toGo_chunks]
      exact Nat.lt_add_one _
  | @streaming a k _ _ window from_ room left reported =>
    obtain ⟨rfl, hw⟩ := List.append_eq_nil_iff.mp hp
    have hdone : (planAt image target a k).done = false := by
      rw [← Bool.not_eq_true, done_planAt]
      omega
    obtain ⟨hs, hsent, hl⟩ := send_answered hw (answer_chunk hs left)
    refine advances_of_hostStep (.chunks (planAt image target a (k + 1))) []
      (wire.send (chunkFrame image target k)) progress ?_ ?_ fun _ _ => ?_
    · simp [hostStep, Point.step, hdone, nextFrame_planAt left room from_]
    · rw [hs, hsent]
      exact .chunk window from_ room left reported rfl hl
    · simp only [toGo_chunks]
      split <;> omega
  | @waitingAck _ a k _ _ at_ window from_ room left full owed reported =>
    have hnone : (planAt image target a k).nextFrame = none :=
      nextFrame_planAt_none (full.symm.imp Eq.ge Eq.ge)
    rcases at_ with rfl | hat
    · have hdone : (planAt image target a k).done = false := by
        rw [← Bool.not_eq_true, done_planAt]
        omega
      have hawait : (planAt image target a k).awaitingAck = true :=
        awaitingAck_planAt from_ (full.symm.imp Eq.ge Eq.ge)
      refine advances_of_hostStep (.take (.data (planAt image target a k))) rx wire progress
        ?_ ?_ fun _ _ => ?_
      · simp [hostStep, Point.step, hdone, hnone, hawait]
      · rw [hs, hp]
        exact .waitingAck (.inr (.inl rfl)) window from_ room left full owed reported
      · rw [toGo_chunks]
        simp only [toGo, toGoAfter, chunksLeft_planAt]
        split <;> omega
    · have hack : (Call.data (planAt image target a k)).onReply (ρ := List UInt8)
          UpdateStatus.ack (UInt16.ofNat k).toUInt32 =
          (.chunks (planAt image target k k), some ⟨target, sentAt image k, image.length⟩) := by
        simp only [Call.onReply, onAck_planAt]
      refine wait_advances hat (replyFor_replyBytes ..) hp (fun _ hat => ?_) ?_ ?_
      · rw [hs]
        exact .waitingAck (.inr hat) window from_ room left full owed reported
      · rw [hack, hs]
        have reported' : Reported image k (progress ++ [⟨target, sentAt image k, image.length⟩]) :=
          reported.push from_ left rfl
        rcases Nat.lt_or_eq_of_le left with hlt | rfl
        · exact .streaming (by omega) le_rfl (by omega) hlt reported'
        · exact .sent owed reported'
      · rw [hack]
        simp only [toGo_chunks, toGoAfter, chunksLeft_planAt]
        simp
  | sent owed reported =>
    have hdone := (done_planAt image target _ _).mpr ⟨le_refl (chunkCount image), le_rfl⟩
    refine advances_of_hostStep (.drain (.end_ target)) rx wire progress ?_ ?_ fun _ _ => ?_
    · simp only [hostStep, Point.step, hdone, if_true, Option.elim_none, Option.toList_none,
        List.append_nil]
      rfl
    · rw [hs, hp]
      exact .ending (.inl rfl) owed reported
    · simp only [toGo, toGoAfter]
      omega
  | ending at_ owed reported =>
    obtain ⟨rfl, hw⟩ := List.append_eq_nil_iff.mp hp
    refine op_advances at_ hw (answer_end hs) (fun _ hat => ?_)
      fun _ hl => .waitingEnd (.inl rfl) hl reported
    rw [hs]
    exact .ending hat owed reported
  | waitingEnd at_ owed reported =>
    refine wait_advances at_ (replyFor_replyBytes ..) hp (fun _ hat => ?_) ?_ le_rfl
    · rw [hs]
      exact .waitingEnd hat owed reported
    · rw [hs]
      simpa [Call.onReply] using .finished owed reported
  | finished owed reported =>
    refine advances_of_hostStep (.returned _) rx wire progress
      (by simp [hostStep, Point.step]; rfl) ?_ fun _ h0 => h0
    rw [hs, hp]
    exact .finished owed reported

theorem next_inv (hne : image ≠ []) (hlen : image.length ≤ mockSlotSize)
    (h : w.Inv digest image target) {m : Move} (hn : w.next digest m = some w') :
    w'.Inv digest image target := by
  cases m with
  | host =>
    cases hn
    exact (hostStep_advances hne hlen h).inv
  | box => exact box_inv h hn
  | reader => exact reader_inv h hn

theorem run_inv (hne : image ≠ []) (hlen : image.length ≤ mockSlotSize)
    (h : w.Inv digest image target) {moves : List Move}
    (hr : Steps.run (next digest) w moves = some w') : w'.Inv digest image target :=
  Steps.run_induction (fun _ _ _ hI (_ : True) hn => next_inv hne hlen hI hn) h
    (.of_forall (fun _ _ _ => trivial) w) hr

/-- The box and the reader can bring in everything in flight, and the host stands still. -/
theorem exists_flushed (digest : List UInt8 → Vector UInt8 32) (w : Transfer) :
    ∃ moves w', Steps.run (next digest) w moves = some w' ∧ w'.Flushed ∧ w'.host = w.host := by
  obtain ⟨host, link, ⟨requests, st, replies⟩, progress⟩ := w
  induction requests generalizing st replies with
  | cons f fs ih =>
    obtain ⟨moves, w', hr, hw⟩ :=
      ih (answer digest st f).1 (replies ++ (answer digest st f).2.toList)
    exact ⟨.box :: moves, w', hr, hw⟩
  | nil =>
    induction replies generalizing link with
    | nil => exact ⟨[], _, rfl, ⟨rfl, rfl⟩, rfl⟩
    | cons p ps ih =>
      obtain ⟨moves, w', hr, hw⟩ := ih { link with rx := link.rx ++ [p] }
      exact ⟨.reader :: moves, w', hr, hw⟩

theorem exists_ended (hne : image ≠ []) (hlen : image.length ≤ mockSlotSize)
    (h : w.Inv digest image target) :
    ∃ moves w', Steps.run (next digest) w moves = some w' ∧ toGo w'.host = 0 := by
  induction hgo : toGo w.host using Nat.strong_induction_on generalizing w with
  | _ n ih =>
    rcases Nat.eq_zero_or_pos n with rfl | hpos
    · exact ⟨[], w, rfl, hgo⟩
    · obtain ⟨flush, w₁, hr₁, hflushed, hhost⟩ := exists_flushed digest w
      have h₁ := run_inv hne hlen h hr₁
      have hstep := hostStep_advances hne hlen h₁
      have hlt := hstep.nearer hflushed (by rw [hhost, hgo]; exact hpos)
      rw [hhost, hgo] at hlt
      obtain ⟨moves, w', hr, hw⟩ := ih _ hlt hstep.inv rfl
      refine ⟨flush ++ .host :: moves, w', ?_, hw⟩
      rw [Steps.run_append, hr₁]
      exact hr

/-- What lock-step means of one state of a transfer. -/
structure InStep (digest : List UInt8 → Vector UInt8 32) (image : List UInt8)
    (target : UpdateTarget) (w : Transfer) : Prop where
  /-- A host that waits has exactly one reply to come, and it is the one it waits for. -/
  waits_owed : ∀ call, w.host = .take call ∨ w.host = .receive call →
    ∃ reply, w.pending digest = [reply] ∧ (replyFor call.op reply).isSome
  /-- At `END` the box owes nothing and nothing is queued, parked or in flight. -/
  end_clean : w.host = .drain (.end_ target) ∨ w.host = .purge (.end_ target) ∨
      w.host = .send (.end_ target) →
    w.link.rx = [] ∧ w.link.held = [] ∧ w.wire.requests = [] ∧ w.wire.replies = []
  increasing : (w.progress.map (·.sent)).Pairwise (· < ·)
  /-- A host that returns has staged the image whole. -/
  staged : ∀ result, w.host = .returned result →
    result = .ok (some (UInt32.ofNat image.length)) ∧
    (w.progress.getLast?).map (·.sent) = some image.length ∧
    (w.wire.server.session target).hasher = image ∧
    (w.wire.server.session target).staged = true ∧
    w.pending digest = []

variable (target) in
/-- The session is what the box has written once nothing is in flight. -/
theorem idle (h : w.wire.LastOwed (answer digest)) (hp : w.pending digest = []) :
    w.link.rx = [] ∧ w.wire.requests = [] ∧ w.wire.replies = [] ∧
      w.session digest target = w.wire.server.session target := by
  obtain ⟨hrx, hw⟩ := List.append_eq_nil_iff.mp hp
  obtain ⟨hreq, hrep⟩ := Duplex.idle_of_pending_nil h hw
  refine ⟨hrx, hreq, hrep, ?_⟩
  rw [session, Duplex.settled, hreq]
  rfl

theorem Inv.inStep (hne : image ≠ []) (h : w.Inv digest image target) :
    w.InStep digest image target where
  waits_owed _ hat := h.stage.reply_of_wait hat
  end_clean hat := by
    obtain ⟨hp, hl⟩ := h.stage.at_end hat
    obtain ⟨hrx, hreq, hrep, -⟩ := idle target hl hp
    exact ⟨hrx, h.held, hreq, hrep⟩
  increasing := h.stage.increasing
  staged result hat := by
    obtain ⟨hresult, hp, hl, hs, reported⟩ := h.stage.at_return hat
    obtain ⟨-, -, -, hserver⟩ := idle target hl hp
    rw [← hserver, hs]
    refine ⟨hresult, ?_, ?_, rfl, hp⟩
    · simpa using reported.last (chunkCount_pos hne)
    · simp [sessionStaged, sessionAt]

end Transfer

/-- In every state of every run the transfer is in lock-step, and from every such state it
can still come to its end. -/
theorem transfer_in_step (digest : List UInt8 → Vector UInt8 32) (image : List UInt8)
    (target : UpdateTarget) (st : UpdateState) (moves : List Move) (w : Transfer)
    (hne : image ≠ []) (hlen : image.length ≤ mockSlotSize)
    (hst : (st.session target).active = false)
    (hr : Steps.run (Transfer.next digest) (.start target image st) moves = some w) :
    w.InStep digest image target ∧
      ∃ more w', Steps.run (Transfer.next digest) w more = some w' ∧
        w'.host = .returned (.ok (some (UInt32.ofNat image.length))) := by
  have h := Transfer.run_inv hne hlen (Transfer.start_inv hne hst) hr
  obtain ⟨more, w', hmore, hgo⟩ := Transfer.exists_ended hne hlen h
  obtain ⟨result, hresult⟩ := returned_of_toGo_eq_zero hgo
  have h' := (Transfer.run_inv hne hlen h hmore).inStep hne
  exact ⟨h.inStep hne, more, w', hmore, by rw [hresult, (h'.staged result hresult).1]⟩

/-- The second window is under way, its last chunk sent and still to be read. -/
theorem transfer_in_step_short_chunk :
    let digest : List UInt8 → Vector UInt8 32 := fun bytes => .replicate 32 (bytes.headD 0)
    let image : List UInt8 := List.replicate (504 * 17 + 1) 7
    let moves : List Move :=
      [.host, .host, .host, .box, .reader, .host, .host, .host] ++
        (List.replicate 16 [.host, .box]).flatten ++
        [.reader, .host, .host, .host, .host, .box, .host]
    ∃ w, Steps.run (Transfer.next digest) (.start .host image {}) moves = some w ∧
      (w.progress.map (·.sent), w.wire.requests.map (·.length)) = ([504 * 16], [5]) ∧
      w.InStep digest image .host ∧
      ∃ more w', Steps.run (Transfer.next digest) w more = some w' ∧
        w'.host = .returned (.ok (some (UInt32.ofNat (504 * 17 + 1)))) := by
  intro digest image moves
  have hmoves : (Steps.run (Transfer.next digest) (.start .host image {}) moves).map
      (fun w => (w.progress.map (·.sent), w.wire.requests.map (·.length))) =
        some ([504 * 16], [5]) := by decide +kernel
  obtain ⟨w, hr, hsent⟩ := Option.map_eq_some_iff.mp hmoves
  have hlen : image.length = 504 * 17 + 1 := List.length_replicate
  have hstep := transfer_in_step digest image .host {} moves w (by decide)
    (hlen.trans_le (by decide)) rfl hr
  rw [hlen] at hstep
  exact ⟨w, hr, hsent, hstep⟩

end Medius.Update
