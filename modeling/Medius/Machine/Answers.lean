import Medius.Machine.Said
import Medius.Machine.Sound

/-! Each selector's reply: it fits a frame, and the host decodes from it what the box holds. -/

namespace Medius.Machine

open Protocol Mock Device Medius.Types Checked Readback

/-- What the reply to a query says of the box. -/
inductive Answer (b : Box) : List UInt8 → Resp → Prop
  | version {rest : List UInt8} : Answer b (qVersion :: rest) (.version (saidVersion b.version))
  | health {rest : List UInt8} : Answer b (qHealth :: rest) (.health b.liveHealth)
  | deviceInfo {rest : List UInt8} :
    Answer b (qDeviceInfo :: rest) (.deviceInfo (saidInfo b.liveInfo))
  | caps {rest : List UInt8} : Answer b (qCaps :: rest) (.caps b.liveCaps)
  | rate {rest : List UInt8} : Answer b (qRate :: rest) (.rate (saidRate b.rate))
  | stats {rest : List UInt8} : Answer b (qStats :: rest) (.stats b.stats)
  | locks {rest : List UInt8} (unscripted : b.locks = none) :
    Answer b (qLocks :: rest) (.locks (b.table.pack b.bearing.mode))
  | scripted {rest : List UInt8} {l : Locks} (scripted : b.locks = some l) :
    Answer b (qLocks :: rest) (.locks (saidLocks l))
  | catch_ {rest : List UInt8} : Answer b (qCatch :: rest) (.catch_ (saidCatch b.catch_))
  | imperfect {rest : List UInt8} :
    Answer b (qOptions :: optImperfect :: rest) (.imperfect b.imperfect)
  | movementRiding {rest : List UInt8} :
    Answer b (qOptions :: optMoveRide :: rest) (.movementRiding (window b.moveRideMs))
  | bearing {rest : List UInt8} :
    Answer b (qOptions :: optBearing :: rest) (.bearing (saidBearing b.bearing))
  | emitPace {rest : List UInt8} : Answer b (qOptions :: optEmit :: rest)
      (.emitPace (saidEmit b.emitPace b.renderMode b.renderReady b.emitForceHz b.advertisedHz
        b.imperfect.allowed))
  | render {rest : List UInt8} : Answer b (qOptions :: optRender :: rest)
      (.render ⟨b.renderMode, b.renderFull, b.renderReady⟩)
  | spread {rest : List UInt8} : Answer b (qOptions :: optSpread :: rest)
      (.spread ⟨b.spreadPercent, spreadSpan b.spreadPercent b.spreadLearnedUs⟩)
  | firmware {rest : List UInt8} (up : b.firmwareUnanswered = 0) :
    Answer b (qFirmware :: rest)
      (.firmware (saidFirmware b.version b.update (b.firmwarePending > 0)))
  | clip {rest : List UInt8} : Answer b (qClip :: rest) (.clip (saidClip b.clip))
  | rewrite {rest : List UInt8} {entries : List RewriteEntry}
    (rows : List.Forall₂ RuleRow b.rewrites.rewrites entries) :
    Answer b (qRewrite :: rest) (.rewrite ⟨b.rewrites.full, b.rewrites.gen, entries⟩)
  | patches {rest : List UInt8} {entries : List PatchEntry}
    (rows : List.Forall₂ PatchRow b.patches entries) :
    Answer b (qPatches :: rest) (.patches ⟨!b.patchPresented.isEmpty,
      decide (b.patches ≠ b.patchPresented), b.patchRefused, b.patchFull, entries⟩)
  | transforms {rest : List UInt8} {entries : List Transform}
    (rows : List.Forall₂ PairRow b.transforms.transforms entries) :
    Answer b (qTransforms :: rest) (.transforms ⟨b.transforms.full, entries⟩)

/-- The queries for one entry of a table. -/
def isEntryQuery (p : List UInt8) : Bool :=
  p.head? = some qRewriteEntry || p.head? = some qPatchEntry

/-- A reply the host can decode, to what the box holds. -/
def Answered (b : Box) (p payload : List UInt8) : Prop :=
  payload.length ≤ maxPayload ∧ ∃ resp, parseResp payload = .value resp ∧ Answer b p resp

section Queries

variable {b : Box} {rest payload : List UInt8}

theorem Answered.mk {p : List UInt8} {resp : Resp} (hlen : payload.length ≤ maxPayload)
    (hparse : parseResp payload = .value resp) (h : Answer b p resp) : Answered b p payload :=
  ⟨hlen, resp, hparse, h⟩

theorem parse_version (v : Version) (h : v.mac.length = 6) :
    parseResp (versionPayload v) = .value (.version (saidVersion v)) := by
  change (do return Resp.version (← Version.fromPayload (versionPayload v))) = _
  rw [version_reads v h]
  rfl

theorem answered_version (h : b.version.mac.length = 6) :
    Answered b (qVersion :: rest) (versionPayload b.version) := by
  refine .mk ?_ (parse_version _ h) .version
  have hname := List.length_take_le nameMax b.version.name.bytes
  simp only [versionPayload, List.length_cons, List.length_append, h, maxPayload]
  change _ ≤ 32 at hname
  omega

theorem answered_health : Answered b (qHealth :: rest) (healthPayload b.liveHealth) := by
  refine .mk (by simp [healthPayload, toLeBytes, maxPayload]) ?_ .health
  change (do return Resp.health (← Health.fromPayload (healthPayload b.liveHealth))) = _
  rw [health_reads]
  rfl

theorem answered_deviceInfo :
    Answered b (qDeviceInfo :: rest) (deviceInfoPayload b.liveInfo) := by
  refine .mk ?_ ?_ .deviceInfo
  · have hproduct := List.length_take_le deviceInfoProductMax b.liveInfo.product.bytes
    simp only [deviceInfoPayload, List.length_cons, List.length_append, length_toLeBytes,
      maxPayload]
    change _ ≤ 127 at hproduct
    omega
  · change (do return Resp.deviceInfo (← DeviceInfo.fromPayload (deviceInfoPayload b.liveInfo))) = _
    rw [deviceInfo_reads]
    rfl

theorem answered_caps : Answered b (qCaps :: rest) (capsPayload b.liveCaps) := by
  refine .mk (by simp [capsPayload, maxPayload]) ?_ .caps
  change (do return Resp.caps (← Reply.Caps.fromPayload (capsPayload b.liveCaps))) = _
  rw [caps_reads]
  rfl

theorem answered_rate : Answered b (qRate :: rest) (ratePayload b.rate) := by
  refine .mk (by simp [ratePayload, toLeBytes, maxPayload]) ?_ .rate
  change (do return Resp.rate (← Rate.fromPayload (ratePayload b.rate))) = _
  rw [rate_reads]
  rfl

theorem parseResp_stats (tail : List UInt8) : parseResp (qStats :: tail) =
    do return Resp.stats (← Stats.fromPayload (qStats :: tail)) := rfl

theorem parseResp_clip (tail : List UInt8) : parseResp (qClip :: tail) =
    do return Resp.clip (← ClipStatus.readPayload (qClip :: tail)) := rfl

theorem answered_stats : Answered b (qStats :: rest) (statsPayload b.stats) := by
  refine .mk (by simp [statsPayload, toLeBytes, toLeBytes32, maxPayload]) ?_ .stats
  refine Eq.trans (parseResp_stats _) ?_
  change (do return Resp.stats (← Stats.fromPayload (statsPayload b.stats))) = _
  rw [stats_reads]
  rfl

theorem parse_locks (l : Locks) :
    parseResp (locksPayload l) = .value (.locks (saidLocks l)) := by
  change (do return Resp.locks (← Reading.ofOption (Locks.fromPayload (locksPayload l)))) = _
  rw [locks_read]
  rfl

theorem answered_locks (h : Locks.BoxWf b.table) :
    Answered b (qLocks :: rest) (locksPayload b.liveLocks) := by
  refine .mk (length_locksPayload _) (parse_locks _) ?_
  unfold Box.liveLocks
  cases hscript : b.locks with
  | none =>
    rw [Option.getD_none, saidLocks_pack h]
    exact .locks hscript
  | some l => exact .scripted hscript

theorem answered_catch : Answered b (qCatch :: rest) (catchRespPayload b.catch_) := by
  refine .mk ?_ ?_ .catch_
  · have hcount : (b.catch_.entries.take catchMaxn).length ≤ 32 := List.length_take_le _ _
    have hrows : ((b.catch_.entries.take catchMaxn).flatMap catchEntryBytes).length =
        (b.catch_.entries.take catchMaxn).length * 7 := by
      simp only [List.length_flatMap, length_catchEntryBytes, List.map_const', List.sum_replicate,
        smul_eq_mul]
    simp only [catchRespPayload, clockBytes, List.length_cons, List.length_append, hrows,
      length_toLeBytes, length_toLeBytes32, maxPayload]
    omega
  · change (do return Resp.catch_ (← CatchState.fromPayload (catchRespPayload b.catch_))) = _
    rw [catch_reads]
    rfl

theorem answered_firmware (up : b.firmwareUnanswered = 0) : Answered b (qFirmware :: rest)
    (firmwarePayload b.version b.update (b.firmwarePending > 0)) := by
  refine .mk (by simp [firmwarePayload, toLeBytes32, maxPayload]) ?_ (.firmware up)
  change (do return Resp.firmware (← FirmwareInfo.fromPayload
    (firmwarePayload b.version b.update (b.firmwarePending > 0)))) = _
  rw [firmware_reads]
  rfl

theorem answered_clip (h : Holdable b.packetTriggers) : Answered b (qClip :: rest)
    (clipStatusPayload b.clip b.clipSettings b.packetTriggers) := by
  refine .mk (length_clip _ _ h) ?_ .clip
  refine Eq.trans (parseResp_clip _) ?_
  change (do return Resp.clip (← ClipStatus.readPayload
    (clipStatusPayload b.clip b.clipSettings b.packetTriggers))) = _
  rw [clip_reads _ _ h]
  rfl

theorem answered_rewrite (h : Rules b.rewrites.rewrites) :
    Answered b (qRewrite :: rest) (rewriteRespPayload b.rewrites) := by
  obtain ⟨entries, hread, hrows⟩ := rewrite_reads h
  refine .mk (length_rewriteRespPayload h) ?_ (.rewrite hrows)
  change (do return Resp.rewrite (← Types.RewriteTable.fromPayload
    (rewriteRespPayload b.rewrites))) = _
  rw [hread]
  rfl

theorem answered_patches (h : Patches b.patches) : Answered b (qPatches :: rest)
    (patchesRespPayload b.patches b.patchPresented b.patchRefused b.patchFull) := by
  obtain ⟨entries, hread, hrows⟩ := patches_read h b.patchPresented b.patchRefused b.patchFull
  refine .mk (length_patchesRespPayload h _ _ _) ?_ (.patches hrows)
  change (do return Resp.patches (← PatchSet.fromPayload
    (patchesRespPayload b.patches b.patchPresented b.patchRefused b.patchFull))) = _
  rw [hread]
  rfl

theorem answered_transforms (h : Pairs b.transforms.transforms) :
    Answered b (qTransforms :: rest) (transformsRespPayload b.transforms) := by
  obtain ⟨entries, hread, hrows⟩ := transforms_read h
  refine .mk (length_transformsRespPayload h) ?_ (.transforms hrows)
  change (do return Resp.transforms (← Transforms.fromPayload
    (transformsRespPayload b.transforms))) = _
  rw [hread]
  rfl

theorem parse_imperfect (i : ImperfectStatus) :
    parseResp (optionsImperfectPayload i) = .value (.imperfect i) := by
  change (do return Resp.imperfect (← ImperfectStatus.fromPayload (optionsImperfectPayload i))) = _
  rw [imperfect_reads]
  rfl

theorem parse_movementRiding (ms : UInt16) :
    parseResp (optionsMoveRidePayload ms) = .value (.movementRiding (window ms)) := by
  change (do return Resp.movementRiding (← movementRidingFromPayload
    (optionsMoveRidePayload ms))) = _
  rw [movementRiding_reads]
  rfl

theorem parse_bearing (bearing : Bearing) :
    parseResp (optionsBearingPayload bearing) = .value (.bearing (saidBearing bearing)) := by
  change (do return Resp.bearing (← Bearing.fromPayload (optionsBearingPayload bearing))) = _
  rw [bearing_reads]
  rfl

theorem parse_emitPace (pace : EmitPace) (render : RenderMode) (ready : Bool)
    (force : Option UInt16) (native : UInt16) (allowed : Bool) :
    parseResp (optionsEmitPayload pace render ready force native allowed) =
      .value (.emitPace (saidEmit pace render ready force native allowed)) := by
  change (do return Resp.emitPace (← EmitPaceStatus.fromPayload
    (optionsEmitPayload pace render ready force native allowed))) = _
  rw [emitPace_reads]
  rfl

theorem parse_render (mode : RenderMode) (full ready : Bool) :
    parseResp (optionsRenderPayload mode full ready) = .value (.render ⟨mode, full, ready⟩) := by
  change (do return Resp.render (← RenderStatus.fromPayload
    (optionsRenderPayload mode full ready))) = _
  rw [render_reads]
  rfl

theorem parse_spread (percent : UInt16) (learnedUs : UInt32) :
    parseResp (optionsSpreadPayload percent learnedUs) =
      .value (.spread ⟨percent, spreadSpan percent learnedUs⟩) := by
  change (do return Resp.spread (← SpreadStatus.fromPayload
    (optionsSpreadPayload percent learnedUs))) = _
  rw [spread_reads]
  rfl

/-- One case for each option a reply says. -/
theorem answered_option {id : UInt8} (h : b.optionReply id = some payload) :
    Answered b (qOptions :: id :: rest) payload := by
  unfold Box.optionReply at h
  by_cases himperfect : id = optImperfect
  · subst himperfect
    cases h
    exact .mk (by simp [optionsImperfectPayload, maxPayload]) (parse_imperfect _) .imperfect
  rw [if_neg himperfect] at h
  by_cases hride : id = optMoveRide
  · subst hride
    cases h
    exact .mk (by simp [optionsMoveRidePayload, toLeBytes, maxPayload]) (parse_movementRiding _)
      .movementRiding
  rw [if_neg hride] at h
  by_cases hbearing : id = optBearing
  · subst hbearing
    cases h
    exact .mk (by simp [optionsBearingPayload, toLeBytes, maxPayload]) (parse_bearing _) .bearing
  rw [if_neg hbearing] at h
  by_cases hemit : id = optEmit
  · subst hemit
    cases h
    exact .mk (by simp [optionsEmitPayload, toLeBytes, maxPayload]) (parse_emitPace ..) .emitPace
  rw [if_neg hemit] at h
  by_cases hrender : id = optRender
  · subst hrender
    cases h
    exact .mk (by simp [optionsRenderPayload, maxPayload]) (parse_render ..) .render
  rw [if_neg hrender] at h
  by_cases hspread : id = optSpread
  · subst hspread
    cases h
    exact .mk (by simp [optionsSpreadPayload, toLeBytes, toLeBytes32, maxPayload])
      (parse_spread ..) .spread
  rw [if_neg hspread] at h
  cases h

theorem answered_firmwareReply (h : b.firmwareReply.2 = some payload) :
    Answered b (qFirmware :: rest) payload := by
  unfold Box.firmwareReply at h
  split at h
  · cases h
  next hup =>
    cases h
    exact answered_firmware (Nat.eq_zero_of_not_pos hup)

/-- One case for each selector. -/
theorem answered_query (h : Sound b) {p : List UInt8} (hentry : isEntryQuery p = false)
    (hq : (b.queryReply p).2 = some payload) : Answered b p payload := by
  cases p with
  | nil => cases hq
  | cons what rest =>
    unfold Box.queryReply at hq
    dsimp only at hq
    by_cases hversion : what = qVersion
    · subst hversion
      cases hq
      exact answered_version b.mac_len
    rw [if_neg hversion] at hq
    by_cases hhealth : what = qHealth
    · subst hhealth
      cases hq
      exact answered_health
    rw [if_neg hhealth] at hq
    by_cases hinfo : what = qDeviceInfo
    · subst hinfo
      cases hq
      exact answered_deviceInfo
    rw [if_neg hinfo] at hq
    by_cases hcaps : what = qCaps
    · subst hcaps
      cases hq
      exact answered_caps
    rw [if_neg hcaps] at hq
    by_cases hrate : what = qRate
    · subst hrate
      cases hq
      exact answered_rate
    rw [if_neg hrate] at hq
    by_cases hstats : what = qStats
    · subst hstats
      cases hq
      exact answered_stats
    rw [if_neg hstats] at hq
    by_cases hlocks : what = qLocks
    · subst hlocks
      cases hq
      exact answered_locks h.locks
    rw [if_neg hlocks] at hq
    by_cases hcatch : what = qCatch
    · subst hcatch
      cases hq
      exact answered_catch
    rw [if_neg hcatch] at hq
    by_cases hoptions : what = qOptions
    · subst hoptions
      obtain ⟨id, hid, hoption⟩ := Option.bind_eq_some_iff.mp (hq : rest.head?.bind _ = _)
      obtain ⟨rest, rfl⟩ := List.head?_eq_some_iff.mp hid
      exact answered_option hoption
    rw [if_neg hoptions] at hq
    by_cases hfirmware : what = qFirmware
    · subst hfirmware
      exact answered_firmwareReply hq
    rw [if_neg hfirmware] at hq
    by_cases hclip : what = qClip
    · subst hclip
      cases hq
      exact answered_clip h.packets.holdable
    rw [if_neg hclip] at hq
    by_cases hrewrite : what = qRewrite
    · subst hrewrite
      cases hq
      exact answered_rewrite h.rules
    rw [if_neg hrewrite] at hq
    by_cases hrewriteEntry : what = qRewriteEntry
    · subst hrewriteEntry
      exact Bool.noConfusion (show true = false from hentry)
    rw [if_neg hrewriteEntry] at hq
    by_cases hpatches : what = qPatches
    · subst hpatches
      cases hq
      exact answered_patches h.patches
    rw [if_neg hpatches] at hq
    by_cases hpatchEntry : what = qPatchEntry
    · subst hpatchEntry
      exact Bool.noConfusion (show true = false from hentry)
    rw [if_neg hpatchEntry] at hq
    by_cases htransforms : what = qTransforms
    · subst htransforms
      cases hq
      exact answered_transforms h.pairs
    rw [if_neg htransforms] at hq
    cases hq

theorem Answer.replies {p : List UInt8} {resp : Resp} (h : Answer b p resp) :
    ∃ payload, (b.queryReply p).2 = some payload := by
  cases h with
  | firmware up =>
    refine ⟨firmwarePayload b.version b.update (b.firmwarePending > 0), ?_⟩
    change b.firmwareReply.2 = _
    rw [Box.firmwareReply, if_neg (by rw [up]; exact Nat.lt_irrefl 0)]
  | _ => exact ⟨_, rfl⟩

end Queries

end Medius.Machine
