import Medius.Update.Callers

/-! Which replies a staging run takes, in any run beside other callers. -/

namespace Medius.Update

open Protocol Medius.Types Medius.Device

namespace World

variable {digest : List UInt8 → Vector UInt8 32} {w w' : World}

/-- Somewhere a caller can still take it from. -/
def Lives (w : World) (r : Reply) : Prop :=
  Within w.stage w.link r ∨ ∃ i, inHand (w.others i) = some r

structure Inv (w : World) : Prop where
  asking : phase w.stage = .asking → w.acked = []
  opened : phase w.stage = .opened ∨ phase w.stage = .streaming → w.begun.isSome
  streaming : phase w.stage = .streaming → ∀ r, w.Stale r → ¬w.Lives r
  bound : ∀ b, w.begun = some b → b ≤ w.arrivals
  fresh : w.Fresh

theorem start_inv (target : UpdateTarget) (image : List UInt8) (link : Updates Reply)
    (arrivals : Nat) : (start target image link arrivals).Inv := by
  have hphase : phase (start target image link arrivals).stage = .asking ∨
      phase (start target image link arrivals).stage = .after := by
    simp only [start, stageFirmware]
    split
    · exact .inr rfl
    · exact .inl rfl
  refine ⟨fun _ => rfl, ?_, ?_, fun b hb => (by cases hb), fun r hr => (by cases hr)⟩
  · rintro (h | h) <;> rw [h] at hphase <;> rcases hphase with h | h <;> cases h
  · intro h
    rw [h] at hphase
    rcases hphase with h | h <;> cases h

/-- A step by which nothing stale comes to life. -/
theorem Inv.of_lives (h : w.Inv) (hstage : w'.stage = w.stage) (hbegun : w'.begun = w.begun)
    (hacked : w'.acked = w.acked) (harrivals : w.arrivals ≤ w'.arrivals)
    (hlives : ∀ r, w'.Stale r → w'.Lives r → w.Lives r) : w'.Inv where
  asking := by rw [hstage, hacked]; exact h.asking
  opened := by rw [hstage, hbegun]; exact h.opened
  streaming := by
    rw [hstage]
    intro hp r hr hl
    have hr' : w.Stale r := by rwa [Stale, hbegun] at hr
    exact h.streaming hp r hr' (hlives r hr hl)
  bound b hb := (h.bound b (hbegun ▸ hb)).trans harrivals
  fresh r hr := by
    rw [hbegun]
    exact h.fresh r (hacked ▸ hr)

theorem arrive_inv (h : w.Inv) {bytes : List UInt8}
    (hn : w.next digest (.arrive bytes) = some w') : w'.Inv := by
  cases hn
  refine h.of_lives rfl rfl rfl (Nat.le_succ _) fun r ⟨_, b, hb, hlt⟩ hl => ?_
  have hbound := h.bound b hb
  rcases hl with (hrx | hrest) | hothers
  · rcases List.mem_append.mp hrx with hrx | hnew
    · exact .inl (.inl hrx)
    · obtain rfl := List.mem_singleton.mp hnew
      exact absurd hlt (by simpa using hbound)
  · exact .inl (.inr hrest)
  · exact .inr hothers

theorem inHand_update {others : Nat → Point Reply} {caller i : Nat} {p : Point Reply} {r : Reply}
    (h : inHand (Function.update others caller p i) = some r) :
    inHand p = some r ∨ inHand (others i) = some r := by
  by_cases hic : i = caller
  · subst hic
    rw [Function.update_self] at h
    exact .inl h
  · rw [Function.update_of_ne hic] at h
    exact .inr h

theorem inHand_enter (errand : Errand) : inHand errand.enter = none := by
  cases errand <;> rfl

theorem enter_inv (h : w.Inv) {caller : Nat} {errand : Errand}
    (hn : w.next digest (.enter caller errand) = some w') : w'.Inv := by
  simp only [next] at hn
  split at hn
  · cases hn
    refine h.of_lives rfl rfl rfl le_rfl fun r _ hl => hl.imp_right fun ⟨i, hi⟩ => ⟨i, ?_⟩
    exact (inHand_update hi).resolve_left (by cases errand <;> simp [inHand_enter])
  · cases hn

theorem other_inv (h : w.Inv) {caller : Nat} {luck : Luck}
    (hn : w.next digest (.other caller luck) = some w') : w'.Inv := by
  cases hn
  have hkeeps := step_keeps Reply.bytes digest (w.others caller) luck w.link
  refine h.of_lives rfl rfl rfl le_rfl fun r _ hl => ?_
  have hmoved : ∀ r, Within ((w.others caller).step Reply.bytes digest luck w.link).1
      ((w.others caller).step Reply.bytes digest luck w.link).2.1 r → w.Lives r := by
    intro r hr
    rcases hkeeps.within r hr with hr | hr | hr
    · exact .inl (.inl hr)
    · exact .inl (.inr (.inl hr))
    · exact .inr ⟨caller, hr⟩
  rcases hl with (hr | hr | hr) | ⟨i, hi⟩
  · exact hmoved r (.inl hr)
  · exact hmoved r (.inr (.inl hr))
  · exact .inl (.inr (.inr hr))
  · exact (inHand_update hi).elim (fun h => hmoved r (.inr (.inr h))) fun h => .inr ⟨i, h⟩

variable (digest) in
theorem begun_stageStep (w : World) (luck : Luck) :
    (w.stageStep digest luck).begun = w.begun ∨
      (w.stageStep digest luck).begun = some w.arrivals ∧ phase w.stage = .asking := by
  simp only [stageStep]
  split
  next hs =>
    split
    · exact .inr ⟨rfl, hs ▸ rfl⟩
    · exact .inl rfl
  next => exact .inl rfl

theorem mem_acked_stageStep {luck : Luck} {r : Reply}
    (h : r ∈ (w.stageStep digest luck).acked) :
    r ∈ w.acked ∨ phase w.stage = .streaming ∧ (replyFor otaOpData r.bytes).isSome ∧
      (r ∈ w.link.rx ∨ r ∈ w.link.held) := by
  have htook : ∀ plan : ChunkPlan, (w.stage = .take (.data plan) ∨ w.stage = .receive (.data plan)) →
      r ∈ (w.stage.step Reply.bytes digest luck w.link).2.2.took.toList →
      phase w.stage = .streaming ∧ (replyFor otaOpData r.bytes).isSome ∧
        (r ∈ w.link.rx ∨ r ∈ w.link.held) := by
    intro plan hs hr
    rw [Option.mem_toList] at hr
    refine ⟨?_, replyFor_of_took hs hr, (step_keeps _ _ w.stage luck w.link).took r hr⟩
    rcases hs with hs | hs <;> rw [hs] <;> rfl
  simp only [stageStep] at h
  split at h
  next plan hs => exact (List.mem_append.mp h).imp_right (htook plan (.inl hs))
  next plan hs => exact (List.mem_append.mp h).imp_right (htook plan (.inr hs))
  next => exact .inl h

theorem lives_stageStep {luck : Luck} {r : Reply} (h : (w.stageStep digest luck).Lives r) :
    w.Lives r :=
  h.imp_left ((step_keeps _ _ w.stage luck w.link).within r)

theorem begun_of_send {luck : Luck} {image : List UInt8} {target : UpdateTarget}
    (hs : w.stage = .send (.begin_ image target))
    (hsent : (w.stage.step Reply.bytes digest luck w.link).2.2.sent.isSome) :
    (w.stageStep digest luck).begun = some w.arrivals := by
  simp only [stageStep, hs] at hsent ⊢
  rw [if_pos hsent]

/-- The purge leaves no stale reply alive when it finds them all parked. -/
theorem not_lives_of_purge {luck : Luck} {image : List UInt8} {target : UpdateTarget}
    {credit : UInt32} (hs : w.stage = .purgeData image target credit)
    (hok : w.PurgeInTime (.stage luck)) {r : Reply} (hr : w.Stale r) :
    ¬(w.stageStep digest luck).Lives r := by
  simp only [PurgeInTime, hs] at hok
  obtain ⟨hrx, hhand⟩ := hok r hr
  have hhead : r.bytes.head? = some otaOpData := head?_of_replyFor hr.1
  rintro ((hl | hl | hl) | ⟨i, hi⟩)
  · exact hrx (by simpa [stageStep, hs, Point.step, Updates.dropHeld] using hl)
  · simp only [stageStep, hs, Point.step, Updates.dropHeld, List.mem_filter,
      decide_eq_true_eq] at hl
    exact hl.2 hhead
  · simp [stageStep, hs, Point.step, inHand] at hl
  · exact hhand i hi

theorem stage_inv (h : w.Inv) {luck : Luck} (hok : w.PurgeInTime (.stage luck)) :
    (w.stageStep digest luck).Inv := by
  have hphase :=
    (phase_step Reply.bytes digest w.stage luck w.link).spec
  have hnext : (w.stageStep digest luck).stage =
    (w.stage.step Reply.bytes digest luck w.link).1 := rfl
  rw [← hnext] at hphase
  have hbegun := begun_stageStep digest w luck
  have hsame : phase w.stage ≠ .asking → (w.stageStep digest luck).begun = w.begun :=
    fun hp => hbegun.resolve_right fun hb => hp hb.2
  refine ⟨?_, ?_, ?_, ?_, ?_⟩
  · intro hp
    have hasking : phase w.stage = .asking := by
      rcases hphase with h | h | ⟨h, -⟩ | ⟨h, -⟩ <;> rw [hp] at h
      · exact h.symm
      all_goals cases h
    refine List.eq_nil_iff_forall_not_mem.mpr fun r hr => ?_
    rcases mem_acked_stageStep hr with hr | ⟨hstream, -⟩
    · rw [h.asking hasking] at hr
      cases hr
    · rw [hasking] at hstream
      cases hstream
  · intro hp
    rcases hphase with hstay | hleave | ⟨-, hsent, image, target, hs⟩ | ⟨-, image, target, c, hs⟩
    · rw [hstay] at hp
      have hold := h.opened hp
      rw [hsame (by rcases hp with hp | hp <;> rw [hp] <;> decide)]
      exact hold
    · rw [hleave] at hp
      rcases hp with hp | hp <;> cases hp
    · rw [begun_of_send hs hsent]
      rfl
    · have hp : phase w.stage = .opened := by rw [hs]; rfl
      rw [hsame (by rw [hp]; decide)]
      exact h.opened (.inl hp)
  · intro hp r hr hl
    rcases hphase with hstay | hleave | ⟨hopen, -⟩ | ⟨-, image, target, c, hs⟩
    · rw [hp] at hstay
      rw [Stale, hsame (by rw [← hstay]; decide)] at hr
      exact h.streaming hstay.symm r hr (lives_stageStep hl)
    · rw [hp] at hleave
      cases hleave
    · rw [hp] at hopen
      cases hopen
    · have hp : phase w.stage = .opened := by rw [hs]; rfl
      rw [Stale, hsame (by rw [hp]; decide)] at hr
      exact not_lives_of_purge hs hok hr hl
  · intro b hb
    rcases hbegun with hb' | ⟨hb', -⟩
    · exact h.bound b (hb' ▸ hb)
    · rw [hb'] at hb
      cases hb
      exact le_rfl
  · intro r hr
    rcases mem_acked_stageStep hr with hr | ⟨hp, hdata, hr⟩
    · by_cases hp : phase w.stage = .asking
      · rw [h.asking hp] at hr
        cases hr
      · rw [hsame hp]
        exact h.fresh r hr
    · rw [hsame (by rw [hp]; decide)]
      obtain ⟨b, hb⟩ := Option.isSome_iff_exists.mp (h.opened (.inr hp))
      refine ⟨b, hb, Nat.le_of_not_lt fun hlt => h.streaming hp r ⟨hdata, b, hb, hlt⟩ ?_⟩
      exact .inl (hr.imp_right .inl)

theorem next_inv (h : w.Inv) {l : Label} (hok : w.PurgeInTime l)
    (hn : w.next digest l = some w') : w'.Inv := by
  cases l with
  | stage luck =>
    cases hn
    exact stage_inv h hok
  | other => exact other_inv h hn
  | enter => exact enter_inv h hn
  | arrive => exact arrive_inv h hn

end World

/-- While every purge after `READY` is in time, no acknowledgement taken is an earlier
command's. -/
theorem fresh_of_purgeInTime (digest : List UInt8 → Vector UInt8 32) (target : UpdateTarget)
    (image : List UInt8) (link : Updates Reply) (arrivals : Nat) (labels : List Label)
    (w : World)
    (hok : Steps.Guarded (World.next digest) World.PurgeInTime
      (.start target image link arrivals) labels)
    (hr : Steps.run (World.next digest) (.start target image link arrivals) labels = some w) :
    w.Fresh :=
  (Steps.run_induction (fun _ _ _ hI hok hn => World.next_inv hI hok hn)
    (World.start_inv target image link arrivals) hok hr).fresh

/-- An abort takes a left-over acknowledgement off the channel, the transfer purges, and
only then does the abort park it: the transfer takes it for its own chunk. -/
theorem stale_reply_taken :
    let digest : List UInt8 → Vector UInt8 32 := fun bytes => .replicate 32 (bytes.headD 0)
    let stale : Reply := ⟨0, otaOpData :: 0 :: UpdateStatus.ack :: toLeBytes32 1⟩
    let labels : List Label :=
      [.enter 0 (.abort .device), .other 0 .fine,
        .stage .fine, .stage .fine, .stage .fine,
        .arrive (otaOpBegin :: 0 :: UpdateStatus.ready :: toLeBytes32 16),
        .stage .fine, .stage .fine, .stage .fine,
        .other 0 .fine,
        .stage .fine, .stage .fine, .stage .fine]
    ∃ w, Steps.run (World.next digest) (.start .device [7] ⟨[stale], []⟩ 1) labels = some w ∧
      w.acked = [stale] ∧ w.begun = some 1 ∧ ¬w.Fresh := by
  intro digest stale labels
  refine ⟨_, rfl, rfl, rfl, fun h => ?_⟩
  obtain ⟨b, hb, hle⟩ := h stale (List.mem_singleton_self _)
  cases hb
  exact absurd hle (by decide)

/-- With nobody else on the link the left-over reply is dropped. -/
theorem fresh_of_purgeInTime_alone :
    let digest : List UInt8 → Vector UInt8 32 := fun bytes => .replicate 32 (bytes.headD 0)
    let stale : Reply := ⟨0, otaOpData :: 0 :: UpdateStatus.ack :: [1, 0, 0, 0]⟩
    let fresh : Reply := ⟨2, otaOpData :: 0 :: UpdateStatus.ack :: [1, 0, 0, 0]⟩
    let labels : List Label :=
      [.stage .fine, .stage .fine, .stage .fine,
        .arrive (otaOpBegin :: 0 :: UpdateStatus.ready :: [16, 0, 0, 0]),
        .stage .fine, .stage .fine, .stage .fine, .stage .fine,
        .arrive fresh.bytes, .stage .fine, .stage .fine, .stage .fine]
    ∃ w, Steps.run (World.next digest) (.start .device [7] ⟨[], [stale]⟩ 1) labels = some w ∧
      w.acked = [fresh] ∧ w.Fresh := by
  intro digest stale fresh labels
  let ready : Reply := ⟨1, otaOpBegin :: 0 :: UpdateStatus.ready :: [16, 0, 0, 0]⟩
  let credit : UInt32 := fromLeBytes32 16 0 0 0
  let plan : ChunkPlan := { ChunkPlan.new [7] .device credit with seq := 1, sent := 1, unacked := 1 }
  let at_ (stage : Point Reply) (rx held : List Reply) (arrivals : Nat) (begun : Option Nat) :
      World := ⟨stage, fun _ => .returned (.ok none), ⟨rx, held⟩, arrivals, begun, []⟩
  have hpurge : (at_ (.purgeData [7] .device credit) [] [stale] 2 (some 1)).PurgeInTime
      (.stage .fine) := fun _ _ => ⟨List.not_mem_nil, fun _ => by simp [at_, inHand]⟩
  have hok : Steps.Guarded (World.next digest) World.PurgeInTime
      (.start .device [7] ⟨[], [stale]⟩ 1) labels :=
    .cons trivial (show _ = some (at_ (.purge (.begin_ [7] .device)) [] [stale] 1 none) from rfl) <|
    .cons trivial (show _ = some (at_ (.send (.begin_ [7] .device)) [] [stale] 1 none) from rfl) <|
    .cons trivial
      (show _ = some (at_ (.take (.begin_ [7] .device)) [] [stale] 1 (some 1)) from rfl) <|
    .cons trivial
      (show _ = some (at_ (.take (.begin_ [7] .device)) [ready] [stale] 2 (some 1)) from rfl) <|
    .cons trivial
      (show _ = some (at_ (.receive (.begin_ [7] .device)) [ready] [stale] 2 (some 1)) from rfl) <|
    .cons trivial
      (show _ = some (at_ (.purgeData [7] .device credit) [] [stale] 2 (some 1)) from rfl) <|
    .cons hpurge (show _ = some (at_ (.chunks (.new [7] .device credit)) [] [] 2 (some 1)) from rfl) <|
    .cons trivial (show _ = some (at_ (.chunks plan) [] [] 2 (some 1)) from rfl) <|
    .cons trivial (show _ = some (at_ (.chunks plan) [fresh] [] 3 (some 1)) from rfl) <|
    .cons trivial (show _ = some (at_ (.take (.data plan)) [fresh] [] 3 (some 1)) from rfl) <|
    .cons trivial (show _ = some (at_ (.receive (.data plan)) [fresh] [] 3 (some 1)) from rfl) <|
    ⟨trivial, fun _ _ => trivial⟩
  obtain ⟨w, hr, hacked⟩ : ∃ w, Steps.run (World.next digest)
      (.start .device [7] ⟨[], [stale]⟩ 1) labels = some w ∧ w.acked = [fresh] := ⟨_, rfl, rfl⟩
  exact ⟨w, hr, hacked, fresh_of_purgeInTime digest .device [7] ⟨[], [stale]⟩ 1 labels w hok hr⟩

end Medius.Update
