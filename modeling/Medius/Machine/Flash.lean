import Medius.Machine.Stored
import Medius.Update.Staged

/-! What the whole box boots: an activate goes through only over images the box was told whole. -/

namespace Medius.Machine

open Protocol Mock Device Medius.Types Update

/-- What an event tells the update sessions. -/
def told : Box.Event → Option Told
  | .frame f => if f.ty = .update then some (.frame f.payload) else none
  | .script (.refuseNextActivate status) => some (.refuse status)
  | _ => none

/-- Whether the box answers, and its update sessions. -/
def duty (b : Box) : Bool × UpdateState := (b.respond, b.update)

section Steps

variable (digest : List UInt8 → Vector UInt8 32) (b : Box) (now : Nat)

theorem duty_of_beside {b b' : Box} (h : beside b' = beside b) : duty b' = duty b :=
  eq_of_beside duty (fun _ => rfl) h

theorem duty_arrived : duty (arrived b now) = duty b :=
  duty_of_beside (b := { b with pcSeen := true }) (beside_arrived b now)

theorem duty_applyOptionFrame (p : List UInt8) : duty (b.applyOptionFrame now p) = duty b := by
  obtain ⟨allow, hopt⟩ | ⟨_, _, _, _, _, _, _, _, _, hopt⟩ := applyOptionFrame_cases b now p
  · rw [hopt, Box.applyImperfect]
    cases allow with
    | true =>
      dsimp only
      split <;> rfl
    | false =>
      dsimp only
      split <;> rfl
  · rw [hopt]
    rfl

theorem duty_applyResetFrame (p : List UInt8) : duty (b.applyResetFrame now p) = duty b := by
  unfold Box.applyResetFrame
  split
  · rfl
  · dsimp only
    split <;> rfl

/-- A frame tells the update sessions nothing before it is answered. -/
theorem duty_applyFrame (ty : FrameType) (p : List UInt8) :
    duty (b.applyFrame now ty p) = duty b := by
  by_cases hoption : ty = .option
  · subst hoption
    exact duty_applyOptionFrame b now p
  by_cases hreset : ty = .reset
  · subst hreset
    exact duty_applyResetFrame b now p
  by_cases hreboot : ty = .rebootDl
  · subst hreboot
    obtain ⟨seen, said, hbeside⟩ := beside_applyRebootDlFrame b now p
    exact duty_of_beside (b := { b with pcSeen := seen, unsolicited := said }) hbeside
  · exact duty_of_beside (beside_applyFrame b now hoption hreset hreboot p)

theorem duty_updateReply (seq : UInt8) (p : List UInt8) :
    duty (b.updateReply digest seq p).1 = (b.respond, (b.update.onUpdate digest p).1) := by
  unfold Box.updateReply
  dsimp only
  have hmoved : ∀ b' : Box, b' = (if b.activates p then
      { b with
        update := (b.update.onUpdate digest p).1
        firmwareUnanswered := b.reboot.1
        firmwarePending := b.reboot.2 }
      else { b with update := (b.update.onUpdate digest p).1 }) →
      duty b' = (b.respond, (b.update.onUpdate digest p).1) := by
    rintro _ rfl
    split <;> rfl
  have hmoved := hmoved _ rfl
  revert hmoved
  generalize (if b.activates p then _ else _ : Box) = b'
  intro hmoved
  split
  · exact hmoved
  · split <;> exact hmoved

theorem duty_reply {b : Box} {update : UpdateState} (h : duty b = (true, update))
    (f : DecodedFrame) : duty (b.reply digest f).1 =
      (true, if f.ty = .update then (update.onUpdate digest f.payload).1 else update) := by
  obtain rfl : b.update = update := congrArg Prod.snd h
  have hresponds : b.respond = true := congrArg Prod.fst h
  unfold Box.reply
  rw [hresponds, Bool.not_true, if_neg Bool.false_ne_true]
  split
  next hty =>
    rw [hty, if_pos rfl, duty_updateReply, hresponds]
  next hty =>
    rw [hty, if_neg (by decide)]
    exact h
  next hty =>
    rw [hty, if_neg (by decide), ← h]
    refine fst_queryReply (P := fun b' => duty b' = duty b) rfl ?_ f.payload
    unfold Box.firmwareReply
    split <;> rfl
  next hty _ _ =>
    rw [if_neg hty]
    exact h

variable {b}

theorem duty_marked {b b' : Box} (h : Marked b b') : duty b' = duty b := by
  obtain ⟨_, rfl⟩ := h
  rfl

theorem duty_onFrame (h : duty b = (true, b.update)) (f : DecodedFrame) :
    duty (b.onFrame digest now f).1 =
      (true, if f.ty = .update then (b.update.onUpdate digest f.payload).1 else b.update) := by
  obtain ⟨b', b'', hb', hb'', hframe⟩ := @onFrame_cases digest b now f
  have hran : duty (b'.applyFrame now f.ty f.payload) = (true, b.update) := by
    rw [duty_applyFrame, duty_marked hb']
    exact (duty_arrived b now).trans h
  rw [hframe]
  change duty b'' = _
  exact (duty_marked hb'').trans (duty_reply digest hran f)

/-- The update sessions take in what they are told, and nothing else. -/
theorem duty_step (hresponds : b.respond = true) {e : Box.Event} (he : e ≠ .script .silent) :
    duty (b.step digest now e).1 = (true, (told e).elim b.update (after digest b.update)) := by
  have hsame : duty b = (true, b.update) := congrArg (fun r => (r, b.update)) hresponds
  cases e with
  | frame f =>
    refine (duty_onFrame digest now hsame f).trans ?_
    change _ = (true, (if f.ty = .update then some (Told.frame f.payload) else none).elim _ _)
    split <;> rfl
  | restart => exact hsame
  | linkLost => exact (duty_of_beside (beside_advance b now)).trans hsame
  | detach back => exact (duty_of_beside (beside_detach b now back)).trans hsame
  | attach => exact (duty_of_beside (beside_attach b now)).trans hsame
  | packet class_ id direction head =>
    exact (duty_of_beside (beside_clipPacket b class_ id direction head)).trans hsame
  | script s =>
    cases s with
    | silent => exact absurd rfl he
    | refuseNextActivate status =>
      exact congrArg (fun r => (r, after digest b.update (.refuse status))) hresponds
    | _ => exact hsame

theorem duty_run {events : List (Nat × Box.Event)} (hresponds : b.respond = true)
    (hsilent : ∀ e ∈ events, e.2 ≠ .script .silent) :
    duty (run digest b events) =
      (true, (events.filterMap fun e => told e.2).foldl (after digest) b.update) := by
  induction events generalizing b with
  | nil => exact congrArg (fun r => (r, b.update)) hresponds
  | cons e events ih =>
    rw [List.forall_mem_cons] at hsilent
    have hstep := duty_step digest e.1 hresponds hsilent.1
    have hrest := @ih (b.step digest e.1 e.2).1 (congrArg Prod.fst hstep) hsilent.2
    rw [show (b.step digest e.1 e.2).1.update = _ from congrArg Prod.snd hstep] at hrest
    refine hrest.trans ?_
    cases htold : told e.2 with
    | none => simp only [List.filterMap_cons, htold, Option.elim_none]
    | some x => simp only [List.filterMap_cons, htold, Option.elim_some, List.foldl_cons]

end Steps

section Activate

variable (digest : List UInt8 → Vector UInt8 32)

def anyStaged (st : UpdateState) : Bool := st.device.staged || st.host.staged

theorem onUpdate_activate {st : UpdateState} (hrefuse : st.refuseActivate = none) (t : UInt8)
    (body : List UInt8) : st.onUpdate digest (otaOpActivate :: t :: body) =
      (if anyStaged st then { st with device := {}, host := {} } else st,
        some (otaOpActivate :: 0 ::
          (if anyStaged st then UpdateStatus.ok else UpdateStatus.nothingStaged) ::
            toLeBytes32 0)) := by
  unfold UpdateState.onUpdate UpdateState.updateOp anyStaged
  dsimp only
  rw [if_pos rfl, hrefuse]
  dsimp only
  split <;> rfl

theorem staged_activated (st : UpdateState) (target : UpdateTarget) :
    ((if anyStaged st then { st with device := {}, host := {} } else st).session target).staged =
      false := by
  split
  · cases target <;> rfl
  next hnone =>
    rw [anyStaged, Bool.or_eq_true, not_or, Bool.not_eq_true, Bool.not_eq_true] at hnone
    cases target
    · exact hnone.1
    · exact hnone.2

theorem reply_activate {b : Box} {st : UpdateState} (h : duty b = (true, st))
    (hrefuse : st.refuseActivate = none) (seq t : UInt8) (body : List UInt8) :
    (b.reply digest ⟨.update, seq, otaOpActivate :: t :: body⟩).2 =
        some ⟨.updateResp, seq, otaOpActivate :: 0 ::
          (if anyStaged st then UpdateStatus.ok else UpdateStatus.nothingStaged) ::
            toLeBytes32 0⟩ ∧
      (b.reply digest ⟨.update, seq, otaOpActivate :: t :: body⟩).1.unsolicited =
        b.unsolicited := by
  obtain rfl : b.update = st := congrArg Prod.snd h
  have hresponds : b.respond = true := congrArg Prod.fst h
  unfold Box.reply Box.updateReply
  rw [hresponds, Bool.not_true, if_neg Bool.false_ne_true]
  dsimp only
  rw [onUpdate_activate digest hrefuse]
  dsimp only
  have hop : (otaOpActivate :: t :: body).head? ≠ some otaOpData := fun h => by
    rw [List.head?_cons] at h
    exact absurd (Option.some.inj h) (by decide)
  rw [if_neg hop]
  refine ⟨rfl, ?_⟩
  split <;> rfl

/-- In every run of a box that answers, an image it holds staged it was told whole: the chunks of
an undisturbed session, of the size and with the digest it was announced with.  An activate is
acknowledged exactly if there is such an image, and leaves none. -/
theorem boots_only_verified {events : List (Nat × Box.Event)}
    (hsilent : ∀ e ∈ events, e.2 ≠ .script .silent) :
    let b := run digest .default events
    (∀ target, (b.update.session target).staged = true →
      ∃ image, Verified digest target (events.filterMap fun e => told e.2) image) ∧
    (b.update.refuseActivate = none → ∀ now seq t body,
      let r := b.onFrame digest now ⟨.update, seq, otaOpActivate :: t :: body⟩
      r.2 = (if b.pcSeen then [] else [b.helloFrame]) ++ [⟨.updateResp, seq, otaOpActivate :: 0 ::
          (if anyStaged b.update then UpdateStatus.ok else UpdateStatus.nothingStaged) ::
            toLeBytes32 0⟩] ∧
        ∀ target, (r.1.update.session target).staged = false) := by
  intro b
  have hduty := duty_run digest (b := .default) rfl hsilent
  have hupdate : b.update = (events.filterMap fun e => told e.2).foldl (after digest) {} :=
    congrArg Prod.snd hduty
  have hsame : duty b = (true, b.update) :=
    congrArg (fun r => (r, b.update)) (congrArg Prod.fst hduty)
  refine ⟨fun target hstaged => ?_, fun hrefuse now seq t body => ?_⟩
  · rw [hupdate] at hstaged
    exact verified_of_staged digest _ target hstaged
  · obtain ⟨b', b'', hb', hb'', hframe⟩ :=
      @onFrame_cases digest b now ⟨.update, seq, otaOpActivate :: t :: body⟩
    have hran : duty b' = (true, b.update) :=
      (duty_marked hb').trans ((duty_arrived b now).trans hsame)
    obtain ⟨hreply, hquiet⟩ := reply_activate digest hran hrefuse seq t body
    have hempty : b''.unsolicited = [] := by
      obtain ⟨_, hb''⟩ := hb''
      obtain ⟨_, hb'⟩ := hb'
      rw [congrArg Box.unsolicited hb'']
      refine hquiet.trans ?_
      rw [congrArg Box.unsolicited hb']
      exact (unsolicited_arrived b now).trans (unsolicited_run digest rfl events)
    refine ⟨?_, fun target => ?_⟩
    · rw [hframe, hempty, List.append_nil]
      exact congrArg (fun r : Option DecodedFrame => _ ++ r.toList) hreply
    · have hafter : (b.onFrame digest now ⟨.update, seq, otaOpActivate :: t :: body⟩).1.update =
          (b.update.onUpdate digest (otaOpActivate :: t :: body)).1 :=
        congrArg Prod.snd (duty_onFrame digest now hsame _)
      change ((b.onFrame digest now ⟨.update, seq, _⟩).1.update.session target).staged = false
      rw [hafter, onUpdate_activate digest hrefuse]
      exact staged_activated b.update target

theorem boots_only_verified_staged :
    let events : List (Nat × Box.Event) :=
      [(1, .frame ⟨.update, 1, otaOpBegin :: 0 :: toLeBytes32 1 ++ List.replicate 32 0⟩),
        (2, .frame ⟨.update, 2, [otaOpData, 0, 0, 0, 0xA5]⟩),
        (3, .frame ⟨.update, 3, [otaOpEnd, 0]⟩)]
    let b := run (fun _ => Vector.replicate 32 0) .default events
    (∀ target, (b.update.session target).staged = true →
      ∃ image, Verified (fun _ => Vector.replicate 32 0) target
        (events.filterMap fun e => told e.2) image) ∧
    (b.update.refuseActivate = none → ∀ now seq t body,
      let r := b.onFrame (fun _ => Vector.replicate 32 0) now
        ⟨.update, seq, otaOpActivate :: t :: body⟩
      r.2 = (if b.pcSeen then [] else [b.helloFrame]) ++ [⟨.updateResp, seq, otaOpActivate :: 0 ::
          (if anyStaged b.update then UpdateStatus.ok else UpdateStatus.nothingStaged) ::
            toLeBytes32 0⟩] ∧
        ∀ target, (r.1.update.session target).staged = false) :=
  boots_only_verified _ fun e he => by
    simp only [List.mem_cons, List.not_mem_nil, or_false] at he
    obtain rfl | rfl | rfl := he <;> exact Box.Event.noConfusion

end Activate

end Medius.Machine
