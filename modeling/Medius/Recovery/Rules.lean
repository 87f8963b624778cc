import Medius.Link.Keepalive

/-! What a turn of the keepalive keeps, from what its accesses keep. -/

namespace Medius.Recovery

open Link Keepalive Thread Medius.Types

variable {E : Type} {R : Shared E → Shared E → Prop} {I P : Shared E → Prop}

theorem triple_access {β : Type} {f : Shared E → Shared E × β} {Q : β → Shared E → Prop}
    (hP : Stable R I P) (hQ : ∀ b, Stable R I (Q b))
    (h : ∀ s, I s → P s → I (f s).1 ∧ Q (f s).2 (f s).1) : Triple R I P (access f) Q := by
  refine Triple.atomic hP hQ fun s _ s' b hI hPs hf => ?_
  have hs := h s hI hPs
  rwa [Option.some.inj hf] at hs

theorem triple_clock (hP : Stable R I P) : Triple R I P clock fun _ => P := by
  refine Triple.answer hP fun s i s' b hf => ?_
  cases i with
  | choice b =>
    cases hf
    rfl
  | _ => cases hf

/-- What is only read is kept. -/
theorem triple_read {β : Type} {f : Shared E → β} (hP : Stable R I P) :
    Triple R I P (access fun s => (s, f s)) fun _ => P :=
  triple_access hP (fun _ => hP) fun _ hI hPs => ⟨hI, hPs⟩

/-- What a query leaves, told apart by whether it was answered. -/
def answered {α : Type} (P Q : Shared E → Prop) (r : Option α) : Shared E → Prop :=
  if r.isSome then Q else P

@[simp] theorem answered_self {α : Type} (P : Shared E → Prop) (r : Option α) :
    answered P P r = P := ite_self P

theorem stable_answered {α : Type} {Q : Shared E → Prop} (hP : Stable R I P) (hQ : Stable R I Q)
    (r : Option α) : Stable R I (answered P Q r) := by
  unfold answered
  split
  · exact hQ
  · exact hP

section Queries

variable {ask : Query → Program E (Option Reply)} {Q : Shared E → Prop}

theorem triple_cloneUp (hP : Stable R I P) (hQ : Stable R I Q) (hQP : ∀ s, I s → Q s → P s)
    (hcaps : Triple R I P (ask .caps) (answered P Q))
    (hinfo : Triple R I Q (ask .deviceInfo) (answered Q Q)) :
    Triple R I P (cloneUp ask) (answered P Q) := by
  have hdown : ∀ (s : Shared E) {α : Type} (r : Option α), I s → answered P Q r s → P s := by
    intro s α r hI h
    unfold answered at h
    split at h
    · exact hQP s hI h
    · exact h
  have hinfo' : Triple R I Q (isCloned ask) (answered P Q) := by
    refine hinfo.bind fun r => ?_
    have hQ' : Stable R I (answered Q Q r) := stable_answered hQ hQ r
    have hQs : ∀ s, answered Q Q r s → Q s := fun s h => by simpa [answered] using h
    split
    · split
      · exact Triple.pure _ hQ' fun s _ h => hQs s h
      · exact Triple.pure _ hQ' fun s hI h => hQP s hI (hQs s h)
    · exact Triple.pure _ hQ' fun s hI h => hQP s hI (hQs s h)
  refine hcaps.bind fun r => ?_
  have hr : Stable R I (answered P Q r) := stable_answered hP hQ r
  split
  · exact Triple.ite (fun _ => Triple.pure _ hr fun _ _ h => h)
      fun _ => hinfo'.pre fun _ _ h => h
  · exact Triple.pure _ hr fun s hI h => hdown s _ hI h

/-- What neither query moves. -/
theorem triple_cloneUp_keeps (hP : Stable R I P) (hcaps : Triple R I P (ask .caps) fun _ => P)
    (hinfo : Triple R I P (ask .deviceInfo) fun _ => P) :
    Triple R I P (cloneUp ask) fun _ => P := by
  have h := triple_cloneUp hP hP (fun _ _ h => h) (hcaps.weaken (fun _ _ h => h) (by simp))
    (hinfo.weaken (fun _ _ h => h) (by simp))
  exact h.weaken (fun _ _ h => h) (by simp)

theorem triple_readStats {A : Option UInt16 → Shared E → Prop} (hA : ∀ r, Stable R I (A r))
    (h : Triple R I P (ask .stats) fun r => A (r.bind Reply.session)) :
    Triple R I P (readStats ask) A :=
  h.bind fun _ => Triple.pure _ (hA _) fun _ _ ha => ha

theorem triple_readClip {A : Option ClipStatus → Shared E → Prop} (hA : ∀ r, Stable R I (A r))
    (h : Triple R I P (ask .clip) fun r => A (r.bind Reply.ring)) :
    Triple R I P (readClip ask) A :=
  h.bind fun _ => Triple.pure _ (hA _) fun _ _ ha => ha

end Queries

section Step

variable {ask : Query → Program E (Option Reply)} {resend : Program E Bool} {cause : Cause}
  {U : Shared E → Prop} {A : Nat → Shared E → Prop} {B : Nat → UInt16 → Shared E → Prop}
  {C : Nat → UInt16 → Shared E → Prop} {Q : Outcome → Shared E → Prop}

theorem triple_step (hP : Stable R I P) (hA : ∀ seen, Stable R I (A seen))
    (hclone : Triple R I P (cloneUp ask) (answered P U))
    (hsample : Triple R I U sampleHellos A)
    (hdeclare : ∀ seen buttons, Triple R I (A seen) (noteDeclaredButtons buttons) fun _ => A seen)
    (hstats : ∀ seen, Triple R I (A seen) (readStats ask) fun r => r.elim P (B seen))
    (hresend : ∀ seen before, Triple R I (B seen before) resend fun sent =>
      if sent then C seen before else P)
    (hsettle : ∀ seen before, Triple R I (C seen before) (settle ask cause seen before) Q)
    (hwait : ∀ s, I s → P s → Q .wait s) : Triple R I P (step ask resend cause) Q := by
  have hstop : Triple R I P (pure Outcome.wait : Program E Outcome) Q := Triple.pure _ hP hwait
  refine hclone.bind fun up => ?_
  cases up with
  | none => exact hstop
  | some buttons =>
    refine (hsample.bind fun seen => ?_).pre fun _ _ h => h
    have hdecl : Triple R I (A seen) (declare buttons) fun _ => A seen :=
      Triple.ite (fun _ => hdeclare seen buttons) fun _ => Triple.pure _ (hA seen) fun _ _ h => h
    refine hdecl.bind fun _ => (hstats seen).bind fun before => ?_
    cases before with
    | none => exact hstop
    | some before =>
      refine (hresend seen before).bind fun sent => ?_
      cases sent with
      | false => exact hstop
      | true => exact hsettle seen before

theorem triple_conclude {seen : Nat} {before : UInt16} {gen : Nat} {ring : Option ClipStatus}
    {K M L : Shared E → Prop} (hQ : ∀ outcome, Stable R I (Q outcome))
    (hrelease : Triple R I P (noteRelease gen ring) fun _ => K)
    (hsession : Triple R I K (noteSession before) fun _ => M)
    (hcount : Triple R I M (countBoot cause) fun _ => L)
    (hfinish : Triple R I L (finish seen) fun ended => Q (if ended then .done else .again)) :
    Triple R I P (conclude cause seen before gen ring) Q :=
  hrelease.bind fun _ => hsession.bind fun _ => hcount.bind fun _ => hfinish.bind fun _ =>
    Triple.pure _ (hQ _) fun _ _ h => h

theorem triple_settled {before : UInt16} {G H : Shared E → Prop} (hP : Stable R I P)
    (hG : Stable R I G) (hH : Stable R I H) (hdown : ∀ s, I s → G s → P s)
    (hstats : Triple R I G (readStats ask) fun r => if r = some before then H else P)
    (up : Option UInt8) :
    Triple R I G (settled ask up before) fun held => if held then H else P := by
  refine Triple.ite (fun _ => hstats.bind fun r => ?_) fun _ => Triple.pure _ hG hdown
  by_cases hr : r = some before
  · rw [if_pos hr]
    exact Triple.pure _ hH fun s _ h => by simpa [hr] using h
  · rw [if_neg hr]
    exact Triple.pure _ hP fun s _ h => by simpa [hr] using h

theorem triple_settle {seen : Nat} {before : UInt16} {C : Shared E → Prop}
    {F : Nat → Shared E → Prop} {G H : Nat → Option ClipStatus → Shared E → Prop}
    (hP : Stable R I P) (hG : ∀ gen ring, Stable R I (G gen ring))
    (hH : ∀ gen ring, Stable R I (H gen ring))
    (hup : Triple R I C (cloneUp ask) fun _ => C)
    (hgen : Triple R I C clipRingGen F)
    (hring : ∀ gen, Triple R I (F gen) (readClip ask) (G gen))
    (hdown : ∀ gen ring s, I s → G gen ring s → P s)
    (hstats : ∀ gen ring, Triple R I (G gen ring) (readStats ask) fun r =>
      if r = some before then H gen ring else P)
    (hconclude : ∀ gen ring, Triple R I (H gen ring) (conclude cause seen before gen ring) Q)
    (hwait : ∀ s, I s → P s → Q .wait s) : Triple R I C (settle ask cause seen before) Q := by
  refine hup.bind fun up => hgen.bind fun gen => (hring gen).bind fun ring => ?_
  refine (triple_settled hP (hG gen ring) (hH gen ring) (hdown gen ring)
    (hstats gen ring) up).bind fun held => ?_
  cases held with
  | true => exact hconclude gen ring
  | false => exact Triple.pure _ hP hwait

end Step

section Turn

variable {ask glance : Query → Program E (Option Reply)} {resend : Program E Bool}
  {keep : Program E Unit}

theorem triple_recover {cause : Cause} {P₀ : Shared E → Prop} {Q : Outcome → Shared E → Prop}
    (hstep : Triple R I P₀ (step ask resend cause) Q)
    (hdone : Triple R I (Q .done) dropPending fun _ => P)
    (hagain : Triple R I (Q .again) (setPending .restart) fun _ => P)
    (hwait : ∀ s, I s → Q .wait s → P s) (hQ : Stable R I (Q .wait)) :
    Triple R I P₀ (recover ask resend cause) fun _ => P := by
  refine hstep.bind fun outcome => ?_
  cases outcome with
  | done => exact hdone
  | again => exact hagain
  | wait => exact Triple.pure _ hQ hwait

/-- `A` once the hellos are read, `B` once the ring is, `C` once the counter is too, `D` if the
hellos have not moved since, `F` if the counter has not either. -/
theorem triple_readRing {Q : Shared E → Prop} {A : Nat → Shared E → Prop}
    {B : Nat → ClipStatus → Shared E → Prop} {C : Nat → ClipStatus → UInt16 → Shared E → Prop}
    {D : ClipStatus → UInt16 → Shared E → Prop} {F : ClipStatus → Shared E → Prop}
    (hP : Stable R I P) (hQ : Stable R I Q) (hlook : Triple R I P lookHellos A)
    (hclip : ∀ before, Triple R I (A before) (readClip glance) fun r => r.elim Q (B before))
    (hstats : ∀ before status, Triple R I (B before status) (readStats glance) fun r =>
      r.elim Q (C before status))
    (hhellos : ∀ before status session, Triple R I (C before status session) hellos fun now =>
      if now ≠ before then Q else D status session)
    (hsession : ∀ status session, Triple R I (D status session) (sessionIs session) fun same =>
      if same then F status else Q)
    (hnote : ∀ seen status, Triple R I (F status) (clipNoteRing seen status false) fun _ => Q) :
    Triple R I P (readRing glance) fun _ => Q := by
  have hstop : Triple R I Q (pure () : Program E Unit) fun _ => Q :=
    Triple.pure _ hQ fun _ _ h => h
  refine (triple_read hP).bind fun seen => hlook.bind fun before => (hclip before).bind fun r => ?_
  cases r with
  | none => exact hstop
  | some status =>
    refine (hstats before status).bind fun r => ?_
    cases r with
    | none => exact hstop
    | some session =>
      refine (hhellos before status session).bind fun now => Triple.ite (fun hn => ?_) fun hn => ?_
      · rw [if_pos hn]
        exact hstop
      · rw [if_neg hn]
        refine (hsession status session).bind fun same => Triple.ite (fun hs => ?_) fun hs => ?_
        · rw [if_pos hs]
          exact hnote seen status
        · rw [if_neg hs]
          exact hstop

/-- What no access of a ring reading moves. -/
theorem triple_readRing_keeps (hP : Stable R I P)
    (hlook : Triple R I P lookHellos fun _ => P)
    (hglance : ∀ q, Triple R I P (glance q) fun _ => P)
    (hnote : ∀ seen status, Triple R I P (clipNoteRing seen status false) fun _ => P) :
    Triple R I P (readRing glance) fun _ => P := by
  refine triple_readRing (A := fun _ => P) (B := fun _ _ => P) (C := fun _ _ _ => P)
    (D := fun _ _ => P) (F := fun _ => P) hP hP hlook (fun _ => ?_) (fun _ _ => ?_)
    (fun _ _ _ => ?_) (fun _ _ => ?_) hnote
  · exact (triple_readClip (fun _ => hP) (hglance .clip)).weaken (fun _ _ h => h)
      fun r _ _ h => by cases r <;> exact h
  · exact (triple_readStats (fun _ => hP) (hglance .stats)).weaken (fun _ _ h => h)
      fun r _ _ h => by cases r <;> exact h
  · exact (triple_read hP).weaken (fun _ _ h => h) fun _ _ _ h => by split <;> exact h
  · exact (triple_read hP).weaken (fun _ _ h => h) fun _ _ _ h => by split <;> exact h

theorem triple_keepHeld (hP : Stable R I P)
    (hring : Triple R I P (readRing glance) fun _ => P)
    (hkeep : Triple R I P keep fun _ => P) :
    Triple R I P (keepHeld glance keep) fun _ => P := by
  refine Triple.bind (Q := fun _ => P) ?_ fun _ => hkeep
  refine (triple_read hP).bind fun _ => Triple.ite (fun _ => hring) fun _ => ?_
  exact Triple.pure _ hP fun _ _ h => h

theorem triple_watchSession {Q S T : Shared E → Prop}
    (hreleased : Triple R I Q (sessionReleased ask) fun released =>
      if released then S else P)
    (hbegin : Triple R I S beginRelease fun _ => T)
    (hpending : Triple R I T (setPending .released) fun _ => P)
    {otherwise : Program E Unit} (hother : Triple R I P otherwise fun _ => P) :
    Triple R I Q (watchSession ask otherwise) fun _ => P := by
  refine hreleased.bind fun released => ?_
  cases released with
  | true => exact hbegin.bind fun _ => hpending
  | false => exact hother

/-- `P` at every turn of the loop, `A` once what is owed is adopted, `N` while no recovery is
pending, `M` while one is. -/
theorem triple_turn {A N : Shared E → Prop} {M : Cause → Shared E → Prop} (hP : Stable R I P)
    (hN : Stable R I N) (hNP : ∀ s, I s → N s → P s)
    (hM : ∀ cause, Stable R I (M cause)) (hMP : ∀ cause s, I s → M cause s → P s)
    (hadopt : Triple R I P adopt fun _ => A)
    (hpending : Triple R I A pending fun p => p.elim N M)
    (hrecover : ∀ cause, Triple R I (M cause) (recover ask resend cause) fun _ => P)
    (hkeep : Triple R I P (keepHeld glance keep) fun _ => P)
    (hwatch : ∀ otherwise : Program E Unit, Triple R I P otherwise (fun _ => P) →
      Triple R I N (watchSession ask otherwise) fun _ => P) :
    Triple R I P (turn ask glance resend keep) fun _ => P := by
  have hstop : Triple R I P (pure () : Program E Unit) fun _ => P :=
    Triple.pure _ hP fun _ _ h => h
  have hwaiting : Triple R I P (rest ask glance keep true) fun _ => P := by
    refine (triple_read hP).bind fun idle => (triple_clock hP).bind fun early => ?_
    refine Triple.ite (fun _ => ?_) fun _ => Triple.ite (fun _ => hstop) fun _ => hkeep
    exact Triple.ite (fun _ => hstop) fun h => absurd (.inl rfl) h
  have hfree : Triple R I N (rest ask glance keep false) fun _ => P := by
    refine (triple_read hN).bind fun idle => (triple_clock hN).bind fun early => ?_
    refine Triple.ite (fun _ => ?_) fun _ => Triple.ite (fun _ => hstop.pre hNP) fun _ =>
      hwatch _ hkeep
    refine Triple.ite (fun _ => hstop.pre hNP) fun _ => (triple_clock hN).bind fun _ => ?_
    exact Triple.ite (fun _ => hwatch _ hstop) fun _ => hstop.pre hNP
  refine hadopt.bind fun _ => hpending.bind fun p => ?_
  cases p with
  | none => exact hfree
  | some cause =>
    refine (triple_clock (hM cause)).bind fun due =>
      Triple.ite (fun _ => hrecover cause) fun _ => ?_
    exact hwaiting.pre (hMP cause)

end Turn

end Medius.Recovery
