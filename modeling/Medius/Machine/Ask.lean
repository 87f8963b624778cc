import Medius.Machine.Entries
import Medius.Machine.Host

/-! A query of the host's, from the waiter it registers to the reply the waiter gets. -/

namespace Medius.Machine

open Protocol Mock Link Medius.Types

namespace Host

variable {digest : List UInt8 → Vector UInt8 32} {sharp : Prop}

section Await

variable {limit : Nat} {e : PendingEntry} {reply : DecodedFrame} {h h' : Host}

/-- The reply is one of the first `limit` frames sent, the host has yet to route it, and what comes
before it is nothing to the waiter. -/
structure Waiting (limit : Nat) (e : PendingEntry) (reply : DecodedFrame) (h : Host) : Prop where
  pending : h.inbox.correlation.pending reply.seq = some e
  ahead : ∃ pre post, h.exchange.sent = h.routed ++ (pre ++ reply :: post) ∧
    (∀ f ∈ pre, Correlation.Foreign reply.seq e f) ∧ h.routed.length + pre.length < limit

def Awaited (limit : Nat) (e : PendingEntry) (reply : DecodedFrame) (h : Host) : Prop :=
  Waiting limit e reply h ∨ (e.genId, reply) ∈ h.inbox.correlation.received

theorem Awaited.quiet {calm : Nat → Prop} (hw : Awaited limit e reply h)
    (hl : Linked digest sharp h) (hq : Quiet digest calm h h') (hcalm : calm e.genId) :
    Awaited limit e reply h' := by
  obtain ⟨hpending, pre, post, hsent, hpre, hlimit⟩ | hreceived := hw
  · obtain ⟨more, hmore⟩ := hq.sent
    have hrouted := hq.routed
    refine .inl ⟨hq.pending _ _ hl.sorted.queries hpending hcalm, pre, post ++ more, ?_, hpre, ?_⟩
    · rw [← hmore, hsent, hrouted]
      simp
    · rw [hrouted]
      exact hlimit
  · exact .inr (hq.received hreceived)

/-- The frame routed next is the reply, or comes before it. -/
theorem Awaited.route {pauses : Pauses} {f : DecodedFrame} (hw : Awaited limit e reply h)
    (hf : Correlation.Replies e reply) (hl : Linked digest sharp h)
    (hbacklog : h.backlog = f :: h'.backlog)
    (hroute : h' = { h with
      inbox := h.inbox.routeFrame pauses f
      backlog := h'.backlog
      routed := h.routed ++ [f] }) : Awaited limit e reply h' := by
  have hcorrelation : h'.inbox.correlation = h.inbox.correlation.routeFrame f := by
    rw [hroute]
    exact Inbox.correlation_routeFrame _ pauses f
  have hrouted : h'.routed = h.routed ++ [f] := by rw [hroute]
  have hsame : h'.exchange.sent = h.exchange.sent := by rw [hroute]
  obtain ⟨hpending, pre, post, hsent, hpre, hlimit⟩ | hreceived := hw
  · have hnext := hl.carried.sent_eq.1
    rw [show h.exchange.delivered = h.routed ++ h.backlog from hl.through, hbacklog, hsent,
      List.append_assoc] at hnext
    replace hnext := List.append_cancel_left hnext
    cases pre with
    | nil =>
      obtain ⟨rfl, -⟩ := List.cons.inj hnext
      refine .inr ?_
      rw [hcorrelation]
      exact Correlation.routeFrame_replies hpending hf
    | cons g pre =>
      obtain ⟨rfl, -⟩ := List.cons.inj hnext
      rw [List.forall_mem_cons] at hpre
      refine .inl ⟨?_, pre, post, ?_, hpre.2, ?_⟩
      · rw [hcorrelation]
        exact Correlation.routeFrame_foreign hpending hpre.1
      · rw [hsame, hsent, hrouted]
        simp
      · rw [List.length_cons] at hlimit
        rw [hrouted, List.length_append, List.length_singleton]
        omega
  · refine .inr ?_
    rw [hcorrelation]
    exact Correlation.received_routeFrame _ _ hreceived

theorem Awaited.next (hw : Awaited limit e reply h) (hf : Correlation.Replies e reply)
    (hl : Linked digest sharp h) {a : HostAct} (hcalm : Calm e.genId h a)
    (hs : h.next digest a = some h') : Awaited limit e reply h' := by
  obtain ⟨pauses, f, -, hbacklog, hroute⟩ | hquiet := next_cases hs
  · exact hw.route hf hl hbacklog hroute
  · exact hw.quiet hl hquiet hcalm

/-- Once the host has routed so many frames, the waiter has its reply. -/
theorem Awaited.resolved {acts : List HostAct} (hw : Awaited limit e reply h)
    (hf : Correlation.Replies e reply) (hl : Linked digest False h)
    (hcalm : Steps.Guarded (Host.next digest) (Calm e.genId) h acts)
    (hr : Steps.run (Host.next digest) h acts = some h') (hread : limit ≤ h'.routed.length) :
    Linked digest False h' ∧ (e.genId, reply) ∈ h'.inbox.correlation.received := by
  obtain ⟨hl', hw'⟩ := Steps.run_induction
    (fun _ _ _ (hi : Linked digest False _ ∧ Awaited limit e reply _) hok hs =>
      ⟨hi.1.next False.elim hs, hi.2.next hf hi.1 hok hs⟩) ⟨hl, hw⟩ hcalm hr
  refine ⟨hl', hw'.resolve_left fun hwait => ?_⟩
  obtain ⟨-, pre, post, -, -, hlimit⟩ := hwait
  omega

end Await

section Query

variable {h h₁ : Host} {now : Nat} {what : UInt8} {request : List UInt8}

/-- What a query that is written leaves behind. -/
theorem ask_written (hl : Linked digest sharp h) (hopen : h.inbox.refused = none)
    (hfits : request.length ≤ maxPayload)
    (hask : h.next digest (.ask now .query .resp what request) = some h₁) :
    h₁.inbox.correlation.pending h.querySeq =
        some ⟨h.inbox.correlation.queryGen, .resp, what⟩ ∧
      h₁.routed = h.routed ∧
      h₁.exchange.sent = h.exchange.sent ++
        (h.exchange.transport.box.onFrame digest now ⟨.query, h.querySeq, request⟩).2 := by
  change h.ask digest now .query .resp what request = some h₁ at hask
  simp only [ask, Option.bind_eq_bind, Option.bind_eq_some_iff] at hask
  obtain ⟨registered, hregister, ⟨written, sent⟩, hwrite, rest⟩ := hask
  cases hregister
  obtain ⟨-, err, rfl⟩ | ⟨rfl, frame, s, henc, hnext, rfl⟩ := writeFrame_cases hwrite
  · unfold writeFrame at hwrite
    dsimp only at hwrite
    rw [hopen, encode_ok hfits] at hwrite
    obtain ⟨s, -, hs⟩ := Option.bind_eq_some_iff.mp hwrite
    cases hs
  · cases rest
    obtain ⟨d, hfeed, -⟩ := @FrameDecoder.feed_frame _ ⟨.query, h.querySeq, request⟩ hl.whole hfits
    rw [henc] at hfeed
    change h.exchange.transport.outDecoder.feed frame = _ at hfeed
    obtain ⟨-, rfl⟩ := Exchange.next_write hnext
    refine ⟨Function.update_self _ _ _, rfl, ?_⟩
    change h.exchange.sent ++ outputs digest h.exchange.transport.box (frameEvents now
      (h.exchange.transport.outDecoder.feed frame).2) = _
    rw [hfeed]
    exact congrArg (h.exchange.sent ++ ·) (List.append_nil _)

/-- A query made at any point of any run, with other calls, other queries and whatever befalls the
box around it, comes back: once the host has routed what had been sent by then, its waiter has
exactly one frame, and that says what the box held when it heard the query.  It takes a box that
answers and has something to say, no reply to an earlier query of the same `SEQ` and selector still
on its way, and no cancel before that. -/
theorem ask_resolved {acts more : List HostAct} {h₂ : Host} {payload : List UInt8}
    (hr : Steps.run (Host.next digest) (.start .default) acts = some h)
    (hopen : h.inbox.refused = none) (hresponds : h.exchange.transport.box.respond = true)
    (hstale : ∀ f ∈ h.exchange.sent.drop h.routed.length,
      f.ty = .resp → f.seq = h.querySeq → f.payload.head? ≠ some what)
    (hwhat : request.head? = some what) (hfits : request.length ≤ maxPayload)
    (hreply : ((arrived h.exchange.transport.box now).queryReply request).2 = some payload)
    (hask : h.next digest (.ask now .query .resp what request) = some h₁)
    (hcalm : Steps.Guarded (Host.next digest) (Calm h.inbox.correlation.queryGen) h₁ more)
    (hr' : Steps.run (Host.next digest) h₁ more = some h₂)
    (hread : h₁.exchange.sent.length ≤ h₂.routed.length) :
    Conveys (arrived h.exchange.transport.box now) request payload ∧
      ∀ f, (h.inbox.correlation.queryGen, f) ∈ h₂.inbox.correlation.received ↔
        f = ⟨.resp, h.querySeq, payload⟩ := by
  have hl : Linked digest False h := linked_of_run False.elim hr
  have hbox := hl.carried.box
  have hsound : Sound h.exchange.transport.box := by
    rw [hbox]
    exact sound_run digest .default _
  have hquiet : h.exchange.transport.box.unsolicited = [] := by
    rw [hbox]
    exact unsolicited_run digest rfl _
  have hout := @onFrame_reply digest _ hquiet hresponds now request payload hreply h.querySeq
  obtain ⟨hpending, hrouted, hsent⟩ := ask_written hl hopen hfits hask
  have hhead : payload.head? = some what := by
    obtain ⟨rest, rfl⟩ := List.head?_eq_some_iff.mp hwhat
    exact leads_queryReply _ what rest payload hreply
  have hne : h.querySeq ≠ helloSeq := Pending.takeSeq_ne_hello _ _
  have hreplies : Correlation.Replies ⟨h.inbox.correlation.queryGen, .resp, what⟩
      ⟨.resp, h.querySeq, payload⟩ := ⟨rfl, .inl rfl, hhead, hne⟩
  let unread := h.exchange.sent.drop h.routed.length
  have hdecoded : h.routed <+: h.exchange.delivered := ⟨h.backlog, hl.through.symm⟩
  have hahead : h.routed <+: h.exchange.sent := hdecoded.trans ⟨_, hl.carried.sent_eq.1.symm⟩
  have hunread : h.exchange.sent = h.routed ++ unread := (List.prefix_iff_eq_append.mp hahead).symm
  let hello := if h.exchange.transport.box.pcSeen then [] else [h.exchange.transport.box.helloFrame]
  have hwaits : Waiting h₁.exchange.sent.length ⟨h.inbox.correlation.queryGen, .resp, what⟩
      ⟨.resp, h.querySeq, payload⟩ h₁ := by
    refine ⟨hpending, unread ++ hello, [], ?_, fun f hf => ?_, ?_⟩
    · rw [hsent, hout, hrouted, hunread]
      simp [hello]
    · obtain hf | hf := List.mem_append.mp hf
      · by_cases hty : f.ty = .resp
        · by_cases hseq : f.seq = h.querySeq
          · exact .inr (.inr (hstale f hf hty hseq))
          · exact .inl hseq
        · exact .inr (.inl hty)
      · refine .inl ?_
        have hhello : f.seq = helloSeq := by
          simp only [hello] at hf
          split at hf
          · cases hf
          · rw [List.mem_singleton.mp hf]
            rfl
        rw [hhello]
        exact hne.symm
    · rw [hsent, hout, hunread, hrouted]
      simp [hello]
  obtain ⟨hl₂, hreceived⟩ :=
    Awaited.resolved (.inl hwaits) hreplies (hl.next False.elim hask) hcalm hr' hread
  refine ⟨(hsound.arrived now).conveys hreply, fun f => ⟨fun hf => ?_, fun hf => hf ▸ hreceived⟩⟩
  exact congrArg Prod.snd (List.inj_on_of_nodup_map hl₂.sorted.queries.once hf hreceived rfl)

/-- A rule set, and another query under way. -/
def asking : List HostAct :=
  [.send 1 .option (imperfectPayload true),
    .send 1 .rewrite (rewritePayload catchClsHidIn 1 1 1 rwReplace 0 [1] [0xFF] [2, 3]),
    .ask 2 .query .resp qVersion [qVersion]]

/-- The link is lost before the reader comes to the replies. -/
def reading : List HostAct := [.befall 4 .linkLost, .read 512, .route {}, .route {}]

theorem ask_resolved_entry :
    let digest : List UInt8 → Vector UInt8 32 := fun _ => Vector.replicate 32 0
    ∃ (h h₁ h₂ : Host) (payload : List UInt8),
      Steps.run (Host.next digest) (.start .default) asking = some h ∧
      h.next digest (.ask 3 .query .resp qRewriteEntry [qRewriteEntry, 0]) = some h₁ ∧
      Steps.run (Host.next digest) h₁ reading = some h₂ ∧
      h.exchange.transport.box.rewrites.rewrites.length = 1 ∧
      h₂.exchange.transport.box.rewrites.rewrites.length = 0 ∧
      Conveys (arrived h.exchange.transport.box 3) [qRewriteEntry, 0] payload ∧
      ∀ f, (h.inbox.correlation.queryGen, f) ∈ h₂.inbox.correlation.received ↔
        f = ⟨.resp, h.querySeq, payload⟩ := by
  intro digest
  have hrun : ((Steps.run (Host.next digest) (.start .default) asking).bind fun h =>
      (h.next digest (.ask 3 .query .resp qRewriteEntry [qRewriteEntry, 0])).bind fun h₁ =>
        (Steps.run (Host.next digest) h₁ reading).bind fun h₂ =>
          ((arrived h.exchange.transport.box 3).queryReply [qRewriteEntry, 0]).2.map fun _ =>
            decide ((h.exchange.transport.box.rewrites.rewrites.length = 1 ∧
              h₂.exchange.transport.box.rewrites.rewrites.length = 0) ∧ h.inbox.refused = none ∧
              h.exchange.transport.box.respond = true ∧
              (∀ f ∈ h.exchange.sent.drop h.routed.length, f.ty = .resp → f.seq = h.querySeq →
                f.payload.head? ≠ some qRewriteEntry) ∧
              h₁.exchange.sent.length ≤ h₂.routed.length)) = some true := by decide +kernel
  obtain ⟨h, hr, hrun⟩ := Option.bind_eq_some_iff.mp hrun
  obtain ⟨h₁, hask, hrun⟩ := Option.bind_eq_some_iff.mp hrun
  obtain ⟨h₂, hr', hrun⟩ := Option.bind_eq_some_iff.mp hrun
  obtain ⟨payload, hreply, hfacts⟩ := Option.map_eq_some_iff.mp hrun
  obtain ⟨hrules, hopen, hresponds, hstale, hread⟩ := of_decide_eq_true hfacts
  refine ⟨h, h₁, h₂, payload, hr, hask, hr', hrules.1, hrules.2, ?_⟩
  refine ask_resolved hr hopen hresponds hstale rfl (by decide) hreply hask ?_ hr' hread
  exact .of_forall (fun a ha _ => by
    simp only [reading, List.mem_cons, List.not_mem_nil, or_false] at ha
    obtain rfl | rfl | rfl | rfl := ha <;> trivial) _

end Query

end Host

end Medius.Machine
