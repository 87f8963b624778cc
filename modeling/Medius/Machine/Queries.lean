import Medius.Machine.Answers

/-! A query in any run: the one reply it gets fits a frame, and the host decodes from it what the
box holds. -/

namespace Medius.Machine

open Protocol Mock Device Medius.Types Checked Readback

/-- The box apart from what a booting one still owes. -/
def settled (b : Box) : Box := { b with firmwareUnanswered := 0, firmwarePending := 0 }

/-- What the box is when a frame reaches it. -/
def arrived (b : Box) (now : Nat) : Box := { b with pcSeen := true }.advance now

/-- Nothing due by the time a frame comes is beside the session. -/
theorem beside_arrived (b : Box) (now : Nat) :
    beside (arrived b now) = beside { b with pcSeen := true } :=
  beside_advance { b with pcSeen := true } now

theorem unsolicited_arrived (b : Box) (now : Nat) : (arrived b now).unsolicited = b.unsolicited :=
  eq_of_beside (b := { b with pcSeen := true }) Box.unsolicited (fun _ => rfl)
    (beside_arrived b now)

theorem respond_arrived (b : Box) (now : Nat) : (arrived b now).respond = b.respond :=
  eq_of_beside (b := { b with pcSeen := true }) Box.respond (fun _ => rfl) (beside_arrived b now)

variable {digest : List UInt8 → Vector UInt8 32} {ok : Box.Event → Prop} {t : Nat} {b : Box}

/-- Between events nothing waits to be sent. -/
theorem unsolicited_step (h : b.unsolicited = []) (now : Nat) (e : Box.Event) :
    (b.step digest now e).1.unsolicited = [] := by
  have hsame {b' : Box} (hbeside : beside b' = beside b) : b'.unsolicited = [] :=
    (eq_of_beside Box.unsolicited (fun _ => rfl) hbeside).trans h
  cases e with
  | frame | restart => rfl
  | linkLost => exact hsame (beside_advance b now)
  | detach back => exact hsame (beside_detach b now back)
  | attach => exact hsame (beside_attach b now)
  | packet class_ id direction head => exact hsame (beside_clipPacket b class_ id direction head)
  | script s => cases s <;> exact h

theorem unsolicited_of_reachable (h : Box.Reachable digest ok t b) : b.unsolicited = [] := by
  induction h with
  | default => rfl
  | step e _ _ _ ih => exact unsolicited_step ih _ e

theorem Sound.arrived (h : Sound b) (now : Nat) : Sound (arrived b now) := by
  have hseen : Sound { b with pcSeen := true } := { h with }
  exact hseen.advance now

theorem onFrame_query (b : Box) (now : Nat) (seq : UInt8) (p : List UInt8) :
    b.onFrame digest now ⟨.query, seq, p⟩ =
      let r := (arrived b now).reply digest ⟨.query, seq, p⟩
      ({ r.1 with unsolicited := [] },
        (if b.pcSeen then [] else [b.helloFrame]) ++ r.2.toList ++ r.1.unsolicited) := rfl

/-- The same box, but for whether a command came. -/
def Marked (b b' : Box) : Prop := ∃ dirty : Bool, b' = { b with sessionDirty := dirty }

theorem marked_ite (c : Prop) [Decidable c] (b : Box) :
    Marked b (if c then { b with sessionDirty := true } else b) := by
  split
  · exact ⟨true, rfl⟩
  · exact ⟨b.sessionDirty, rfl⟩

/-- A frame is applied to the box it reaches, then replied to. -/
theorem onFrame_cases (b : Box) (now : Nat) (f : DecodedFrame) : ∃ b' b'',
    Marked (arrived b now) b' ∧
      Marked ((b'.applyFrame now f.ty f.payload).reply digest f).1 b'' ∧
      b.onFrame digest now f = ({ b'' with unsolicited := [] },
        (if b.pcSeen then [] else [b.helloFrame]) ++
          ((b'.applyFrame now f.ty f.payload).reply digest f).2.toList ++ b''.unsolicited) :=
  ⟨_, _, marked_ite _ _, marked_ite _ _, rfl⟩

theorem reply_query (b : Box) (seq : UInt8) (p : List UInt8) :
    b.reply digest ⟨.query, seq, p⟩ =
      if b.respond then
        ((b.queryReply p).1, (b.queryReply p).2.map fun payload => ⟨.resp, seq, payload⟩)
      else (b, none) := by
  unfold Box.reply
  cases b.respond <;> rfl

theorem settled_queryReply (b : Box) (p : List UInt8) :
    settled { (b.queryReply p).1 with unsolicited := [] } = settled { b with unsolicited := [] } :=
  fst_queryReply
    (P := fun b' => settled { b' with unsolicited := [] } = settled { b with unsolicited := [] })
    rfl (by unfold Box.firmwareReply; split <;> rfl) p

theorem unsolicited_queryReply (b : Box) (p : List UInt8) :
    (b.queryReply p).1.unsolicited = b.unsolicited :=
  fst_queryReply (P := fun b' => b'.unsolicited = b.unsolicited) rfl
    (by unfold Box.firmwareReply; split <;> rfl) p

theorem onFrame_answers (h : Sound b) (hquiet : b.unsolicited = []) (now : Nat) (seq : UInt8)
    {p : List UInt8} (hentry : isEntryQuery p = false) :
    settled (b.onFrame digest now ⟨.query, seq, p⟩).1 = settled (arrived b now) ∧
      ∃ reply : Option (List UInt8),
        (b.onFrame digest now ⟨.query, seq, p⟩).2 =
          (if b.pcSeen then [] else [b.helloFrame]) ++
            (reply.map fun payload => ⟨.resp, seq, payload⟩).toList ∧
        (reply.isSome ↔ b.respond ∧ ∃ resp, Answer (arrived b now) p resp) ∧
        ∀ payload, reply = some payload → Answered (arrived b now) p payload := by
  have hquiet : (arrived b now).unsolicited = [] := (unsolicited_arrived b now).trans hquiet
  have hsame : { arrived b now with unsolicited := [] } = arrived b now := by rw [← hquiet]
  rw [onFrame_query, reply_query, respond_arrived]
  cases b.respond with
  | false =>
    refine ⟨congrArg settled hsame, none, ?_, ?_, fun _ h => by cases h⟩
    · change _ ++ [] ++ (arrived b now).unsolicited = _
      rw [hquiet, List.append_nil]
      rfl
    · simp
  | true =>
    refine ⟨(settled_queryReply _ p).trans (congrArg settled hsame),
      ((arrived b now).queryReply p).2, ?_, ?_,
      fun payload => answered_query (h.arrived now) hentry⟩
    · change _ ++ _ ++ ((arrived b now).queryReply p).1.unsolicited = _
      rw [unsolicited_queryReply, hquiet, List.append_nil]
      rfl
    · rw [Option.isSome_iff_exists]
      constructor
      · rintro ⟨payload, hpayload⟩
        obtain ⟨-, resp, -, hanswer⟩ := answered_query (h.arrived now) hentry hpayload
        exact ⟨rfl, resp, hanswer⟩
      · rintro ⟨-, resp, hanswer⟩
        exact hanswer.replies

/-- In every run a query changes nothing the box holds.  A box that answers at all gives a query
of anything but one entry its one reply exactly if there is something to say, under the query's own
`SEQ`; the reply fits a frame and decodes to what the box holds. -/
theorem query_answered (h : Box.Reachable digest ok t b) (now : Nat) (seq : UInt8) (p : List UInt8)
    (hentry : isEntryQuery p = false) :
    settled (b.onFrame digest now ⟨.query, seq, p⟩).1 = settled (arrived b now) ∧
      ∃ reply : Option (List UInt8),
        (b.onFrame digest now ⟨.query, seq, p⟩).2 =
          (if b.pcSeen then [] else [b.helloFrame]) ++
            (reply.map fun payload => ⟨.resp, seq, payload⟩).toList ∧
        (reply.isSome ↔ b.respond ∧ ∃ resp, Answer (arrived b now) p resp) ∧
        ∀ payload, reply = some payload → Answered (arrived b now) p payload :=
  onFrame_answers (sound_of_reachable h) (unsolicited_of_reachable h) now seq hentry

theorem query_answered_opted_in :
    let b := (Box.default.onFrame (fun _ => Vector.replicate 32 0) 1
      ⟨.option, 1, imperfectPayload true⟩).1
    settled (b.onFrame (fun _ => Vector.replicate 32 0) 2 ⟨.query, 7, [qOptions, optImperfect]⟩).1 =
        settled (arrived b 2) ∧
      ∃ reply : Option (List UInt8),
        (b.onFrame (fun _ => Vector.replicate 32 0) 2 ⟨.query, 7, [qOptions, optImperfect]⟩).2 =
          (if b.pcSeen then [] else [b.helloFrame]) ++
            (reply.map fun payload => ⟨.resp, 7, payload⟩).toList ∧
        (reply.isSome ↔ b.respond ∧ ∃ resp, Answer (arrived b 2) [qOptions, optImperfect] resp) ∧
        ∀ payload, reply = some payload →
          Answered (arrived b 2) [qOptions, optImperfect] payload :=
  query_answered (show Box.Reachable _ (fun _ => True) 1 _ from
    .step (.frame ⟨.option, 1, imperfectPayload true⟩) trivial .default (Nat.zero_le 1)) 2 7
    [qOptions, optImperfect] (by decide)

end Medius.Machine
