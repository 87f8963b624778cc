import Medius.Lib.Duplex
import Medius.Lib.Steps
import Medius.Update.Chunks

/-! One host staging an image on one box, over a link that keeps every frame and its order. -/

namespace Medius.Update

open Protocol Medius.Types Medius.Device Medius.Mock

abbrev Wire := Duplex UpdateState (List UInt8) (List UInt8)

structure Transfer where
  host : Point (List UInt8)
  link : Updates (List UInt8)
  wire : Wire
  progress : List UpdateProgress

inductive Move
  | host | box | reader

section

variable (digest : List UInt8 → Vector UInt8 32)

abbrev answer : UpdateState → List UInt8 → UpdateState × Option (List UInt8) :=
  UpdateState.onUpdate digest

namespace Transfer

def start (target : UpdateTarget) (image : List UInt8) (st : UpdateState) : Transfer where
  host := stageFirmware target image
  link := ⟨[], []⟩
  wire := ⟨[], st, []⟩
  progress := []

def hostStep (w : Transfer) : Transfer :=
  let (host, link, effect) := w.host.step id digest .fine w.link
  { host := host
    link := link
    wire := effect.sent.elim w.wire w.wire.send
    progress := w.progress ++ effect.progress.toList }

def next (w : Transfer) : Move → Option Transfer
  | .host => some (w.hostStep digest)
  | .box => (w.wire.serve (answer digest)).map fun wire => { w with wire := wire }
  | .reader =>
    match w.wire.replies with
    | [] => none
    | p :: ps => some { w with
        link := { w.link with rx := w.link.rx ++ [p] }
        wire := { w.wire with replies := ps } }

/-- Every reply the host has yet to read, whether it is read, in flight or owed. -/
def pending (w : Transfer) : List (List UInt8) := w.link.rx ++ w.wire.pending (answer digest)

/-- The session of the addressed chip once the box has read every frame in flight. -/
def session (w : Transfer) (target : UpdateTarget) : MockUpdate :=
  (w.wire.settled (answer digest)).session target

end Transfer

def replyBytes (op : UInt8) (target : UpdateTarget) (status : UpdateStatus) (arg : UInt32) :
    List UInt8 :=
  op :: target.asU8 :: status :: toLeBytes32 arg

@[simp] theorem replyFor_replyBytes (op : UInt8) (target : UpdateTarget) (status : UpdateStatus)
    (arg : UInt32) : replyFor op (replyBytes op target status arg) = some (status, arg) := by
  simp only [replyBytes, toLeBytes32, replyFor, if_true, fromLeBytes32_toLeBytes32]

section

variable {digest} {image : List UInt8} {target : UpdateTarget} {st : UpdateState} {k : Nat}

theorem answer_begin (hst : (st.session target).active = false) (hne : image ≠ [])
    (hlen : image.length ≤ mockSlotSize) :
    answer digest st ((Call.begin_ image target).frame digest) =
      (st.setSession (sessionAt image digest 0) target,
        some (replyBytes otaOpBegin target UpdateStatus.ready 16)) := by
  simp only [answer, Call.frame, UpdateState.onUpdate_begin, begin_inactive hst hne hlen,
    replyBytes]

theorem answer_chunk (hst : st.session target = sessionAt image digest k)
    (hk : k < chunkCount image) :
    answer digest st (chunkFrame image target k) =
      (st.setSession (sessionAt image digest (k + 1)) target,
        if (k + 1) % 16 = 0 ∨ k + 1 = chunkCount image then
          some (replyBytes otaOpData target UpdateStatus.ack (UInt16.ofNat (k + 1)).toUInt32)
        else none) := by
  simp only [answer, chunkFrame, List.cons_append, UpdateState.onUpdate_data, hst,
    data_sessionAt hk]
  split <;> rfl

theorem answer_end (hst : st.session target = sessionAt image digest (chunkCount image)) :
    answer digest st ((Call.end_ target).frame digest) =
      (st.setSession (sessionStaged image digest) target,
        some (replyBytes otaOpEnd target UpdateStatus.staged (UInt32.ofNat image.length))) := by
  simp only [answer, Call.frame, UpdateState.onUpdate_end, hst, end_sessionAt, replyBytes]

end

/-- The progress reports made by the time `a` chunks are acknowledged. -/
structure Reported (image : List UInt8) (a : Nat) (reports : List UpdateProgress) : Prop where
  increasing : (reports.map (·.sent)).Pairwise (· < ·)
  bounded : ∀ r ∈ reports, r.sent ≤ sentAt image a
  last : 0 < a → reports.getLast?.map (·.sent) = some (sentAt image a)

theorem Reported.start (image : List UInt8) : Reported image 0 [] where
  increasing := .nil
  bounded := by simp
  last := by simp

theorem Reported.push {image : List UInt8} {a k : Nat} {reports : List UpdateProgress}
    (h : Reported image a reports) (hak : a < k) (hk : k ≤ chunkCount image)
    {r : UpdateProgress} (hr : r.sent = sentAt image k) : Reported image k (reports ++ [r]) := by
  have hlt := sentAt_lt_sentAt hak hk
  refine ⟨?_, ?_, ?_⟩
  · rw [List.map_append, List.pairwise_append]
    refine ⟨h.increasing, List.pairwise_singleton _ _, ?_⟩
    intro x hx y hy
    obtain ⟨q, hq, rfl⟩ := List.mem_map.mp hx
    obtain rfl : y = r.sent := by simpa using hy
    have := h.bounded q hq
    omega
  · intro q hq
    rcases List.mem_append.mp hq with hq | hq
    · exact (h.bounded q hq).trans hlt.le
    · obtain rfl : q = r := by simpa using hq
      exact hr.le
  · intro _
    simp [hr]

/-- How far a transfer has come: where the host stands, the replies it may still read,
the session once the box has read everything, whether the last frame in flight is owed a
reply, and the progress reported. -/
inductive Stage (image : List UInt8) (target : UpdateTarget) :
    Point (List UInt8) → List (List UInt8) → MockUpdate → Prop → List UpdateProgress → Prop
  | opening {host s last}
    (at_ : host = .drain (.begin_ image target) ∨ host = .purge (.begin_ image target) ∨
      host = .send (.begin_ image target))
    (idle : s.active = false) : Stage image target host [] s last []
  | waitingBegin {host last}
    (at_ : host = .take (.begin_ image target) ∨ host = .receive (.begin_ image target))
    (owed : last) :
    Stage image target host [replyBytes otaOpBegin target UpdateStatus.ready 16]
      (sessionAt image digest 0) last []
  | begun {last} :
    Stage image target (.purgeData image target 16) [] (sessionAt image digest 0) last []
  | streaming {a k last reports} (window : a % 16 = 0) (from_ : a ≤ k) (room : k < a + 16)
    (left : k < chunkCount image) (reported : Reported image a reports) :
    Stage image target (.chunks (planAt image target a k)) [] (sessionAt image digest k) last
      reports
  | waitingAck {host a k last reports}
    (at_ : host = .chunks (planAt image target a k) ∨
      host = .take (.data (planAt image target a k)) ∨
      host = .receive (.data (planAt image target a k)))
    (window : a % 16 = 0) (from_ : a < k) (room : k ≤ a + 16) (left : k ≤ chunkCount image)
    (full : k = a + 16 ∨ k = chunkCount image) (owed : last)
    (reported : Reported image a reports) :
    Stage image target host
      [replyBytes otaOpData target UpdateStatus.ack (UInt16.ofNat k).toUInt32]
      (sessionAt image digest k) last reports
  | sent {last reports} (owed : last) (reported : Reported image (chunkCount image) reports) :
    Stage image target (.chunks (planAt image target (chunkCount image) (chunkCount image))) []
      (sessionAt image digest (chunkCount image)) last reports
  | ending {host last reports}
    (at_ : host = .drain (.end_ target) ∨ host = .purge (.end_ target) ∨
      host = .send (.end_ target))
    (owed : last) (reported : Reported image (chunkCount image) reports) :
    Stage image target host [] (sessionAt image digest (chunkCount image)) last reports
  | waitingEnd {host last reports}
    (at_ : host = .take (.end_ target) ∨ host = .receive (.end_ target)) (owed : last)
    (reported : Reported image (chunkCount image) reports) :
    Stage image target host
      [replyBytes otaOpEnd target UpdateStatus.staged (UInt32.ofNat image.length)]
      (sessionStaged image digest) last reports
  | finished {last reports} (owed : last)
    (reported : Reported image (chunkCount image) reports) :
    Stage image target (.returned (.ok (some (UInt32.ofNat image.length)))) []
      (sessionStaged image digest) last reports

structure Transfer.Inv (image : List UInt8) (target : UpdateTarget) (w : Transfer) : Prop where
  stage : Stage digest image target w.host (w.pending digest) (w.session digest target)
    (w.wire.LastOwed (answer digest)) w.progress
  held : w.link.held = []

end

end Medius.Update
