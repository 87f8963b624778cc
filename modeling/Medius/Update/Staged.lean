import Medius.Mock.Update

/-! What a box must have been told before it holds an image to boot. -/

namespace Medius.Update

open Protocol Medius.Types Medius.Mock

/-- The payload of an `UPDATE` frame, or a refusal arranged for the next activate. -/
inductive Told
  | frame (p : List UInt8)
  | refuse (status : UpdateStatus)

/-- The chunk that a frame brings a chip. -/
def Told.chunk (target : UpdateTarget) : Told → Option (UInt16 × List UInt8)
  | .frame (op :: t :: lo :: hi :: b :: bytes) =>
    if op = otaOpData ∧ t = target.asU8 then some (fromLeBytes lo hi, b :: bytes) else none
  | _ => none

/-- Whether a frame is this op for this chip. -/
def Told.is_ (target : UpdateTarget) (op : UInt8) : Told → Bool
  | .frame (o :: t :: _) => o = op && t = target.asU8
  | _ => false

/-- The chunks so far make `next` of them and an image; the last one again adds nothing. -/
def addChunk (made : UInt16 × List UInt8) (chunk : UInt16 × List UInt8) :
    Option (UInt16 × List UInt8) :=
  if 0 < made.1 ∧ chunk.1 = made.1 - 1 then some made
  else if chunk.1 = made.1 then some (made.1 + 1, made.2 ++ chunk.2)
  else none

def assemble (chunks : List (UInt16 × List UInt8)) : Option (UInt16 × List UInt8) :=
  chunks.foldlM addChunk (0, [])

/-- The size and the digest that a `BEGIN` declares. -/
def declared : List UInt8 → Option (Nat × List UInt8)
  | a :: b :: c :: d :: rest =>
    if rest.length < 32 then none else some ((fromLeBytes32 a b c d).toNat, rest.take 32)
  | _ => none

/-- Between a `BEGIN` and an `END` for the chip, with neither an `END` nor an `ABORT` between and no
`ABORT` since, came the chunks of an image of the size and the digest that the `BEGIN` declared. -/
def Verified (digest : List UInt8 → Vector UInt8 32) (target : UpdateTarget) (heard : List Told)
    (image : List UInt8) : Prop :=
  ∃ pre body mid endBody post next,
    heard = pre ++ .frame (otaOpBegin :: target.asU8 :: body) :: mid ++
      .frame (otaOpEnd :: target.asU8 :: endBody) :: post ∧
    declared body = some (image.length, (digest image).toList) ∧
    0 < image.length ∧ image.length ≤ mockSlotSize ∧
    (∀ e ∈ mid, e.is_ target otaOpEnd = false ∧ e.is_ target otaOpAbort = false) ∧
    (∀ e ∈ post, e.is_ target otaOpAbort = false) ∧
    assemble (mid.filterMap (Told.chunk target)) = some (next, image)

/-- A session takes in what the frames since its `BEGIN` brought. -/
structure Heard (digest : List UInt8 → Vector UInt8 32) (target : UpdateTarget)
    (heard : List Told) (s : MockUpdate) : Prop where
  opened : s.active = true → ∃ pre body mid,
    heard = pre ++ .frame (otaOpBegin :: target.asU8 :: body) :: mid ∧
    declared body = some (s.size, s.sha) ∧ 0 < s.size ∧ s.size ≤ mockSlotSize ∧
    s.got = s.hasher.length ∧
    (∀ e ∈ mid, e.is_ target otaOpEnd = false ∧ e.is_ target otaOpAbort = false) ∧
    assemble (mid.filterMap (Told.chunk target)) = some (s.nextSeq, s.hasher)
  staged : s.staged = true → ∃ image, Verified digest target heard image

variable {digest : List UInt8 → Vector UInt8 32} {target : UpdateTarget} {heard : List Told}
  {s : MockUpdate} {e : Told}

theorem Verified.snoc {image : List UInt8} (h : Verified digest target heard image)
    (he : e.is_ target otaOpAbort = false) : Verified digest target (heard ++ [e]) image := by
  obtain ⟨pre, body, mid, endBody, post, next, hheard, hdeclared, hpos, hle, hmid, hpost,
    hmade⟩ := h
  refine ⟨pre, body, mid, endBody, post ++ [e], next, ?_, hdeclared, hpos, hle, hmid, ?_, hmade⟩
  · rw [hheard]
    simp
  · intro e' he'
    obtain he' | rfl := List.mem_append.mp he' |>.imp_right List.mem_singleton.mp
    · exact hpost e' he'
    · exact he

theorem assemble_snoc {chunks : List (UInt16 × List UInt8)} {made : UInt16 × List UInt8}
    (h : assemble chunks = some made) (chunk : UInt16 × List UInt8) :
    assemble (chunks ++ [chunk]) = addChunk made chunk := by
  unfold assemble at h ⊢
  rw [List.foldlM_append, h]
  simp

theorem chunk_eq_none {o t : UInt8} (h : ¬(o = otaOpData ∧ t = target.asU8)) (body : List UInt8) :
    Told.chunk target (.frame (o :: t :: body)) = none := by
  unfold Told.chunk
  split
  next heq =>
    cases heq
    exact if_neg h
  next => rfl

namespace Heard

theorem idle (hactive : s.active = false) (hstaged : s.staged = false) :
    Heard digest target heard s where
  opened := fun h => absurd h (by rw [hactive]; exact Bool.false_ne_true)
  staged := fun h => absurd h (by rw [hstaged]; exact Bool.false_ne_true)

/-- A session that ends keeps what it had staged. -/
theorem closed (h : Heard digest target heard s) (he : e.is_ target otaOpAbort = false)
    {s' : MockUpdate} (hactive : s'.active = false) (hstaged : s'.staged = s.staged) :
    Heard digest target (heard ++ [e]) s' where
  opened := fun h => absurd h (by rw [hactive]; exact Bool.false_ne_true)
  staged := fun hs => by
    obtain ⟨image, hverified⟩ := h.staged (hstaged ▸ hs)
    exact ⟨image, hverified.snoc he⟩

/-- A frame that neither closes the session nor brings it a chunk. -/
theorem other (h : Heard digest target heard s) (hend : e.is_ target otaOpEnd = false)
    (habort : e.is_ target otaOpAbort = false) (hchunk : e.chunk target = none) :
    Heard digest target (heard ++ [e]) s where
  opened := fun hactive => by
    obtain ⟨pre, body, mid, hheard, hdeclared, hpos, hle, hgot, hmid, hmade⟩ := h.opened hactive
    refine ⟨pre, body, mid ++ [e], by rw [hheard]; simp, hdeclared, hpos, hle, hgot, ?_, ?_⟩
    · intro e' he'
      obtain he' | rfl := List.mem_append.mp he' |>.imp_right List.mem_singleton.mp
      · exact hmid e' he'
      · exact ⟨hend, habort⟩
    · rw [List.filterMap_append, List.filterMap_cons_none hchunk, List.filterMap_nil,
        List.append_nil]
      exact hmade
  staged := fun hs => by
    obtain ⟨image, hverified⟩ := h.staged hs
    exact ⟨image, hverified.snoc habort⟩

theorem begin_ (h : Heard digest target heard s) (body : List UInt8) :
    Heard digest target (heard ++ [.frame (otaOpBegin :: target.asU8 :: body)])
      (s.begin_ body).1 := by
  have hsame : Heard digest target (heard ++ [.frame (otaOpBegin :: target.asU8 :: body)]) s :=
    h.other rfl rfl (chunk_eq_none (fun h => absurd h.1 (by decide)) body)
  unfold MockUpdate.begin_
  split
  next a b c d rest =>
    split
    · exact hsame
    next hlen =>
      split
      · exact hsame
      · dsimp only
        split
        · exact hsame
        next hsize =>
          rw [not_or, ← ne_eq, ← Nat.pos_iff_ne_zero, Nat.not_lt] at hsize
          refine ⟨fun _ => ⟨heard, a :: b :: c :: d :: rest, [], rfl, ?_, hsize.1, hsize.2, rfl,
            fun _ h => absurd h List.not_mem_nil, rfl⟩, fun hstaged => Bool.noConfusion hstaged⟩
          exact if_neg hlen
  · exact hsame

/-- A chunk taken in, or the last one again. -/
theorem wrote (h : Heard digest target heard s) (hactive : s.active = true)
    (hend : e.is_ target otaOpEnd = false) (habort : e.is_ target otaOpAbort = false)
    {chunk : UInt16 × List UInt8} (hchunk : e.chunk target = some chunk) {s' : MockUpdate}
    (hadd : addChunk (s.nextSeq, s.hasher) chunk = some (s'.nextSeq, s'.hasher))
    (hgot : s.got = s.hasher.length → s'.got = s'.hasher.length) (hsize : s'.size = s.size)
    (hsha : s'.sha = s.sha) (hstaged : s'.staged = s.staged) :
    Heard digest target (heard ++ [e]) s' where
  opened := fun _ => by
    obtain ⟨pre, body, mid, hheard, hdeclared, hpos, hle, hlen, hmid, hmade⟩ := h.opened hactive
    rw [← hsize] at hpos hle
    rw [← hsize, ← hsha] at hdeclared
    refine ⟨pre, body, mid ++ [e], by rw [hheard]; simp, hdeclared, hpos, hle, hgot hlen, ?_, ?_⟩
    · intro e' he'
      obtain he' | rfl := List.mem_append.mp he' |>.imp_right List.mem_singleton.mp
      · exact hmid e' he'
      · exact ⟨hend, habort⟩
    · rw [List.filterMap_append, List.filterMap_cons_some hchunk, List.filterMap_nil,
        assemble_snoc hmade, hadd]
  staged := fun hs => by
    obtain ⟨image, hverified⟩ := h.staged (hstaged ▸ hs)
    exact ⟨image, hverified.snoc habort⟩

theorem chunk_data (lo hi b : UInt8) (bytes : List UInt8) :
    Told.chunk target (.frame (otaOpData :: target.asU8 :: lo :: hi :: b :: bytes)) =
      some (fromLeBytes lo hi, b :: bytes) := if_pos ⟨rfl, rfl⟩

/-- A chunk that comes in turn is written; another ends the session, but for the last one again. -/
theorem data (h : Heard digest target heard s) (body : List UInt8) :
    Heard digest target (heard ++ [.frame (otaOpData :: target.asU8 :: body)]) (s.data body).1 := by
  unfold MockUpdate.data
  split
  next lo hi b bytes =>
    have hchunk := @chunk_data target lo hi b bytes
    dsimp only
    split
    next hactive => exact h.closed rfl (by simpa using hactive) rfl
    next hactive =>
      have hactive : s.active = true := by simpa using hactive
      split
      next hagain => exact h.wrote hactive rfl rfl hchunk (if_pos hagain) id rfl rfl rfl
      next hnew =>
        split
        · exact h.closed rfl rfl rfl
        next hseq =>
          split
          · exact h.closed rfl rfl rfl
          split
          · exact h.closed rfl rfl rfl
          · have hadd : addChunk (s.nextSeq, s.hasher) (fromLeBytes lo hi, b :: bytes) =
                some (s.nextSeq + 1, s.hasher ++ b :: bytes) :=
              (if_neg hnew).trans (if_pos (not_not.mp hseq))
            have hlen : s.got = s.hasher.length → s.got + (b :: bytes).length =
                (s.hasher ++ b :: bytes).length := fun h => by rw [h, List.length_append]
            split
            · exact h.wrote hactive rfl rfl hchunk hadd hlen rfl rfl rfl
            · exact h.wrote hactive rfl rfl hchunk hadd hlen rfl rfl rfl
  next hshort =>
    refine h.other rfl rfl ?_
    unfold Told.chunk
    split
    next heq =>
      cases heq
      exact absurd rfl (hshort _ _ _ _)
    next => rfl

theorem end_ (h : Heard digest target heard s) (body : List UInt8) :
    Heard digest target (heard ++ [.frame (otaOpEnd :: target.asU8 :: body)])
      (s.end_ digest).1 := by
  unfold MockUpdate.end_
  split
  next hactive => exact h.closed rfl (by simpa using hactive) rfl
  next hactive =>
    split
    · exact h.closed rfl rfl rfl
    next hgot =>
      split
      · exact h.closed rfl rfl rfl
      next hsha =>
        rw [ne_eq, not_not] at hgot hsha
        obtain ⟨pre, body', mid, hheard, hdeclared, hpos, hle, hlen, hmid, hmade⟩ :=
          h.opened (by simpa using hactive)
        refine ⟨fun h => Bool.noConfusion h, fun _ => ⟨s.hasher, pre, body', mid, body, [],
          s.nextSeq, ?_, ?_, ?_, ?_, hmid, fun _ h => absurd h List.not_mem_nil, hmade⟩⟩
        · rw [hheard]
        · rw [hdeclared, ← hlen, hgot, hsha]
        · rwa [← hlen, hgot]
        · rwa [← hlen, hgot]

end Heard

section Runs

variable (digest)

def after (st : UpdateState) : Told → UpdateState
  | .frame p => (st.onUpdate digest p).1
  | .refuse status => { st with refuseActivate := some status }

variable {st : UpdateState}

theorem session_setSession_ne {chip : UpdateTarget} (h : chip ≠ target) (s : MockUpdate) :
    (st.setSession s chip).session target = st.session target := by
  cases chip <;> cases target <;> first | rfl | exact absurd rfl h

theorem target?_eq_some {t : UInt8} {chip : UpdateTarget}
    (h : UpdateState.target? t = some chip) : t = chip.asU8 := by
  unfold UpdateState.target? at h
  split at h
  · cases h
    rfl
  · cases h
    rfl
  · cases h

theorem is_ne {t : UInt8} (h : t ≠ target.asU8) (op o : UInt8) (body : List UInt8) :
    Told.is_ target op (.frame (o :: t :: body)) = false := by
  rw [Told.is_, decide_eq_false h, Bool.and_false]

/-- One case for each op, and each way a frame is of none. -/
theorem heard_frame (h : Heard digest target heard (st.session target)) (p : List UInt8) :
    Heard digest target (heard ++ [.frame p]) ((st.updateOp digest p).1.session target) := by
  rcases p with _ | ⟨op, _ | ⟨t, body⟩⟩
  · exact h.other rfl rfl rfl
  · exact h.other rfl rfl rfl
  unfold UpdateState.updateOp
  dsimp only
  by_cases hactivate : op = otaOpActivate
  · subst hactivate
    have hother : Heard digest target (heard ++ [.frame (otaOpActivate :: t :: body)])
        (st.session target) :=
      h.other rfl rfl (chunk_eq_none (fun h => absurd h.1 (by decide)) body)
    rw [if_pos rfl]
    split
    · cases target <;> exact hother
    · split
      · cases target <;> exact .idle rfl rfl
      · exact hother
  rw [if_neg hactivate]
  by_cases ht : t = target.asU8
  · subst ht
    rw [UpdateState.target?_asU8]
    dsimp only
    by_cases hbegin : op = otaOpBegin
    · subst hbegin
      rw [if_pos rfl, UpdateState.session_setSession]
      exact h.begin_ body
    rw [if_neg hbegin]
    by_cases hdata : op = otaOpData
    · subst hdata
      rw [if_pos rfl, UpdateState.session_setSession]
      exact h.data body
    rw [if_neg hdata]
    by_cases hend : op = otaOpEnd
    · subst hend
      rw [if_pos rfl, UpdateState.session_setSession]
      exact h.end_ body
    rw [if_neg hend]
    by_cases habort : op = otaOpAbort
    · subst habort
      rw [if_pos rfl, UpdateState.session_setSession]
      exact .idle rfl rfl
    rw [if_neg habort]
    refine h.other ?_ ?_ (chunk_eq_none (fun h => hdata h.1) body)
    · rw [Told.is_, decide_eq_false hend, Bool.false_and]
    · rw [Told.is_, decide_eq_false habort, Bool.false_and]
  · have hother : Heard digest target (heard ++ [.frame (op :: t :: body)]) (st.session target) :=
      h.other (is_ne ht _ op body) (is_ne ht _ op body) (chunk_eq_none (fun h => ht h.2) body)
    split
    · exact hother
    next chip hchip =>
      have hne : chip ≠ target := fun heq => ht (heq ▸ target?_eq_some hchip)
      split
      · rw [session_setSession_ne hne]
        exact hother
      split
      · rw [session_setSession_ne hne]
        exact hother
      split
      · rw [session_setSession_ne hne]
        exact hother
      split
      · rw [session_setSession_ne hne]
        exact hother
      · exact hother

theorem heard_after (h : ∀ target, Heard digest target heard (st.session target)) (e : Told) :
    ∀ target, Heard digest target (heard ++ [e]) ((after digest st e).session target) := by
  intro target
  cases e with
  | frame p => exact heard_frame digest (h target) p
  | refuse status =>
    have hother := (h target).other (e := .refuse status) rfl rfl rfl
    cases target <;> exact hother

theorem heard_foldl (told : List Told) {heard : List Told} {st : UpdateState}
    (h : ∀ target, Heard digest target heard (st.session target)) :
    ∀ target,
      Heard digest target (heard ++ told) ((told.foldl (after digest) st).session target) := by
  induction told generalizing heard st with
  | nil =>
    rw [List.append_nil]
    exact h
  | cons e told ih =>
    have hnext := ih (heard_after digest h e)
    rw [List.append_assoc] at hnext
    exact hnext

/-- What a box holds staged it was told whole. -/
theorem verified_of_staged (told : List Told) (target : UpdateTarget)
    (hstaged : ((told.foldl (after digest) {}).session target).staged = true) :
    ∃ image, Verified digest target told image :=
  (@heard_foldl digest told [] {} (fun target => by cases target <;> exact .idle rfl rfl)
    target).staged hstaged

end Runs

end Medius.Update
