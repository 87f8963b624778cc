import Medius.Protocol.Frame

/-! The frame decoder gives back what the encoder framed, and nothing else. -/

namespace Medius.Protocol

/-- A stream of frames, each behind some noise. -/
def wire (pieces : List (List UInt8 × DecodedFrame)) : List UInt8 :=
  pieces.flatMap fun p => p.1 ++ (encode p.2.ty p.2.seq p.2.payload).toOption.getD []

@[simp] theorem wire_nil : wire [] = [] := rfl

@[simp] theorem wire_cons (p : List UInt8 × DecodedFrame)
    (pieces : List (List UInt8 × DecodedFrame)) :
    wire (p :: pieces) =
      p.1 ++ (encode p.2.ty p.2.seq p.2.payload).toOption.getD [] ++ wire pieces := by
  simp [wire]

theorem wire_append (ps qs : List (List UInt8 × DecodedFrame)) :
    wire (ps ++ qs) = wire ps ++ wire qs := by
  simp [wire]

theorem or_shift_toNat (lo hi : UInt8) :
    lo.toNat ||| hi.toNat <<< 8 = lo.toNat + 256 * hi.toNat := by
  have h := Nat.shiftLeft_add_eq_or_of_lt lo.toNat_lt hi.toNat
  rw [Nat.lor_comm, ← h, Nat.shiftLeft_eq]
  omega

theorem or_shift_toUInt16 (lo hi : UInt8) :
    lo.toUInt16 ||| hi.toUInt16 <<< 8 = fromLeBytes lo hi := by
  have hlo : lo.toNat < 256 := lo.toNat_lt
  have hhi : hi.toNat < 256 := hi.toNat_lt
  have hs : (hi.toNat <<< 8) % 65536 = hi.toNat <<< 8 := by
    rw [Nat.shiftLeft_eq]
    omega
  apply UInt16.toNat_inj.mp
  simp only [UInt16.toNat_or, UInt16.toNat_shiftLeft, UInt8.toNat_toUInt16, fromLeBytes,
    UInt16.toNat_ofNat', show UInt16.toNat 8 % 16 = 8 by decide]
  rw [show 2 ^ 16 = 65536 by rfl, hs, or_shift_toNat]
  omega

theorem toLeBytes_fromLeBytes (lo hi : UInt8) : toLeBytes (fromLeBytes lo hi) = [lo, hi] := by
  have hlo : lo.toNat < 256 := lo.toNat_lt
  have hhi : hi.toNat < 256 := hi.toNat_lt
  simp only [toLeBytes, fromLeBytes, UInt16.toNat_ofNat', List.cons.injEq, and_true]
  constructor <;> apply UInt8.toNat_inj.mp <;> simp only [UInt8.toNat_ofNat'] <;> omega

theorem encode_ok {ty : FrameType} {seq : UInt8} {payload : List UInt8}
    (h : payload.length ≤ maxPayload) :
    encode ty seq payload = .ok (sof :: crcInput ty.asU8 seq payload ++
      toLeBytes (crc16Ccitt (crcInput ty.asU8 seq payload))) :=
  if_neg (Nat.not_lt.mpr h)

namespace FrameDecoder

theorem feed_append (d : FrameDecoder) (as bs : List UInt8) :
    d.feed (as ++ bs) = ((d.feed as).1.feed bs).map id ((d.feed as).2 ++ ·) :=
  Transducer.feed_append feedByte d as bs

theorem feed_noise {d : FrameDecoder} {noise : List UInt8} (hd : d.state = .sof)
    (h : Protocol.sof ∉ noise) : d.feed noise = (d, []) := by
  induction noise with
  | nil => rfl
  | cons b noise ih =>
    have hb : b ≠ Protocol.sof := fun e => h (e ▸ List.mem_cons_self)
    have hs : feedByte d b = (d, none) := by simp [feedByte, hd, hb]
    rw [feed, Transducer.feed_of_silent hs]
    exact ih fun hm => h (List.mem_cons_of_mem _ hm)

theorem feed_payload {d : FrameDecoder} {bytes : List UInt8} (hd : d.state = .payload)
    (hne : bytes ≠ []) (hlen : d.buf.length + bytes.length = d.len) :
    d.feed bytes = ({ d with buf := d.buf ++ bytes, state := .crcLo }, []) := by
  induction bytes generalizing d with
  | nil => exact absurd rfl hne
  | cons b bytes ih =>
    simp only [List.length_cons] at hlen
    by_cases hb : bytes = []
    · subst hb
      simp [feed, feedByte, hd, ← hlen]
    · have hpos : 0 < bytes.length := List.length_pos_of_ne_nil hb
      have hs : feedByte d b = ({ d with buf := d.buf ++ [b] }, none) := by
        have hlt : ¬d.len ≤ d.buf.length + 1 := by omega
        simp [feedByte, hd, hlt]
      rw [feed, Transducer.feed_of_silent hs]
      have := ih (d := { d with buf := d.buf ++ [b] }) hd hb (by simp; omega)
      rw [feed] at this
      rw [this]
      simp

theorem feed_header {d : FrameDecoder} {ty seq : UInt8} {len : Nat} (hd : d.state = .sof)
    (h : len ≤ maxPayload) :
    d.feed (Protocol.sof :: ty :: seq :: toLeBytes (UInt16.ofNat len)) =
      ({ d with
          state := if len = 0 then .crcLo else .payload
          ty := ty, seq := seq, len := len, buf := [] }, []) := by
  have hlen : len % 256 ||| (len % 65536 / 256 % 256) <<< 8 = len := by
    have := or_shift_toNat (UInt8.ofNat len) (UInt8.ofNat (len % 65536 / 256))
    simp only [UInt8.toNat_ofNat', maxPayload] at this h
    norm_num at this
    omega
  simp [feed, feedByte, hd, toLeBytes, hlen, Nat.not_lt.mpr h]

theorem feed_body {d : FrameDecoder} {payload : List UInt8}
    (hd : d.state = if payload.length = 0 then .crcLo else .payload) (hbuf : d.buf = [])
    (hlen : d.len = payload.length) :
    d.feed payload = ({ d with buf := payload, state := .crcLo }, []) := by
  by_cases hp : payload = []
  · subst hp
    cases d
    cases hd
    cases hbuf
    rfl
  · rw [if_neg fun h => hp (List.length_eq_zero_iff.mp h)] at hd
    rw [feed_payload hd hp (by simp [hbuf, hlen]), hbuf]
    rfl

/-- The last two bytes of a frame whose CRC matches and whose opcode is known. -/
theorem feed_crc {d : FrameDecoder} {ty : FrameType} (hd : d.state = .crcLo)
    (hty : d.ty = ty.asU8) :
    d.feed (toLeBytes (crc16Ccitt (crcInput d.ty d.seq d.buf))) =
      ({ d with
          state := .sof
          crcRx := crc16Ccitt (crcInput d.ty d.seq d.buf), buf := [] }, [⟨ty, d.seq, d.buf⟩]) := by
  set crc := crc16Ccitt (crcInput d.ty d.seq d.buf) with hcrc
  have hrx : (UInt8.ofNat crc.toNat).toUInt16 ||| (UInt8.ofNat (crc.toNat / 256)).toUInt16 <<< 8 =
      crc := by
    rw [or_shift_toUInt16, fromLeBytes_toLeBytes]
  have hf : finishFrame { d with state := .crcHi, crcRx := crc } =
      ({ d with state := .crcHi, crcRx := crc, buf := [] }, some ⟨ty, d.seq, d.buf⟩) := by
    rw [finishFrame, if_neg (not_not_intro hcrc.symm)]
    simp only [hty, FrameType.tryFrom_asU8]
  simp only [feed, toLeBytes, Transducer.feed_cons, Transducer.feed_nil, feedByte, hd, hrx, hf]
  rfl

theorem feed_frame {d : FrameDecoder} {f : DecodedFrame} (hd : d.state = .sof)
    (h : f.payload.length ≤ maxPayload) :
    ∃ d' : FrameDecoder,
      d.feed ((encode f.ty f.seq f.payload).toOption.getD []) = (d', [f]) ∧
        d'.state = .sof ∧ d'.crcErrorCount = d.crcErrorCount := by
  set len := UInt16.ofNat f.payload.length with hlen
  have hbytes : (encode f.ty f.seq f.payload).toOption.getD [] =
      Protocol.sof :: f.ty.asU8 :: f.seq :: toLeBytes len ++
        (f.payload ++ toLeBytes (crc16Ccitt (crcInput f.ty.asU8 f.seq f.payload))) := by
    simp [encode_ok h, Except.toOption, crcInput, hlen]
  rw [hbytes, feed_append, feed_header hd h, feed_append, feed_body rfl rfl rfl]
  let held : FrameDecoder :=
    { d with
        state := .crcLo, ty := f.ty.asU8, seq := f.seq, len := f.payload.length, buf := f.payload }
  have hcrc := @feed_crc held f.ty rfl rfl
  exact ⟨_, congrArg (Prod.map id ([] ++ ·) ∘ Prod.map id ([] ++ ·)) hcrc, rfl, rfl⟩

/-- Every frame put on the wire is delivered, whatever noise comes before it. -/
theorem feed_wire {d : FrameDecoder} {pieces : List (List UInt8 × DecodedFrame)}
    (hd : d.state = .sof)
    (h : ∀ p ∈ pieces, Protocol.sof ∉ p.1 ∧ p.2.payload.length ≤ maxPayload) :
    ∃ d' : FrameDecoder,
      d.feed (wire pieces) = (d', pieces.map Prod.snd) ∧
        d'.state = .sof ∧ d'.crcErrorCount = d.crcErrorCount := by
  induction pieces generalizing d with
  | nil => exact ⟨d, rfl, hd, rfl⟩
  | cons p pieces ih =>
    obtain ⟨hnoise, hlen⟩ := h p List.mem_cons_self
    obtain ⟨d₁, hf, hs, hc⟩ := feed_frame (f := p.2) hd hlen
    obtain ⟨d₂, hfs, hs', hc'⟩ := ih hs fun q hq => h q (List.mem_cons_of_mem _ hq)
    refine ⟨d₂, ?_, hs', hc'.trans hc⟩
    rw [wire_cons, List.append_assoc, feed_append, feed_noise hd hnoise, feed_append, hf, hfs]
    rfl

/-- The bytes of the frame in progress, its start byte first. -/
def held (d : FrameDecoder) : List UInt8 :=
  match d.state with
  | .sof => []
  | .type => [Protocol.sof]
  | .seq => [Protocol.sof, d.ty]
  | .lenLo => [Protocol.sof, d.ty, d.seq]
  | .lenHi => [Protocol.sof, d.ty, d.seq, UInt8.ofNat d.len]
  | .payload | .crcLo => Protocol.sof :: d.ty :: d.seq :: toLeBytes (UInt16.ofNat d.len) ++ d.buf
  | .crcHi => Protocol.sof :: crcInput d.ty d.seq d.buf ++ [d.crcRx.toUInt8]

/-- The fields the next bytes are read against fit what was read. -/
structure Wf (d : FrameDecoder) : Prop where
  buf_le : d.buf.length ≤ maxPayload
  lenHi : d.state = .lenHi → d.len < 256
  payload : d.state = .payload → d.buf.length < d.len ∧ d.len ≤ maxPayload
  crcLo : d.state = .crcLo → d.buf.length = d.len
  crcHi : d.state = .crcHi → d.crcRx.toNat < 256

theorem wf_new : Wf new where
  buf_le := Nat.zero_le _
  lenHi := nofun
  payload := nofun
  crcLo := nofun
  crcHi := nofun

theorem finishFrame_buf_le (d : FrameDecoder) :
    (finishFrame d).1.buf.length ≤ d.buf.length := by
  unfold finishFrame
  split
  · exact le_rfl
  · split
    · exact Nat.zero_le _
    · exact le_rfl

/-- In these states no byte is read against a length. -/
theorem Wf.quiet {d : FrameDecoder} (hbuf : d.buf.length ≤ maxPayload)
    (hs : d.state = .sof ∨ d.state = .type ∨ d.state = .seq) : Wf d where
  buf_le := hbuf
  lenHi h := by simp [h] at hs
  payload h := by simp [h] at hs
  crcLo h := by simp [h] at hs
  crcHi h := by simp [h] at hs

theorem Wf.feedByte {d : FrameDecoder} (h : Wf d) (b : UInt8) : Wf (d.feedByte b).1 := by
  obtain ⟨state, ty, seq, len, buf, crcRx, errors⟩ := d
  have hbuf := h.buf_le
  cases state with
  | sof =>
    by_cases hb : b = Protocol.sof
    · rw [FrameDecoder.feedByte, if_pos hb]
      exact .quiet hbuf (.inr (.inl rfl))
    · rw [FrameDecoder.feedByte, if_neg hb]
      exact h
  | type => exact .quiet hbuf (.inr (.inr rfl))
  | seq =>
    simp only [FrameDecoder.feedByte]
    exact ⟨hbuf, by simp, by simp, by simp, by simp⟩
  | lenLo =>
    simp only [FrameDecoder.feedByte]
    exact ⟨hbuf, fun _ => b.toNat_lt, by simp, by simp, by simp⟩
  | lenHi =>
    simp only [FrameDecoder.feedByte]
    refine ⟨Nat.zero_le _, ?_, ?_, ?_, ?_⟩ <;> dsimp only <;> split_ifs <;>
      simp_all [Nat.pos_iff_ne_zero]
  | payload =>
    obtain ⟨hlt, hle⟩ := h.payload rfl
    simp only [FrameDecoder.feedByte]
    refine ⟨?_, ?_, ?_, ?_, ?_⟩ <;> simp only [List.length_append, List.length_singleton] <;>
      dsimp only at hlt hle
    · omega
    · split_ifs <;> simp
    · split_ifs <;> simp; omega
    · split_ifs <;> simp; omega
    · split_ifs <;> simp
  | crcLo =>
    simp only [FrameDecoder.feedByte]
    exact ⟨hbuf, by simp, by simp, by simp, fun _ => by simpa using b.toNat_lt⟩
  | crcHi => exact .quiet ((finishFrame_buf_le _).trans hbuf) (.inl rfl)

theorem toLeBytes_lenHi {len : Nat} {b : UInt8} (h : len < 256) :
    toLeBytes (UInt16.ofNat (len ||| b.toNat <<< 8)) = [UInt8.ofNat len, b] := by
  have hl : (UInt8.ofNat len).toNat = len := by simp [Nat.mod_eq_of_lt h]
  rw [← toLeBytes_fromLeBytes, fromLeBytes, ← or_shift_toNat, hl]

/-- A byte that ends no frame adds to the one in progress or drops it. -/
theorem held_of_silent {d : FrameDecoder} {b : UInt8} (h : Wf d)
    (hs : (d.feedByte b).2 = none) :
    (d.feedByte b).1.held = d.held ++ [b] ∨ (d.feedByte b).1.held = [] := by
  obtain ⟨state, ty, seq, len, buf, crcRx, errors⟩ := d
  cases state with
  | sof =>
    by_cases hb : b = Protocol.sof
    · subst hb
      exact .inl rfl
    · rw [FrameDecoder.feedByte, if_neg hb]
      exact .inr rfl
  | type => exact .inl rfl
  | seq => exact .inl rfl
  | lenLo => exact .inl (by simp [FrameDecoder.feedByte, held])
  | lenHi =>
    have hbytes := toLeBytes_lenHi (b := b) (h.lenHi rfl)
    simp only [FrameDecoder.feedByte, held] at hbytes ⊢
    split_ifs
    · exact .inr rfl
    all_goals
      left
      rw [hbytes]
      rfl
  | payload =>
    left
    simp only [FrameDecoder.feedByte, held]
    split_ifs <;> simp
  | crcLo =>
    have hlen := h.crcLo rfl
    dsimp only at hlen
    exact .inl (by simp [FrameDecoder.feedByte, held, crcInput, hlen])
  | crcHi => exact .inr rfl

/-- A byte that ends a frame ends the bytes `encode` makes of it. -/
theorem held_of_frame {d : FrameDecoder} {b : UInt8} {f : DecodedFrame} (h : Wf d)
    (hs : (d.feedByte b).2 = some f) :
    (d.feedByte b).1.held = [] ∧ encode f.ty f.seq f.payload = .ok (d.held ++ [b]) := by
  obtain ⟨state, ty, seq, len, buf, crcRx, errors⟩ := d
  cases state with
  | crcHi =>
    refine ⟨rfl, ?_⟩
    have hrx : crcRx.toUInt8.toUInt16 = crcRx := by
      apply UInt16.toNat_inj.mp
      have := h.crcHi rfl
      dsimp only at this
      simpa using this
    simp only [FrameDecoder.feedByte, finishFrame] at hs
    split at hs
    · cases hs
    · rename_i hcrc
      split at hs
      · rename_i kind hty
        cases hs
        rw [encode_ok h.buf_le, FrameType.asU8_of_tryFrom hty, not_not.mp hcrc, ← hrx,
          or_shift_toUInt16, toLeBytes_fromLeBytes]
        simp [held, hrx]
      · cases hs
  | _ => cases hs

/-- What a decoder has delivered, and what it holds, tied to the bytes it has read. -/
def Accounts (read : List UInt8) (d : FrameDecoder) (frames : List DecodedFrame) : Prop :=
  Wf d ∧ ∃ pieces noise, read = wire pieces ++ noise ++ d.held ∧ pieces.map Prod.snd = frames ∧
    ∀ p ∈ pieces, ∃ bytes, encode p.2.ty p.2.seq p.2.payload = .ok bytes

theorem Accounts.feedByte {read : List UInt8} {d : FrameDecoder} {frames : List DecodedFrame}
    (h : Accounts read d frames) (b : UInt8) :
    Accounts (read ++ [b]) (d.feedByte b).1 (frames ++ (d.feedByte b).2.toList) := by
  obtain ⟨hwf, pieces, noise, rfl, rfl, henc⟩ := h
  refine ⟨hwf.feedByte b, ?_⟩
  cases hs : (d.feedByte b).2 with
  | none =>
    obtain hh | hh := held_of_silent hwf hs
    · exact ⟨pieces, noise, by simp [hh], by simp, henc⟩
    · exact ⟨pieces, noise ++ d.held ++ [b], by simp [hh], by simp, henc⟩
  | some f =>
    obtain ⟨hh, he⟩ := held_of_frame hwf hs
    refine ⟨pieces ++ [(noise, f)], [], ?_, by simp, ?_⟩
    · simp [wire_append, hh, he, Except.toOption]
    · intro p hp
      rcases List.mem_append.mp hp with hp | hp
      · exact henc p hp
      · cases List.mem_singleton.mp hp
        exact ⟨_, he⟩

theorem accounts_feed (read : List UInt8) :
    Accounts read (new.feed read).1 (new.feed read).2 :=
  Transducer.feed_induction (J := Accounts) ⟨wf_new, [], [], rfl, rfl, nofun⟩
    (fun _ _ _ b h => h.feedByte b) read

end FrameDecoder

open FrameDecoder

/-- The decoder is complete, however the stream is cut. -/
theorem decoder_complete (d : FrameDecoder) (pieces : List (List UInt8 × DecodedFrame))
    (chunks : List (List UInt8)) (hd : d.state = .sof)
    (h : ∀ p ∈ pieces, sof ∉ p.1 ∧ p.2.payload.length ≤ maxPayload)
    (hcut : chunks.flatten = wire pieces) :
    (d.feedAll chunks).2 = pieces.map Prod.snd ∧
      (d.feedAll chunks).1.crcErrorCount = d.crcErrorCount ∧
      (d.feedAll chunks).1.state = .sof := by
  obtain ⟨d', hfeed, hs, hc⟩ := feed_wire hd h
  rw [feedAll, Transducer.feedAll_eq, hcut, ← feed, hfeed]
  exact ⟨rfl, hc, hs⟩

/-- Two frames behind noise, cut inside the first one's length, on a decoder with stale fields. -/
theorem decoder_complete_cut :
    let stale : FrameDecoder :=
      { new with ty := 0x0A, seq := 4, len := 600, buf := [0xA5], crcErrorCount := 3 }
    let pieces : List (List UInt8 × DecodedFrame) :=
      [([0x00, 0x11], ⟨.query, 7, [0x05]⟩), ([], ⟨.lock, 8, [0xA5, 0x01]⟩)]
    let chunks := [(wire pieces).take 6, (wire pieces).drop 6]
    (stale.feedAll chunks).2 = pieces.map Prod.snd ∧
      (stale.feedAll chunks).1.crcErrorCount = 3 ∧ (stale.feedAll chunks).1.state = .sof :=
  decoder_complete _ _ _ rfl (by decide) (by simp)

/-- What a new decoder delivers was on the wire whole, in order and one frame after another;
its buffer stays within a payload; and the cut of the stream does not matter. -/
theorem decoder_sound (chunks : List (List UInt8)) :
    (∃ pieces rest,
      chunks.flatten = wire pieces ++ rest ∧
        pieces.map Prod.snd = (FrameDecoder.new.feedAll chunks).2 ∧
        ∀ p ∈ pieces, ∃ bytes, encode p.2.ty p.2.seq p.2.payload = .ok bytes) ∧
      (∀ read, read <+: chunks.flatten → (FrameDecoder.new.feed read).1.buf.length ≤ maxPayload) ∧
      ∀ chunks' : List (List UInt8), chunks'.flatten = chunks.flatten →
        FrameDecoder.new.feedAll chunks' = FrameDecoder.new.feedAll chunks := by
  refine ⟨?_, fun read _ => (accounts_feed read).1.buf_le, fun chunks' h => ?_⟩
  · obtain ⟨_, pieces, noise, hread, hframes, henc⟩ := accounts_feed chunks.flatten
    rw [feedAll, Transducer.feedAll_eq]
    exact ⟨pieces, noise ++ (new.feed chunks.flatten).1.held, by simpa using hread, hframes, henc⟩
  · rw [feedAll, Transducer.feedAll_eq, Transducer.feedAll_eq, h]

end Medius.Protocol
