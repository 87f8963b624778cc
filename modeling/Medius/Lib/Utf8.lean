import Mathlib

/-! Bytes read as UTF-8, with the replacement character where they are none. -/

namespace Utf8

/-- How many bytes go on from a first byte, and between which bounds the next of them is. -/
def lead (b : UInt8) : Option (Nat × UInt8 × UInt8) :=
  if b < 0x80 then some (0, 0x80, 0xBF)
  else if 0xC2 ≤ b ∧ b ≤ 0xDF then some (1, 0x80, 0xBF)
  else if b = 0xE0 then some (2, 0xA0, 0xBF)
  else if b = 0xED then some (2, 0x80, 0x9F)
  else if 0xE1 ≤ b ∧ b ≤ 0xEF then some (2, 0x80, 0xBF)
  else if b = 0xF0 then some (3, 0x90, 0xBF)
  else if 0xF1 ≤ b ∧ b ≤ 0xF3 then some (3, 0x80, 0xBF)
  else if b = 0xF4 then some (3, 0x80, 0x8F)
  else none

/-- How many of the bytes asked for are there, and whether all of them are. -/
def follow : Nat → UInt8 → UInt8 → List UInt8 → Nat × Bool
  | 0, _, _, _ => (0, true)
  | n + 1, low, high, b :: rest =>
    if low ≤ b ∧ b ≤ high then
      let r := follow n 0x80 0xBF rest
      (r.1 + 1, r.2)
    else (0, false)
  | _ + 1, _, _, [] => (0, false)

/-- How many bytes after the first belong to it, and whether they make a character with it. -/
def span (b : UInt8) (rest : List UInt8) : Nat × Bool :=
  match lead b with
  | some (n, low, high) => follow n low high rest
  | none => (0, false)

/-- U+FFFD. -/
def replacement : List UInt8 := [0xEF, 0xBF, 0xBD]

def head (b : UInt8) (rest : List UInt8) : List UInt8 :=
  if (span b rest).2 then b :: rest.take (span b rest).1 else replacement

/-- After so many bytes that belong to a character already read. -/
def lossyAfter : Nat → List UInt8 → List UInt8
  | _, [] => []
  | k + 1, _ :: rest => lossyAfter k rest
  | 0, b :: rest => head b rest ++ lossyAfter (span b rest).1 rest

/-- Each longest start of a character that does not go on as one is one replacement. -/
def lossy (bytes : List UInt8) : List UInt8 := lossyAfter 0 bytes

theorem lossyAfter_eq (k : Nat) (bytes : List UInt8) :
    lossyAfter k bytes = lossy (bytes.drop k) := by
  induction bytes generalizing k with
  | nil => simp [lossy, lossyAfter]
  | cons b rest ih =>
    cases k with
    | zero => rfl
    | succ k => exact ih k

@[simp] theorem lossy_nil : lossy [] = [] := rfl

theorem lossy_cons (b : UInt8) (rest : List UInt8) :
    lossy (b :: rest) = head b rest ++ lossy (rest.drop (span b rest).1) := by
  rw [lossy, lossyAfter, lossyAfter_eq]

/-- Characters one after another. -/
inductive Valid : List UInt8 → Prop
  | nil : Valid []
  | char {b : UInt8} {rest : List UInt8} : (span b rest).2 = true →
    Valid (rest.drop (span b rest).1) → Valid (b :: rest)

theorem lossy_of_valid {bytes : List UInt8} (h : Valid bytes) : lossy bytes = bytes := by
  induction h with
  | nil => rfl
  | @char b rest hspan hrest ih =>
    rw [lossy_cons, ih, head, if_pos hspan, List.cons_append, List.take_append_drop]

/-- What follows a whole character does not change it. -/
theorem follow_take_append {n : Nat} {low high : UInt8} {bytes : List UInt8} (more : List UInt8)
    (h : (follow n low high bytes).2 = true) :
    follow n low high (bytes.take (follow n low high bytes).1 ++ more) = (n, true) ∧
      (bytes.take (follow n low high bytes).1).length = n := by
  induction n generalizing low high bytes with
  | zero => exact ⟨rfl, by simp [follow]⟩
  | succ n ih =>
    cases bytes with
    | nil => cases h
    | cons b rest =>
      by_cases hb : low ≤ b ∧ b ≤ high
      · simp only [follow, if_pos hb] at h ⊢
        obtain ⟨hfollow, hlen⟩ := ih h
        rw [List.take_succ_cons, List.cons_append]
        exact ⟨by simp only [follow, if_pos hb, hfollow], by rw [List.length_cons, hlen]⟩
      · simp only [follow, if_neg hb] at h
        cases h

theorem valid_head_append {b : UInt8} {rest more : List UInt8} (h : Valid more) :
    Valid (head b rest ++ more) := by
  unfold head
  split
  next hspan =>
    have hchar : span b (rest.take (span b rest).1 ++ more) =
        ((rest.take (span b rest).1).length, true) := by
      unfold span at hspan ⊢
      split at hspan
      next n low high hlead =>
        simp only at hspan ⊢
        obtain ⟨hfollow, hlen⟩ := follow_take_append more hspan
        rw [hfollow, hlen]
      · cases hspan
    rw [List.cons_append]
    refine .char (by rw [hchar]) ?_
    rw [hchar, List.drop_left]
    exact h
  · exact .char (show (span 0xEF (0xBF :: 0xBD :: more)).2 = true from rfl) h

theorem valid_lossy (bytes : List UInt8) : Valid (lossy bytes) := by
  induction hn : bytes.length using Nat.strong_induction_on generalizing bytes with
  | _ n ih =>
    cases bytes with
    | nil => exact .nil
    | cons b rest =>
      rw [lossy_cons]
      refine valid_head_append (ih _ ?_ _ rfl)
      simp only [List.length_cons] at hn
      rw [List.length_drop]
      omega

example : lossy [0x61, 0xC3, 0xA9, 0xE2, 0x82, 0x41, 0xFF] =
    [0x61, 0xC3, 0xA9] ++ replacement ++ [0x41] ++ replacement := by decide

/-- A string, as its bytes. -/
structure Text where
  bytes : List UInt8
  valid : Valid bytes
  deriving DecidableEq

namespace Text

def empty : Text := ⟨[], .nil⟩

def lossy (bytes : List UInt8) : Text := ⟨Utf8.lossy bytes, valid_lossy bytes⟩

@[simp] theorem lossy_bytes (t : Text) : lossy t.bytes = t := by
  obtain ⟨bytes, valid⟩ := t
  simp only [lossy, lossy_of_valid valid]

end Text

end Utf8
