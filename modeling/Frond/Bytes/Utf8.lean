import Frond.Bytes.Basic

/-!
# Reading bytes as UTF-8

A byte string reads as a sequence of pieces: a well-formed UTF-8 sequence stands for its
scalar value, and every other stretch is cut into *maximal ill-formed subparts*, the longest
start of a well-formed sequence that cannot be completed (or a single byte that starts none).
The lossy reading writes U+FFFD for each such subpart, as the Unicode standard recommends;
the strict reading refuses any byte string that has one.

The well-formed sequences are those of the standard's table of well-formed byte sequences:
the second byte of a sequence has tighter bounds after `E0`, `ED`, `F0` and `F4`, which rules
out overlong forms, surrogates and values above U+10FFFF.
-/

namespace Frond

namespace Bytes

/-- Whether a byte is a continuation byte, `80` to `BF`. -/
def isContinuation (b : UInt8) : Bool := 0x80 ≤ b && b ≤ 0xBF

/-- For a byte that starts a multi-byte sequence: how many bytes follow it, and the bounds of
    the first of them. Bytes that start no sequence (`80` to `C1`, `F5` to `FF`) give none. -/
def leadShape (b : UInt8) : Option (Nat × UInt8 × UInt8) :=
  if b < 0xC2 then none
  else if b ≤ 0xDF then some (1, 0x80, 0xBF)
  else if b == 0xE0 then some (2, 0xA0, 0xBF)
  else if b == 0xED then some (2, 0x80, 0x9F)
  else if b ≤ 0xEF then some (2, 0x80, 0xBF)
  else if b == 0xF0 then some (3, 0x90, 0xBF)
  else if b ≤ 0xF3 then some (3, 0x80, 0xBF)
  else if b == 0xF4 then some (3, 0x80, 0x8F)
  else none

/-- The payload bits of a lead byte that announces `n` following bytes. -/
def leadBits (b : UInt8) (n : Nat) : Nat :=
  b.toNat % Nat.pow 2 (6 - n)

/-- Reads `n` continuation bytes onto the value `acc`. Gives the value and the rest, or, when
    a byte is missing or is no continuation byte, nothing and the rest from that byte on. -/
def readContinuations : Nat → Nat → Bytes → Option Nat × Bytes
  | 0, acc, r => (some acc, r)
  | _ + 1, _, [] => (none, [])
  | k + 1, acc, b :: r =>
    if isContinuation b then readContinuations k (acc * 64 + b.toNat % 64) r
    else (none, b :: r)

/-- One piece at the head of a nonempty byte string: a scalar value or an ill-formed subpart
    (`none`), and the bytes after it. -/
def piece (b : UInt8) (r : Bytes) : Option Char × Bytes :=
  if b < 0x80 then (some (Char.ofNat b.toNat), r)
  else match leadShape b with
    | none => (none, r)
    | some (n, lo, hi) =>
      match r with
      | [] => (none, [])
      | b1 :: r1 =>
        if lo ≤ b1 && b1 ≤ hi then
          let (v, r2) := readContinuations (n - 1) (leadBits b n * 64 + b1.toNat % 64) r1
          (v.map Char.ofNat, r2)
        else (none, b1 :: r1)

theorem length_readContinuations_le (n acc : Nat) (r : Bytes) :
    (readContinuations n acc r).2.length ≤ r.length := by
  induction n generalizing acc r with
  | zero => simp [readContinuations]
  | succ k ih =>
    cases r with
    | nil => simp [readContinuations]
    | cons b r =>
      simp only [readContinuations]
      split
      · have := ih (acc * 64 + b.toNat % 64) r
        simp at this ⊢
        omega
      · simp

theorem length_piece_le (b : UInt8) (r : Bytes) : (piece b r).2.length ≤ r.length := by
  unfold piece
  split
  · simp
  · split
    · simp
    · rename_i n lo hi _
      split
      · simp
      · rename_i b1 r1
        split
        · have := length_readContinuations_le (n - 1) (leadBits b n * 64 + b1.toNat % 64) r1
          simp only [List.length_cons]
          omega
        · simp

/-- The pieces of a byte string, in order. -/
def pieces : Bytes → List (Option Char)
  | [] => []
  | b :: r =>
    have := length_piece_le b r
    (piece b r).1 :: pieces (piece b r).2
termination_by l => l.length

/-- The text of a byte string with each ill-formed subpart written as U+FFFD. -/
def lossy (b : Bytes) : String :=
  String.ofList ((pieces b).map fun p => p.getD '�')

/-- The text of a byte string that is well-formed UTF-8, and nothing for any other. -/
def utf8? (b : Bytes) : Option String :=
  (pieces b).mapM id |>.map String.ofList

/-- Whether a byte string is well-formed UTF-8. -/
def isUtf8 (b : Bytes) : Bool := (utf8? b).isSome

example : lossy [0xFF, 0x80] = "��" := by cbv
example : lossy [0xED, 0xA0, 0x80] = "���" := by cbv
example : lossy [0xE2, 0x82] = "�" := by cbv
example : lossy [0xC3, 0x28] = "�(" := by cbv
example : lossy [0xF0, 0x9F, 0x98, 0x80] = "😀" := by cbv
example : utf8? [0xC3, 0xA9] = some "é" := by cbv
example : isUtf8 [0xC0, 0x80] = false := by cbv

end Bytes

end Frond
