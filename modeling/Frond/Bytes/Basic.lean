/-!
# Byte strings

Source text, file names and token text are byte strings: nothing forces them to be UTF-8.
This module holds the operations that treat them as bytes: slicing by a byte range, the part
before a NUL, and bytewise order. Reading them as text is `Frond.Bytes.Utf8`.
-/

namespace Frond

/-- A string of bytes, first byte first. -/
abbrev Bytes := List UInt8

namespace Bytes

/-- The UTF-8 bytes of a string, character by character. -/
def ofString (s : String) : Bytes := s.toList.flatMap String.utf8EncodeChar

/-- The byte of an ASCII character. -/
abbrev ascii (c : Char) : UInt8 := c.toUInt8

/-- Line feed, the byte that ends a line. -/
def lf : UInt8 := 10

/-- The bytes before the first NUL, or all of them when there is none. -/
def beforeNul (b : Bytes) : Bytes := b.takeWhile (· != 0)

/-- The bytes at positions `start` up to, not including, `stop`. A range that is inverted or
    runs past the end selects nothing at all, not a shorter piece. -/
def slice (b : Bytes) (start stop : Nat) : Bytes :=
  if start ≤ stop ∧ stop ≤ b.length then (b.drop start).take (stop - start) else []

/-- Bytewise lexicographic order: the first differing byte decides, and a proper prefix comes
    first. -/
def cmp : Bytes → Bytes → Ordering
  | [], [] => .eq
  | [], _ :: _ => .lt
  | _ :: _, [] => .gt
  | x :: xs, y :: ys => if x < y then .lt else if y < x then .gt else cmp xs ys

theorem slice_of_le {b : Bytes} {start stop : Nat} (h₁ : start ≤ stop)
    (h₂ : stop ≤ b.length) :
    b.slice start stop = (b.drop start).take (stop - start) := by
  simp [slice, h₁, h₂]

theorem length_slice_of_le {b : Bytes} {start stop : Nat} (h₁ : start ≤ stop)
    (h₂ : stop ≤ b.length) : (b.slice start stop).length = stop - start := by
  rw [slice_of_le h₁ h₂]
  simp
  omega

theorem cmp_self (b : Bytes) : cmp b b = .eq := by
  induction b with
  | nil => rfl
  | cons x xs ih => simp [cmp, ih]

example : slice [1, 2, 3, 4] 1 3 = [2, 3] := by decide
example : slice [1, 2, 3, 4] 3 1 = [] := by decide
example : slice [1, 2, 3, 4] 2 5 = [] := by decide
example : beforeNul [7, 0, 8] = [7] := by decide
example : cmp [1, 2] [1, 2, 0] = .lt := by decide

end Bytes

end Frond
