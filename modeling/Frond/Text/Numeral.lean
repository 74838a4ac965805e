/-!
# Reading unsigned decimals

`Numeral.read bound s` reads a decimal numeral whose value is below `bound`: an optional `+`
and then ASCII digits. The text is read from the left and the first fault met is the one
reported:

* an empty text is `empty`;
* a character that is not a digit is `invalidDigit` (a lone `+` too, and a `-`, since the
  value has no sign);
* a digit that brings the value to `bound` or past it is `tooLarge`.

So `"99999999999999999999x"` is too large for 64 bits while `"1x99999999999999999999"` has an
invalid digit.
-/

namespace Frond

/-- Why a text is not a numeral below the bound. -/
inductive NumeralError where
  | empty
  | invalidDigit
  | tooLarge
  deriving DecidableEq, Repr

/-- The written form of a numeral fault. -/
def NumeralError.message : NumeralError → String
  | .empty => "cannot parse integer from empty string"
  | .invalidDigit => "invalid digit found in string"
  | .tooLarge => "number too large to fit in target type"

namespace Numeral

/-- The value of a digit character. -/
def digitValue (c : Char) : Nat := c.toNat - '0'.toNat

/-- Reads digits onto the value `acc` read so far. -/
def digits (bound : Nat) : Nat → List Char → Except NumeralError Nat
  | acc, [] => .ok acc
  | acc, c :: cs =>
    if c.isDigit then
      let v := acc * 10 + digitValue c
      if v < bound then digits bound v cs else .error .tooLarge
    else .error .invalidDigit

/-- The value of a decimal numeral below `bound`, with an optional leading `+`. -/
def read (bound : Nat) (s : String) : Except NumeralError Nat :=
  match s.toList with
  | [] => .error .empty
  | ['+'] => .error .invalidDigit
  | '+' :: cs => digits bound 0 cs
  | cs => digits bound 0 cs

/-- A value read is below the bound, given that the value it starts from is. -/
theorem digits_lt {bound acc n : Nat} {cs : List Char} (hacc : acc < bound)
    (h : digits bound acc cs = .ok n) : n < bound := by
  induction cs generalizing acc with
  | nil => simp only [digits, Except.ok.injEq] at h; omega
  | cons c cs ih =>
    simp only [digits] at h
    split at h
    · split at h
      · exact ih (by assumption) h
      · cases h
    · cases h

example : read UInt64.size "+18446744073709551615" = .ok 18446744073709551615 := by rfl
example : read UInt64.size "18446744073709551616" = .error .tooLarge := by rfl
example : read UInt32.size "99999999999x" = .error .tooLarge := by rfl
example : read UInt32.size "1x9999999999" = .error .invalidDigit := by rfl
example : read UInt64.size "-5" = .error .invalidDigit := by rfl
example : read UInt64.size "+" = .error .invalidDigit := by rfl
example : read UInt64.size "" = .error .empty := by rfl

end Numeral

end Frond
