/-!
# Decimal numbers

Counts, offsets, times and sizes are written in decimal, most significant digit first, with
no sign, padding or separators.
-/

namespace Frond

/-- Decimal digits of a natural number. -/
def decimal (n : Nat) : String := String.ofList (Nat.toDigits 10 n)

example : decimal 0 = "0" := by decide
example : decimal 18446744073709551615 = "18446744073709551615" := by decide

end Frond
