import Frond.Bytes.Basic

/-!
# Writing one byte in ASCII

`escapeByte` writes any byte with printable ASCII characters, the way messages quote a byte
that cannot be shown as it is: tab, CR and LF as `\t`, `\r`, `\n`; quote, apostrophe and
backslash behind a backslash; other printable ASCII as itself; every other byte as `\x` and
two lower-case hex digits.
-/

namespace Frond

namespace Bytes

/-- A lower-case hex digit. -/
def hexDigit (n : Nat) : Char :=
  if n < 10 then Char.ofNat (48 + n) else Char.ofNat (87 + n)

/-- The ASCII escape of a byte. -/
def escapeByte (b : UInt8) : String :=
  if b == 9 then "\\t"
  else if b == 13 then "\\r"
  else if b == 10 then "\\n"
  else if b == 39 then "\\'"
  else if b == 34 then "\\\""
  else if b == 92 then "\\\\"
  else if 0x20 ≤ b && b ≤ 0x7E then String.singleton (Char.ofNat b.toNat)
  else String.ofList ['\\', 'x', hexDigit (b.toNat / 16), hexDigit (b.toNat % 16)]

example : escapeByte 0x24 = "$" := by decide
example : escapeByte 0xC3 = "\\xc3" := by decide
example : escapeByte 0x7F = "\\x7f" := by decide
example : escapeByte 39 = "\\'" := by decide

end Bytes

end Frond
