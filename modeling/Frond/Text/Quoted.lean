import Frond.Text.Printable
import Frond.Text.GraphemeExtend
import Frond.Bytes.Utf8

/-!
# Quoted text

The debugging form of a text: the text between double quotes, each character written so that
the result is readable and unambiguous.

* NUL, tab, CR and LF are `\0`, `\t`, `\r`, `\n`; the double quote and the backslash get a
  backslash in front. The apostrophe stays as it is.
* A grapheme extender, and any character that is not printable, is written `\u{h}` with its
  code point in lower-case hex without leading zeros.
* Every other character stands for itself.
-/

namespace Frond

namespace Quoted

/-- Lower-case hex digits of a number, without leading zeros. -/
def hex (n : Nat) : String := String.ofList (Nat.toDigits 16 n)

/-- The escape of a character by its code point. -/
def unicodeEscape (c : Char) : String := "\\u\x7b" ++ hex c.toNat ++ "\x7d"

/-- How one character is written inside quotes. -/
def escapeChar (c : Char) : String :=
  if c == '\x00' then "\\0"
  else if c == '\t' then "\\t"
  else if c == '\r' then "\\r"
  else if c == '\n' then "\\n"
  else if c == '\\' then "\\\\"
  else if c == '"' then "\\\""
  else if isGraphemeExtend c || !isPrintable c then unicodeEscape c
  else String.singleton c

end Quoted

/-- The debugging form of a text: in double quotes, each character escaped as needed. -/
def quote (s : String) : String :=
  "\"" ++ String.join (s.toList.map Quoted.escapeChar) ++ "\""

/-- The debugging form of bytes: their lossy reading, quoted. -/
def Bytes.quoted (b : Bytes) : String := quote (Bytes.lossy b)

example : quote "a\"b\\c\n" = "\"a\\\"b\\\\c\\n\"" := by decide
example : quote "'" = "\"'\"" := by decide
example : quote "\x7f" = "\"\\u\x7b7f\x7d\"" := by decide

end Frond
