import Frond.Token.Kind
import Frond.Bytes.Utf8
import Frond.Text.Decimal

/-!
# Tokens, spans and locations

A token is a kind, the bytes of its text, the place it starts (file, line, column) and the
byte range it covers. Lines and columns count from 1 and columns count bytes; a column of 0
means "no column" and is left out when a location is written.
-/

namespace Frond

/-- A range of byte offsets, from `start` up to, not including, `stop`. -/
structure Span where
  start : Nat
  stop : Nat
  deriving DecidableEq, Repr, Inhabited

namespace Span

/-- The span of no bytes at a position. -/
def empty (pos : Nat) : Span := ⟨pos, pos⟩

/-- The number of bytes covered; an inverted span covers none. -/
def len (s : Span) : Nat := s.stop - s.start

/-- Whether the span covers no bytes: its start is at or after its stop. -/
def isEmpty (s : Span) : Bool := s.stop ≤ s.start

/-- Whether the span is the default one, empty at offset 0. -/
def isDefault (s : Span) : Bool := s == ⟨0, 0⟩

theorem isEmpty_iff_len_eq_zero (s : Span) : s.isEmpty = true ↔ s.len = 0 := by
  simp [isEmpty, len]
  omega

end Span

/-- Where a token starts: a file name (any bytes), a line and a column. -/
structure Location where
  file : Bytes
  line : Nat
  column : Nat
  deriving DecidableEq, Repr, Inhabited

namespace Location

/-- Writes `file:line:column`, the file name read lossily, and leaves out `:column` when the
    column is 0. -/
def render (file : String) (line column : Nat) : String :=
  file ++ ":" ++ decimal line ++ (if column > 0 then ":" ++ decimal column else "")

/-- The written form of a location. -/
def display (l : Location) : String := render (Bytes.lossy l.file) l.line l.column

example : render "main.fn" 3 14 = "main.fn:3:14" := by decide
example : render "<input>" 7 0 = "<input>:7" := by decide

end Location

/-- A token: its kind, its text, where it starts and the bytes it covers. For a string
    segment the text is the literal content without quotes and braces; for every other token
    it is the bytes of the span. -/
structure Token where
  kind : TokenKind
  text : Bytes
  loc : Location
  span : Span
  deriving DecidableEq, Repr, Inhabited

end Frond
