import Frond.Bytes.Basic
import Frond.Text.Decimal

/-!
# Formatting into an exact buffer

`format` runs a formatting twice: the first pass only measures, then a buffer of exactly the
measured size is filled by the second pass. A formatting is given by what each pass writes
(`Pass`): its pieces in order and whether it ended in an error.

* A first pass that fails is a formatter error.
* A second pass that writes more than was measured is a length mismatch, whether or not it
  goes on to fail: the buffer never overflows and nothing is cut off silently.
* Otherwise a second pass that fails is a formatter error.
* Otherwise the result is exactly what the second pass wrote, which may be shorter than the
  measure.
-/

namespace Frond

/-- What one formatting pass writes, in order, and whether it ended in an error. -/
structure Pass where
  writes : List String
  failed : Bool
  deriving DecidableEq, Repr

/-- The bytes a pass writes. -/
def Pass.bytes (p : Pass) : Bytes := p.writes.flatMap Bytes.ofString

/-- Why formatting failed. -/
inductive FormatError where
  /-- A formatting step reported an error. -/
  | formatter
  /-- The second pass wrote more than the `measured` bytes of the first. -/
  | lengthMismatch (measured : Nat)
  deriving DecidableEq, Repr

/-- The written form of a formatting failure. -/
def FormatError.message : FormatError → String
  | .formatter => "a formatting trait implementation returned an error"
  | .lengthMismatch measured =>
    "formatted output grew past the measured " ++ decimal measured ++
      " bytes on the second pass"

/-- Measures with the first pass, then writes with the second into a buffer of the measured
    size. -/
def format (first second : Pass) : Except FormatError Bytes :=
  if first.failed then .error .formatter
  else
    let measured := first.bytes.length
    let out := second.bytes
    if out.length > measured then .error (.lengthMismatch measured)
    else if second.failed then .error .formatter
    else .ok out

example : format ⟨["[", "x", "]"], false⟩ ⟨["[", "xx", "]"], false⟩ =
    .error (.lengthMismatch 3) := by
  rfl
example : format ⟨["[", "xx", "]"], false⟩ ⟨["[", "x", "]"], false⟩ =
    .ok (Bytes.ofString "[x]") := by
  rfl

end Frond
