import Frond.Text.Format
import Frond.Arena.Basic

/-!
# Formatting into an arena

How `format` measures, gets its buffer and fills it, as the program does it on an arena. A pass
is what the formatting wrote (`Pass`), in order, and how it ended. What it wrote may depend on
what the writer answered: a formatting step may pass a refusal of the writer on, and the pass
ends in an error, or swallow it and go on.

* The measuring pass writes to a counter (`Pass.measure`): each piece adds its length, and a
  piece that would take the count past 2^64 - 1 is refused and leaves the count as it was.
* The arena hands out a zeroed buffer of the measured length, or refuses it.
* The writing pass writes to the buffer through a cursor (`SliceWriter`): each piece is copied
  as far as it fits, and a piece cut short marks the writer overflowed for good.
* An overflowed writer is a length mismatch, whatever the pass answered; otherwise a failed pass
  is a formatter error, and a pass that succeeded gives the buffer up to the cursor. The buffer
  stays taken from the arena when the writing pass is refused.
-/

namespace Frond

/-- The count of the measuring pass after `piece`: the count plus the piece's length, unless
    that passes 2^64 - 1, when the piece is refused and the count stays. -/
def countPiece (n : Nat) (piece : String) : Nat :=
  if n + (Bytes.ofString piece).length < wordBound then n + (Bytes.ofString piece).length else n

/-- The length a pass measures: its pieces counted from 0. -/
def Pass.measure (p : Pass) : Nat := p.writes.foldl countPiece 0

/-- The writer of the writing pass: the buffer, the cursor, and whether a piece did not fit. -/
structure SliceWriter where
  buf : Bytes
  pos : Nat
  overflowed : Bool
  deriving DecidableEq, Repr

namespace SliceWriter

/-- A buffer of `len` zero bytes with nothing written. -/
def empty (len : Nat) : SliceWriter := ⟨List.replicate len 0, 0, false⟩

/-- Copies as much of `piece` as fits after the cursor and moves the cursor past it; a piece cut
    short marks the writer overflowed. -/
def write (w : SliceWriter) (piece : String) : SliceWriter :=
  let bytes := Bytes.ofString piece
  let take := min bytes.length (w.buf.length - w.pos)
  { buf := w.buf.take w.pos ++ bytes.take take ++ w.buf.drop (w.pos + take)
    pos := w.pos + take
    overflowed := w.overflowed || decide (take < bytes.length) }

end SliceWriter

/-- Why formatting into an arena failed: the formatting failed, or the arena refused the
    buffer. -/
inductive FormatFailure where
  | format (e : FormatError)
  | alloc (e : ArenaError)
  deriving DecidableEq, Repr

/-- `format` on an arena changed in place: measures with the first pass, takes a zeroed buffer of
    the measured length, and writes the second pass into it. -/
def formatIn (first second : Pass) : EStateM FormatFailure Arena Bytes := do
  if first.failed then throw (.format .formatter)
  let measured := first.measure
  match (← get).allocZeroedBytes measured with
  | .error e => throw (.alloc e)
  | .ok (r, a) =>
    let w := second.writes.foldl SliceWriter.write (.empty measured)
    set (a.store r.address w.buf)
    if w.overflowed then throw (.format (.lengthMismatch measured))
    if second.failed then throw (.format .formatter)
    pure (w.buf.take w.pos)

end Frond
