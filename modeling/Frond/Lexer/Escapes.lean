import Frond.Bytes.Basic
import Frond.Arena.Basic

/-!
# String escapes

The raw text of a string segment keeps its escapes as written; `unescape` decodes them.
`\n`, `\t` and `\r` stand for LF, tab and CR; `\\`, `\"`, `\{` and `\}` for the second byte.

The decoder is a loop over the raw text with two indices: it reads at `i` and writes at `out`
into a zeroed buffer as long as the raw text. At a backslash that makes a recognised escape with
the byte after it, it writes the byte the escape stands for and reads on past both bytes. Any
other byte is copied and the loop reads on from the next byte: a backslash before an unknown
byte is copied alone, and the byte after it is read again on the next turn. The result is the
buffer up to `out`.

The buffer write `buf[out]` and the final cut `buf[..out]` stop the program (an index panic)
past the end of the buffer; that stop is `none` in `unescapeChecked`.

The program takes the buffer from an arena, which may refuse it (`unescapeIn`); `unescape` is the
decoded text once the buffer is granted.
-/

namespace Frond

namespace Escapes

open Bytes (ascii)

/-- The byte a backslash followed by `b` stands for, if that is a recognised escape. -/
def escaped (b : UInt8) : Option UInt8 :=
  if b == ascii 'n' then some (ascii '\n')
  else if b == ascii 't' then some (ascii '\t')
  else if b == ascii 'r' then some (ascii '\r')
  else if b == ascii '\\' || b == ascii '"' || b == ascii '{' || b == ascii '}' then some b
  else none

/-- The byte that `b` followed by `next` decodes to, when `b` is a backslash and the two make a
    recognised escape. -/
def decoded (b : UInt8) (next : Option UInt8) : Option UInt8 :=
  if b == ascii '\\' then next.bind escaped else none

/-- The decoding loop's state: the next raw byte to read, the next place to write, and the
    buffer. -/
structure Decoder where
  i : Nat
  out : Nat
  buf : Bytes
  deriving DecidableEq, Repr

namespace Decoder

/-- Before the first turn: both indices at the start, and a zeroed buffer as long as the raw
    text. -/
def start (raw : Bytes) : Decoder := ⟨0, 0, List.replicate raw.length 0⟩

/-- `buf[out] = byte`, or `none` past the end of the buffer. -/
def write (d : Decoder) (byte : UInt8) : Option Bytes :=
  if d.out < d.buf.length then some (d.buf.set d.out byte) else none

/-- One turn of the loop at a read position inside the raw text. A recognised escape writes the
    byte it stands for and reads on past both bytes; any other byte is copied and the loop reads
    on from the next byte. -/
def step (raw : Bytes) (d : Decoder) (h : d.i < raw.length) : Option Decoder :=
  match decoded raw[d.i] raw[d.i + 1]? with
  | some byte => (d.write byte).map fun buf => ⟨d.i + 2, d.out + 1, buf⟩
  | none => (d.write raw[d.i]).map fun buf => ⟨d.i + 1, d.out + 1, buf⟩

/-- A turn moves the read position on. -/
theorem i_lt_of_step {raw : Bytes} {d d' : Decoder} {h : d.i < raw.length}
    (hs : d.step raw h = some d') : d.i < d'.i := by
  unfold step at hs
  split at hs
  all_goals
    obtain ⟨buf, -, rfl⟩ := Option.map_eq_some_iff.1 hs
    simp

/-- The loop: turns while the read position is inside the raw text. -/
def run (raw : Bytes) (d : Decoder) : Option Decoder :=
  if h : d.i < raw.length then
    match hs : d.step raw h with
    | some d' =>
      have : d.i < d'.i := i_lt_of_step hs
      run raw d'
    | none => none
  else some d
termination_by raw.length - d.i

/-- `buf[..out]`, or `none` when `out` is past the end of the buffer. -/
def result (d : Decoder) : Option Bytes :=
  if d.out ≤ d.buf.length then some (d.buf.take d.out) else none

end Decoder

/-- The raw text with its escapes decoded, or `none` where the code stops with an index
    panic. -/
def unescapeChecked (raw : Bytes) : Option Bytes :=
  (Decoder.run raw (Decoder.start raw)).bind Decoder.result

/-- The raw text with its escapes decoded. The empty text stands for the index panic, which
    never happens. -/
def unescape (raw : Bytes) : Bytes := (unescapeChecked raw).getD []

/-- The decoder as the program runs it on an arena: the buffer is a region of zero bytes as long
    as the raw text, which the arena may refuse; the loop writes the buffer in place, and the
    answer is the region cut at `out`, with the arena holding the buffer, or `none` where the
    code stops with an index panic. -/
def unescapeIn (a : Arena) (raw : Bytes) : Except ArenaError (Option (Region × Arena)) :=
  (a.allocZeroedBytes raw.length).map fun (r, a') =>
    (Decoder.run raw (Decoder.start raw)).bind fun d =>
      d.result.map fun out => ({ r with size := out.length }, a'.store r.address d.buf)

example : unescape (Bytes.ofString "a\\nb\\q\\") = Bytes.ofString "a\nb\\q\\" := by
  decide +kernel
example : unescape (Bytes.ofString "\\\\n") = Bytes.ofString "\\n" := by decide +kernel

end Escapes

end Frond
