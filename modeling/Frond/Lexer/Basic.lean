import Frond.Token.Basic
import Frond.Lexer.Scan

/-!
# The lexer

A lexer holds a source and a cursor in it, and hands out one token per call of `next`. Input
ends at the first NUL byte: the bytes after it are kept as part of the source but never read.
Errors never stop the scan; a byte that starts no token, or an unterminated string segment,
becomes an `error` token and the scan goes on after it. At the end of input `next` keeps
returning `eof`.

The cursor is a `Position`: a byte offset with the 1-based line and byte column there. A saved
position can be restored later (`restore`); the interpolation counters are not part of it, so
only a restore that crosses no interpolation boundary replays the same tokens.

`tokens` lists the tokens from the cursor up to and including the first `eof`. It ends because
every token but `eof` takes at least one byte (`next_rest_length`).
-/

namespace Frond

open Scan
open Bytes (lf)

/-! ## 1. Positions -/

/-- A place in the source: a byte offset, and the line and byte column there, both from 1. -/
structure Position where
  pos : Nat
  line : Nat
  column : Nat
  deriving DecidableEq, Repr, Inhabited

namespace Position

/-- The start of a source. -/
def origin : Position := ⟨0, 1, 1⟩

/-- The place after one more byte: LF starts a new line at column 1. -/
def step (p : Position) (b : UInt8) : Position :=
  if b == lf then ⟨p.pos + 1, p.line + 1, 1⟩ else ⟨p.pos + 1, p.line, p.column + 1⟩

/-- The place after the bytes `bs`. -/
def across (p : Position) (bs : Bytes) : Position := bs.foldl step p

@[simp] theorem step_pos (p : Position) (b : UInt8) : (p.step b).pos = p.pos + 1 := by
  unfold step
  split <;> rfl

@[simp] theorem across_pos (p : Position) (bs : Bytes) :
    (p.across bs).pos = p.pos + bs.length := by
  induction bs generalizing p with
  | nil => rfl
  | cons b bs ih =>
    simp only [across, List.foldl_cons] at ih ⊢
    rw [ih]
    simp
    omega

end Position

/-! ## 2. The lexer state -/

/-- The name a source has until it is given one. -/
def placeholderFile : Bytes := Bytes.ofString "<input>"

/-- A lexer: the whole source, the file name used in locations, the cursor, the bytes ahead of
    it and the interpolation counters. The bytes ahead are always the input (the source before
    its first NUL) from the cursor on. -/
structure Lexer where
  source : Bytes
  filename : Bytes
  here : Position
  rest : Bytes
  rest_eq : rest = source.beforeNul.drop here.pos
  nesting : Nesting

namespace Lexer

/-- The bytes the lexer reads: the source before its first NUL. -/
def input (l : Lexer) : Bytes := l.source.beforeNul

/-- A lexer at the start of a source, named `<input>`. -/
def ofSource (source : Bytes) : Lexer where
  source := source
  filename := placeholderFile
  here := .origin
  rest := source.beforeNul
  rest_eq := by simp [Position.origin]
  nesting := ⟨0, 0⟩

/-- The same lexer with another file name. -/
def withFilename (l : Lexer) (filename : Bytes) : Lexer := { l with filename }

theorem drop_take_length {input rest : Bytes} {p : Nat} (h : rest = input.drop p) (k : Nat) :
    rest.drop k = input.drop (p + (rest.take k).length) := by
  subst h
  rw [List.drop_drop, List.length_take, List.length_drop]
  by_cases hk : k ≤ input.length - p
  · rw [Nat.min_eq_left hk]
  · rw [Nat.min_eq_right (by omega)]
    rw [List.drop_eq_nil_of_le (by omega), List.drop_eq_nil_of_le (by omega)]

/-- The lexer moved over the next `k` bytes (fewer at the end of the input). -/
def advance (l : Lexer) (k : Nat) : Lexer where
  source := l.source
  filename := l.filename
  here := l.here.across (l.rest.take k)
  rest := l.rest.drop k
  rest_eq := by rw [Position.across_pos]; exact drop_take_length l.rest_eq k
  nesting := l.nesting

@[simp] theorem advance_rest (l : Lexer) (k : Nat) : (l.advance k).rest = l.rest.drop k := rfl

/-- The lexer moved over the blanks ahead of it. -/
def skipBlanks (l : Lexer) : Lexer := l.advance (blankLength false l.rest)

/-- The location of the cursor in the lexer's file. -/
def location (l : Lexer) : Location := ⟨l.filename, l.here.line, l.here.column⟩

/-! ## 3. Reading tokens -/

/-- The token at the cursor, for a lexer that stands on no blank, and the lexer after it. -/
def read (l : Lexer) : Token × Lexer :=
  match l.rest with
  | [] => (⟨.eof, [], l.location, .empty l.here.pos⟩, l)
  | b :: r =>
    let (lexeme, nesting) := scan l.nesting b r
    let l' := { l.advance (lexeme.extra + 1) with nesting }
    (⟨lexeme.kind, lexeme.text, l.location, ⟨l.here.pos, l'.here.pos⟩⟩, l')

/-- The next token and the lexer after it. -/
def next (l : Lexer) : Token × Lexer := l.skipBlanks.read

/-- The token `next` would return, without moving. -/
def peek (l : Lexer) : Token := l.next.1

/-- Whether only blanks are left. -/
def isEof (l : Lexer) : Bool := l.skipBlanks.rest.isEmpty

/-- The cursor, to come back to later. -/
def save (l : Lexer) : Position := l.here

/-- Moves the cursor to a saved position. The offset is clamped to the end of the input; line
    and column are taken as saved, and the interpolation counters stay as they are. -/
def restore (l : Lexer) (p : Position) : Lexer where
  source := l.source
  filename := l.filename
  here := ⟨min p.pos l.input.length, p.line, p.column⟩
  rest := l.input.drop (min p.pos l.input.length)
  rest_eq := rfl
  nesting := l.nesting

theorem read_rest_length (l : Lexer) :
    l.read.1.kind = .eof ∨ l.read.2.rest.length < l.rest.length := by
  unfold read
  split
  · left; rfl
  · rename_i b r h
    right
    simp only [advance_rest, h, List.length_drop, List.length_cons]
    omega

theorem next_rest_length (l : Lexer) :
    l.next.1.kind = .eof ∨ l.next.2.rest.length < l.rest.length := by
  have hskip : l.skipBlanks.rest.length ≤ l.rest.length := by
    simp [skipBlanks]
  rcases read_rest_length l.skipBlanks with h | h
  · exact Or.inl h
  · exact Or.inr (Nat.lt_of_lt_of_le h hskip)

/-- The tokens from the cursor on, up to and including the first `eof`. -/
def tokens (l : Lexer) : List Token :=
  match h : l.next with
  | (t, l') =>
    if hk : t.kind = .eof then [t]
    else
      have : l'.rest.length < l.rest.length := by
        have := l.next_rest_length
        rw [h] at this
        exact this.resolve_left hk
      t :: tokens l'
termination_by l.rest.length

end Lexer

end Frond
