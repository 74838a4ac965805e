import Frond.Token.Kind
import Frond.Bytes.Basic

/-!
# Scanning one lexeme

The scanner reads bytes. This module holds the part that looks at the bytes ahead and decides
how many of them the next token takes; `Frond.Lexer.Basic` moves the cursor over them.

* `blankLength` counts the blanks before a token: space, tab, CR, LF, and `#` comments, each
  running up to, not including, the next LF.
* `scan` reads one lexeme after its first byte: identifiers and words, numbers, operators by
  longest match, and string segments. It also updates the interpolation counters (`Nesting`).

A string literal may hold `{expr}` interpolations. The literal is cut into segments: the first
runs from the opening quote to the first `{`, the next from the `}` that ends the expression
to the following `{` or to the closing quote. A `{` right before a quote is literal text, and
a backslash always takes the next byte with it.
-/

namespace Frond

namespace Scan

open Bytes (ascii lf)

/-! ## 1. Byte classes -/

/-- Space, tab, CR and LF. -/
def isBlank (b : UInt8) : Bool :=
  b == ascii ' ' || b == ascii '\t' || b == ascii '\r' || b == lf

/-- An ASCII decimal digit. -/
def isDigit (b : UInt8) : Bool := ascii '0' ≤ b && b ≤ ascii '9'

/-- An ASCII letter. -/
def isAlpha (b : UInt8) : Bool :=
  (ascii 'a' ≤ b && b ≤ ascii 'z') || (ascii 'A' ≤ b && b ≤ ascii 'Z')

/-- A byte that starts an identifier: a letter, `_`, or a byte that leads a multi-byte UTF-8
    sequence (`C0` and above). -/
def isIdentStart (b : UInt8) : Bool := isAlpha b || b == ascii '_' || 0xC0 ≤ b

/-- A byte that continues an identifier: a letter, a digit, `_`, or any byte of a multi-byte
    UTF-8 sequence (`80` and above). -/
def isIdentContinue (b : UInt8) : Bool :=
  isAlpha b || isDigit b || b == ascii '_' || 0x80 ≤ b

/-- A digit of the given radix (2, 8 or 16), letters in either case. -/
def isRadixDigit (radix : Nat) (b : UInt8) : Bool :=
  if radix == 16 then
    isDigit b || (ascii 'a' ≤ b && b ≤ ascii 'f') || (ascii 'A' ≤ b && b ≤ ascii 'F')
  else ascii '0' ≤ b && b.toNat < (ascii '0').toNat + radix

/-- The radix that a letter after a leading `0` announces: `x`, `b` or `o`, in either case. -/
def radixOf (b : UInt8) : Option Nat :=
  if b == ascii 'x' || b == ascii 'X' then some 16
  else if b == ascii 'b' || b == ascii 'B' then some 2
  else if b == ascii 'o' || b == ascii 'O' then some 8
  else none

/-! ## 2. Blanks -/

/-- How many blank bytes start the input. Inside a comment (`inComment`) every byte but LF is
    blank; LF is a blank that ends the comment. -/
def blankLength (inComment : Bool) : Bytes → Nat
  | [] => 0
  | b :: r =>
    if inComment && b != lf then blankLength true r + 1
    else if isBlank b then blankLength false r + 1
    else if b == ascii '#' then blankLength true r + 1
    else 0

/-! ## 3. Lexemes -/

/-- What the scanner found: the kind, how many bytes after the first one the token takes, and
    its text. -/
structure Lexeme where
  kind : TokenKind
  extra : Nat
  text : Bytes
  deriving DecidableEq, Repr

/-- The interpolation counters: how many interpolations are open, and how many plain braces
    are open inside the innermost one. -/
structure Nesting where
  depth : Nat
  braces : Nat
  deriving DecidableEq, Repr, Inhabited

/-- A lexeme whose text is all the bytes it takes: the first byte `b` and `extra` of `r`. -/
def whole (kind : TokenKind) (b : UInt8) (r : Bytes) (extra : Nat) : Lexeme :=
  ⟨kind, extra, b :: r.take extra⟩

/-- How many bytes of literal text come before the end of a string segment: the end is a
    quote, a `{` that is not right before a quote, or the end of the input. -/
def segmentLength : Bytes → Nat
  | [] => 0
  | b :: r =>
    if b == ascii '"' then 0
    else if b == ascii '\\' then
      match r with
      | [] => 1
      | _ :: r' => segmentLength r' + 2
    else if b == ascii '{' then
      match r with
      | c :: _ => if c == ascii '"' then 1 else 0
      | [] => 0
    else segmentLength r + 1

/-- A string segment after its opening byte (a quote, or the `}` that ends an
    interpolation). At a `{` the segment opens an interpolation and has kind `open`; at the
    closing quote it has kind `close`; at the end of the input it is an error and the counters
    stay as they are. -/
def segment (opens closes : TokenKind) (n : Nesting) (r : Bytes) : Lexeme × Nesting :=
  let len := segmentLength r
  let text := r.take len
  match r.drop len with
  | [] => (⟨.error, len, text⟩, n)
  | b :: _ =>
    if b == ascii '{' then (⟨opens, len + 1, text⟩, ⟨n.depth + 1, 0⟩)
    else (⟨closes, len + 1, text⟩, n)

/-- A number after its first digit `d`. A `0` followed by `x`, `b` or `o` starts a radix
    literal that takes underscores and digits of that radix, and is an integer even with no
    digits. Otherwise decimal digits follow, and a point followed by a digit makes it a
    float, so that `1..5` stays a range. -/
def number (d : UInt8) (r : Bytes) : Lexeme :=
  let radix := if d == ascii '0' then r.head?.bind radixOf else none
  match radix with
  | some k =>
    let body := (r.drop 1).takeWhile fun b => b == ascii '_' || isRadixDigit k b
    whole .int d r (body.length + 1)
  | none =>
    let whole₁ := (r.takeWhile isDigit).length
    match r.drop whole₁ with
    | p :: q :: _ =>
      if p == ascii '.' && isDigit q then
        let frac := ((r.drop (whole₁ + 1)).takeWhile isDigit).length
        whole .float d r (whole₁ + 1 + frac)
      else whole .int d r whole₁
    | _ => whole .int d r whole₁

/-- An identifier or word after its first byte. The word `_` alone is `underscore`; a reserved
    word has its own kind. -/
def word (b : UInt8) (r : Bytes) : Lexeme :=
  let extra := (r.takeWhile isIdentContinue).length
  let w := b :: r.take extra
  if w == [ascii '_'] then ⟨.underscore, extra, w⟩ else ⟨TokenKind.fromWord w, extra, w⟩

/-- The kind of a one-byte token, if the byte makes one by itself. -/
def single (b : UInt8) : Option TokenKind :=
  if b == ascii '(' then some .lParen
  else if b == ascii ')' then some .rParen
  else if b == ascii '[' then some .lBracket
  else if b == ascii ']' then some .rBracket
  else if b == ascii '{' then some .lBrace
  else if b == ascii '}' then some .rBrace
  else if b == ascii ',' then some .comma
  else if b == ascii ':' then some .colon
  else if b == ascii '+' then some .plus
  else if b == ascii '/' then some .slash
  else if b == ascii '%' then some .percent
  else if b == ascii '@' then some .atSign
  else if b == ascii '?' then some .question
  else none

/-- The operator that starts with `b`, by longest match on the bytes `r` after it: its kind and
    how many bytes of `r` it takes. A lone `!` is an error. -/
def operator (b : UInt8) (r : Bytes) : Option (TokenKind × Nat) :=
  let follows (c : Char) : Bool := r.head? == some (ascii c)
  if b == ascii '<' then
    some (if follows '-' then (.bind, 1) else if follows '=' then (.le, 1) else (.lt, 0))
  else if b == ascii '>' then some (if follows '=' then (.ge, 1) else (.gt, 0))
  else if b == ascii '=' then
    some (if follows '=' then (.eq, 1) else if follows '>' then (.fatArrow, 1) else (.assign, 0))
  else if b == ascii '!' then some (if follows '=' then (.ne, 1) else (.error, 0))
  else if b == ascii '-' then some (if follows '>' then (.arrow, 1) else (.minus, 0))
  else if b == ascii '|' then some (if follows '>' then (.pipe, 1) else (.bar, 0))
  else if b == ascii '*' then some (if follows '*' then (.power, 1) else (.star, 0))
  else if b == ascii '.' then
    if follows '.' then
      let third := (r.drop 1).head?
      some (if third == some (ascii '.') then (.ellipsis, 2)
        else if third == some (ascii '=') then (.dotDotEq, 2) else (.dotDot, 1))
    else some (.dot, 0)
  else (single b).map fun k => (k, 0)

/-- A token that is not a string segment, after its first byte `b`. -/
def plain (b : UInt8) (r : Bytes) : Lexeme :=
  if isDigit b then number b r
  else if isIdentStart b then word b r
  else match operator b r with
    | some (k, extra) => whole k b r extra
    | none => whole .error b r 0

/-- Inside an interpolation a plain `{` opens a brace and a `}` closes one (never below zero);
    outside, braces are not counted. -/
def countBrace (n : Nesting) (b : UInt8) : Nesting :=
  if n.depth == 0 then n
  else if b == ascii '{' then { n with braces := n.braces + 1 }
  else if b == ascii '}' then { n with braces := n.braces - 1 }
  else n

/-- One lexeme after its first byte `b`, with the counters after it. A `}` inside an
    interpolation with no plain brace open ends the interpolation and resumes the string; a
    quote opens a string; anything else is a plain token. -/
def scan (n : Nesting) (b : UInt8) (r : Bytes) : Lexeme × Nesting :=
  if b == ascii '}' && n.depth > 0 && n.braces == 0 then
    segment .stringMid .stringEnd { n with depth := n.depth - 1 } r
  else
    let n' := countBrace n b
    if b == ascii '"' then segment .stringBegin .string n' r
    else (plain b r, n')

example : blankLength false (Bytes.ofString " # c\n\tx") = 6 := by decide +kernel
example : segmentLength (Bytes.ofString "ab\\\"c\" x") = 5 := by decide +kernel
example : segmentLength (Bytes.ofString "a\x7b\"") = 2 := by decide +kernel
example : (number (ascii '1') (Bytes.ofString "2.5)")).kind = .float := by decide +kernel
example : (number (ascii '1') (Bytes.ofString "..5")).extra = 0 := by decide +kernel
example : (number (ascii '0') (Bytes.ofString "x")).extra = 1 := by decide +kernel
example : operator (ascii '.') (Bytes.ofString ".=") = some (.dotDotEq, 2) := by decide +kernel

end Scan

end Frond
