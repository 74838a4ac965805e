import Frond.Proofs.Lexer.Step
import Frond.Proofs.Lexer.EscapeUnits
import Mathlib.Data.List.TakeWhile

/-!
# String literals round trip

Any byte string without NUL can be written as a string literal: put a backslash before each
backslash, quote and brace, write LF, tab and CR as `\n`, `\t` and `\r`, keep every other byte,
and put the whole between quotes. This module shows that the lexer reads such a literal back as
one string token whose text is the written form, and that `unescape` gives the bytes back.

The scanner and `unescape` read the raw text in the same units, a backslash with the byte after
it or a single other byte, so both proofs go one written byte at a time.

* `escape`: the written form of a byte string inside a literal.
* `unescape_escape`: decoding the written form gives the bytes back.
* `segmentLength_escape`: the scanner runs over the whole written form up to the closing quote;
  no escaped quote or brace ends the segment and no brace opens an interpolation.
* `string_literal_round_trip`: the literal lexes to exactly one `string` token over the whole
  source, followed by `eof`, and its text decodes to the bytes written.
-/

namespace Frond

open Bytes (ascii lf)

namespace Escapes

/-! ## 1. Writing a string literal -/

/-- The byte written after a backslash for `b`, when `b` cannot stand for itself in a literal. -/
def escapeCode (b : UInt8) : Option UInt8 :=
  if b == ascii '\n' then some (ascii 'n')
  else if b == ascii '\t' then some (ascii 't')
  else if b == ascii '\r' then some (ascii 'r')
  else if b == ascii '\\' || b == ascii '"' || b == ascii '{' || b == ascii '}' then some b
  else none

/-- How one byte is written inside a literal. -/
def escapeOne (b : UInt8) : Bytes :=
  match escapeCode b with
  | some c => [ascii '\\', c]
  | none => [b]

/-- The written form of a byte string inside a literal, without its quotes. -/
def escape (s : Bytes) : Bytes := s.flatMap escapeOne

example : escape (Bytes.ofString "a\"\x7b\n") = Bytes.ofString "a\\\"\\\x7b\\n" := by decide

/-- A string literal: the written form between quotes. -/
def literal (s : Bytes) : Bytes := ascii '"' :: (escape s ++ [ascii '"'])

@[simp] theorem escape_nil : escape [] = [] := rfl

@[simp] theorem escape_cons (b : UInt8) (s : Bytes) :
    escape (b :: s) = escapeOne b ++ escape s := rfl

/-- Each escape code stands for the byte it was written for. -/
theorem escaped_escapeCode :
    ∀ b : UInt8, (escapeCode b).bind escaped = (escapeCode b).map fun _ => b := by
  decide +kernel

/-- A byte written as itself is none of the bytes the scanner or `unescape` treat apart, and no
    LF. -/
theorem plain_of_escapeCode_none :
    ∀ b : UInt8, escapeCode b = none →
      b ≠ ascii '\\' ∧ b ≠ ascii '"' ∧ b ≠ ascii '{' ∧ b ≠ lf := by
  decide +kernel

/-- No escape code is NUL or LF. -/
theorem escapeCode_ne : ∀ b c : UInt8, escapeCode b = some c → c ≠ 0 ∧ c ≠ lf := by
  intro b c h
  have : ∀ b : UInt8, (escapeCode b).all fun c => c != 0 && c != lf := by decide +kernel
  have hb := this b
  rw [h] at hb
  simpa using hb

/-! ## 2. Decoding the written form -/

/-- A byte other than a backslash is its own unit. -/
theorem unescape_cons_of_ne {b : UInt8} (hb : b ≠ ascii '\\') (r : Bytes) :
    unescape (b :: r) = b :: unescape r := by
  rw [unescape_eq_decodeUnits, unescape_eq_decodeUnits, decodeUnits_cons_of_ne hb]

/-- A backslash and a recognised escape code are one unit. -/
theorem unescape_pair {c d : UInt8} (h : escaped c = some d) (r : Bytes) :
    unescape (ascii '\\' :: c :: r) = d :: unescape r := by
  rw [unescape_eq_decodeUnits, unescape_eq_decodeUnits, decodeUnits_pair h]

theorem unescape_escapeOne (b : UInt8) (r : Bytes) :
    unescape (escapeOne b ++ r) = b :: unescape r := by
  unfold escapeOne
  split
  · rename_i c hc
    have hdec : escaped c = some b := by simpa [hc] using escaped_escapeCode b
    exact unescape_pair hdec r
  · rename_i hc
    exact unescape_cons_of_ne (plain_of_escapeCode_none b hc).1 r

/-- **Decoding undoes writing**: `unescape` pairs each backslash the way it was written. -/
theorem unescape_escape (s : Bytes) : unescape (escape s) = s := by
  induction s with
  | nil => exact unescape_nil
  | cons b s ih => rw [escape_cons, unescape_escapeOne, ih]

end Escapes

open Escapes

/-! ## 3. Scanning the written form -/

namespace Scan

/-- A quote ends the segment. -/
theorem segmentLength_quote (q : Bytes) : segmentLength (ascii '"' :: q) = 0 := by
  cases q <;> rfl

/-- A backslash takes the byte after it into the segment. -/
theorem segmentLength_backslash (c : UInt8) (r : Bytes) :
    segmentLength (ascii '\\' :: c :: r) = segmentLength r + 2 := by
  simp +decide [segmentLength]

/-- A byte that is no quote, backslash or brace is literal text. -/
theorem segmentLength_cons_of_plain {b : UInt8} (hq : b ≠ ascii '"') (hbs : b ≠ ascii '\\')
    (hbr : b ≠ ascii '{') (r : Bytes) : segmentLength (b :: r) = segmentLength r + 1 := by
  cases r <;> simp [segmentLength, hq, hbs, hbr]

theorem segmentLength_escapeOne (b : UInt8) (r : Bytes) :
    segmentLength (escapeOne b ++ r) = (escapeOne b).length + segmentLength r := by
  unfold escapeOne
  split
  · rw [List.cons_append, List.cons_append, List.nil_append, segmentLength_backslash]
    simp only [List.length_cons, List.length_nil]
    omega
  · rename_i hc
    obtain ⟨hbs, hq, hbr, -⟩ := plain_of_escapeCode_none b hc
    rw [List.cons_append, List.nil_append, segmentLength_cons_of_plain hq hbs hbr]
    simp only [List.length_cons, List.length_nil]
    omega

/-- The segment of a literal's written form runs up to its closing quote. -/
theorem segmentLength_escape (s : Bytes) (q : Bytes) :
    segmentLength (escape s ++ ascii '"' :: q) = (escape s).length := by
  induction s with
  | nil => exact segmentLength_quote q
  | cons b s ih =>
    rw [escape_cons, List.append_assoc, segmentLength_escapeOne, ih, List.length_append]

/-- A segment over a literal's written form closes at its quote and takes the written form as
    its text. -/
theorem segment_escape (opens closes : TokenKind) (n : Nesting) (s q : Bytes) :
    segment opens closes n (escape s ++ ascii '"' :: q) =
      (⟨closes, (escape s).length + 1, escape s⟩, n) := by
  simp +decide [segment, segmentLength_escape]

end Scan

/-! ## 4. The bytes of a literal -/

/-- A byte of the written form is never an LF, and it is NUL only where a NUL was written. -/
theorem mem_escape {s : Bytes} {x : UInt8} (hx : x ∈ escape s) : x ≠ lf ∧ (x = 0 → 0 ∈ s) := by
  obtain ⟨b, hb, hxb⟩ := List.mem_flatMap.mp hx
  unfold escapeOne at hxb
  split at hxb
  · rename_i c hc
    simp only [List.mem_cons, List.not_mem_nil, or_false] at hxb
    rcases hxb with rfl | rfl
    · exact ⟨by decide, fun h => absurd h (by decide)⟩
    · obtain ⟨h0, hlf⟩ := escapeCode_ne b x hc
      exact ⟨hlf, fun h => absurd h h0⟩
  · rename_i hc
    obtain rfl := List.mem_singleton.mp hxb
    exact ⟨(plain_of_escapeCode_none x hc).2.2.2, fun h => h ▸ hb⟩

/-- Reading bytes with no LF moves the column and leaves the line. -/
theorem Position.across_of_lf_not_mem {bs : Bytes} (h : lf ∉ bs) (p : Position) :
    p.across bs = ⟨p.pos + bs.length, p.line, p.column + bs.length⟩ := by
  induction bs generalizing p with
  | nil => rfl
  | cons b bs ih =>
    have hb : b ≠ lf := fun e => h (e ▸ List.mem_cons_self)
    have hstep : p.step b = ⟨p.pos + 1, p.line, p.column + 1⟩ := by
      simp [Position.step, hb]
    simp only [Position.across, List.foldl_cons] at ih ⊢
    rw [hstep, ih (fun e => h (List.mem_cons_of_mem b e))]
    simp only [List.length_cons, Position.mk.injEq, true_and]
    omega

/-- A literal of bytes without NUL has no NUL: the lexer reads all of it. -/
theorem beforeNul_literal {s : Bytes} (hs : ∀ b ∈ s, b ≠ 0) :
    (literal s).beforeNul = literal s := by
  refine List.takeWhile_eq_self_iff.mpr fun x hx => ?_
  simp only [literal, List.mem_cons, List.mem_append, List.not_mem_nil, or_false] at hx
  rcases hx with rfl | hx | rfl
  · decide
  · exact bne_iff_ne.mpr fun h => hs 0 ((mem_escape hx).2 h) rfl
  · decide

theorem lf_not_mem_literal (s : Bytes) : lf ∉ literal s := by
  intro h
  simp only [literal, List.mem_cons, List.mem_append, List.not_mem_nil, or_false] at h
  rcases h with h | h | h
  · exact absurd h (by decide)
  · exact (mem_escape h).1 rfl
  · exact absurd h (by decide)

/-! ## 5. Lexing a literal -/

namespace Lexer

open Scan

variable {s : Bytes}

/-- A quote before a literal's written form opens a string that closes at the next quote. -/
theorem scan_quote_literal (n : Nesting) (s q : Bytes) :
    scan n (ascii '"') (escape s ++ ascii '"' :: q) =
      (⟨.string, (escape s).length + 1, escape s⟩, n) := by
  rcases scan_cases n (ascii '"') (escape s ++ ascii '"' :: q) with ⟨h, -⟩ | ⟨-, h⟩ | ⟨h, -⟩
  · exact absurd h (by decide)
  · rw [h, segment_escape]
  · exact absurd rfl h

/-- The first token of a literal is the whole literal: the lexer then stands at its end, with
    nothing left. -/
theorem next_literal (hs : ∀ b ∈ s, b ≠ 0) :
    (ofSource (literal s)).next.1 =
      ⟨.string, escape s, ⟨placeholderFile, 1, 1⟩, ⟨0, (literal s).length⟩⟩ ∧
    (ofSource (literal s)).next.2.rest = [] ∧
    (ofSource (literal s)).next.2.here = Position.origin.across (literal s) ∧
    (ofSource (literal s)).next.2.filename = placeholderFile := by
  have hrest : (ofSource (literal s)).rest = ascii '"' :: (escape s ++ [ascii '"']) :=
    beforeNul_literal hs
  have hblank : blankLength false (ofSource (literal s)).rest = 0 := by rw [hrest]; rfl
  have hskip :
      (ofSource (literal s)).skipBlanks.rest = ascii '"' :: (escape s ++ [ascii '"']) := by
    rw [skipBlanks_rest, hblank, List.drop_zero, hrest]
  have hhere : (ofSource (literal s)).skipBlanks.here = .origin := by
    show Position.origin.across ((ofSource (literal s)).rest.take _) = _
    rw [hblank]
    rfl
  have hlen : (literal s).length = (escape s).length + 2 := by simp [literal]
  have hread := read_cons hskip
  rw [scan_quote_literal] at hread
  simp only [next, hread]
  refine ⟨?_, ?_, ?_, rfl⟩
  · have hfile : (ofSource (literal s)).skipBlanks.filename = placeholderFile := rfl
    simp [location, hhere, hfile, Position.origin, hlen]
  · rw [advance_rest, hskip]
    exact List.drop_eq_nil_of_le (by simp)
  · show Position.across _ (List.take _ _) = _
    rw [hhere, hskip, List.take_of_length_le (by simp)]
    rfl

/-- After the literal only `eof` is left, at the column after its closing quote. -/
theorem tokens_literal (hs : ∀ b ∈ s, b ≠ 0) :
    (ofSource (literal s)).tokens =
      [⟨.string, escape s, ⟨placeholderFile, 1, 1⟩, ⟨0, (literal s).length⟩⟩,
       ⟨.eof, [], ⟨placeholderFile, 1, (literal s).length + 1⟩, .empty (literal s).length⟩] := by
  obtain ⟨h1, hrest, hhere, hfile⟩ := next_literal hs
  rw [tokens_of_ne_eof (by simp [h1]), h1]
  -- after the closing quote nothing is left: the next token is `eof`
  have hskip : (ofSource (literal s)).next.2.skipBlanks.rest = [] := by
    rw [skipBlanks_rest, hrest]
    rfl
  have hend : (ofSource (literal s)).next.2.skipBlanks.here =
      ⟨(literal s).length, 1, (literal s).length + 1⟩ := by
    show Position.across _ (List.take _ _) = _
    rw [hrest, List.take_nil]
    show (ofSource (literal s)).next.2.here = _
    rw [hhere, Position.across_of_lf_not_mem (lf_not_mem_literal s)]
    simp [Position.origin, Nat.add_comm]
  have h2 : (ofSource (literal s)).next.2.next.1 =
      ⟨.eof, [], ⟨placeholderFile, 1, (literal s).length + 1⟩, .empty (literal s).length⟩ := by
    have hfile' : (ofSource (literal s)).next.2.skipBlanks.filename = placeholderFile := hfile
    rw [next, read_nil hskip]
    simp [location, hend, hfile']
  rw [tokens_of_eof (by rw [h2]), h2]

end Lexer

/-- **A string literal round trips.** For every byte string without NUL, the source made of a
    quote, its written form and a quote lexes to exactly one `string` token, whose text is the
    written form and whose span is the whole source, and then `eof` at the end; decoding the
    token's text gives the bytes back. -/
theorem string_literal_round_trip (s : Bytes) (hs : ∀ b ∈ s, b ≠ 0) :
    let source := ascii '"' :: (escape s ++ [ascii '"'])
    (Lexer.ofSource source).tokens =
      [⟨.string, escape s, ⟨placeholderFile, 1, 1⟩, ⟨0, source.length⟩⟩,
       ⟨.eof, [], ⟨placeholderFile, 1, source.length + 1⟩, .empty source.length⟩] ∧
    unescape (escape s) = s :=
  ⟨Lexer.tokens_literal hs, unescape_escape s⟩

/-- Quotes, braces, a backslash and an LF, all escaped, come back. -/
theorem string_literal_round_trip_escapes :
    let s := Bytes.ofString "a \"b\" \x7bc\x7d\\\n"
    (∀ b ∈ s, b ≠ 0) ∧
    let source := ascii '"' :: (escape s ++ [ascii '"'])
    ((Lexer.ofSource source).tokens =
      [⟨.string, escape s, ⟨placeholderFile, 1, 1⟩, ⟨0, source.length⟩⟩,
       ⟨.eof, [], ⟨placeholderFile, 1, source.length + 1⟩, .empty source.length⟩] ∧
    unescape (escape s) = s) :=
  ⟨by decide +kernel, string_literal_round_trip _ (by decide +kernel)⟩

end Frond
