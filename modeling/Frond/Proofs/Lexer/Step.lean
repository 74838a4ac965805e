import Frond.Lexer.Basic
import Mathlib.Data.FinEnum

/-!
# One call of `next`

What a single token of the lexer does, said once so that the theorems about whole runs never
unfold the scanner again.

* `blankLength_le`, `segmentLength_le`, `segment_stop`: the blank run and a segment's literal
  text lie inside what is left, and a segment's text stops at a quote, at a `{` or at the end;
* `segment_cases`: the three ways a string segment ends (unterminated, at an interpolation, at
  the closing quote), with the counters after each;
* `plain_text`, `plain_kind`, `plain_rbrace`: a plain token's text is the bytes it takes, its
  kind is never a segment kind or `eof`, and `}` alone is a brace;
* `scan_cases`: a lexeme resumes a string at a `}` that ends an interpolation, opens one at a
  quote, or is a plain token;
* `read_nil`, `read_cons`: the token `read` returns, its span and the lexer after it;
* `Lexer.after`, `getElem_tokens`: the lexer after `i` calls of `next`, and the `i`th token is
  what `next` returns there; `prefix_induction` carries an invariant along every prefix of a
  run;
* `InInput` with `inInput_ofSource`, `inInput_next`: the cursor never leaves the input.
-/

namespace Frond

open Scan
open Bytes (ascii lf)

/-! ## 1. Blanks and segments -/

namespace Scan

theorem blankLength_le (inComment : Bool) (r : Bytes) : blankLength inComment r ≤ r.length := by
  fun_induction blankLength inComment r <;> simp <;> omega

theorem segmentLength_le (r : Bytes) : segmentLength r ≤ r.length := by
  fun_induction segmentLength r <;> simp <;> omega

/-- A segment's literal text stops at a quote, at a `{` (one not right before a quote), or at
    the end of the input. -/
theorem segment_stop (r : Bytes) {b : UInt8} {q : Bytes}
    (h : r.drop (segmentLength r) = b :: q) : b = ascii '"' ∨ b = ascii '{' := by
  fun_induction segmentLength r with
  | case1 => simp at h
  | case2 c r hc => simp at h hc; grind
  | case3 => simp at h
  | case4 c d r' _ _ ih => exact ih (by simpa using h)
  | case5 c d tail _ _ _ hd => simp at h hd; grind
  | case6 c d tail _ _ hc _ => simp at h hc; grind
  | case7 c _ _ hc => simp at h hc; grind
  | case8 c r _ _ _ ih => exact ih (by simpa using h)

/-- **The three ends of a string segment.** Unterminated, it is an error that takes the rest of
    the input and leaves the counters alone; at a `{` it opens an interpolation; at the closing
    quote it closes the string. -/
theorem segment_cases (opens closes : TokenKind) (n : Nesting) (r : Bytes) :
    (r.drop (segmentLength r) = [] ∧
      segment opens closes n r = (⟨.error, segmentLength r, r.take (segmentLength r)⟩, n)) ∨
    (∃ q, r.drop (segmentLength r) = ascii '{' :: q ∧
      segment opens closes n r =
        (⟨opens, segmentLength r + 1, r.take (segmentLength r)⟩, ⟨n.depth + 1, 0⟩)) ∨
    (∃ q, r.drop (segmentLength r) = ascii '"' :: q ∧
      segment opens closes n r =
        (⟨closes, segmentLength r + 1, r.take (segmentLength r)⟩, n)) := by
  simp only [segment]
  split
  · rename_i h
    exact .inl ⟨h, rfl⟩
  · rename_i b q h
    rcases segment_stop r h with rfl | rfl
    · right; right
      exact ⟨q, h, by simp +decide⟩
    · right; left
      exact ⟨q, h, by simp⟩

/-- The lexeme of a segment does not depend on the counters it is handed. -/
theorem segment_lexeme (opens closes : TokenKind) (n n' : Nesting) (r : Bytes) :
    (segment opens closes n r).1 = (segment opens closes n' r).1 := by
  simp only [segment]
  split
  · rfl
  · split <;> rfl

/-! ## 2. Plain tokens -/

/-- The bytes that may start an operator of more than one byte. -/
def compoundBytes : List UInt8 :=
  [ascii '<', ascii '>', ascii '=', ascii '!', ascii '-', ascii '|', ascii '*', ascii '.']

/-- A byte that starts no operator of more than one byte is a token by itself, or none. -/
theorem operator_of_not_mem {b : UInt8} (hb : b ∉ compoundBytes) (r : Bytes) :
    operator b r = (single b).map fun k => (k, 0) := by
  simp only [compoundBytes, List.mem_cons, List.not_mem_nil, or_false, not_or] at hb
  obtain ⟨h1, h2, h3, h4, h5, h6, h7, h8⟩ := hb
  -- the dispatch tests the eight bytes in this order; rewriting each test away is linear,
  -- where splitting the whole chain is not
  unfold operator
  rw [if_neg (by simpa using h1), if_neg (by simpa using h2), if_neg (by simpa using h3),
    if_neg (by simpa using h4), if_neg (by simpa using h5), if_neg (by simpa using h6),
    if_neg (by simpa using h7), if_neg (by simpa using h8)]

theorem operator_lt (r : Bytes) : operator (ascii '<') r =
    some (if r.head? == some (ascii '-') then (.bind, 1)
      else if r.head? == some (ascii '=') then (.le, 1) else (.lt, 0)) := rfl

theorem operator_gt (r : Bytes) : operator (ascii '>') r =
    some (if r.head? == some (ascii '=') then (.ge, 1) else (.gt, 0)) := rfl

theorem operator_eq (r : Bytes) : operator (ascii '=') r =
    some (if r.head? == some (ascii '=') then (.eq, 1)
      else if r.head? == some (ascii '>') then (.fatArrow, 1) else (.assign, 0)) := rfl

theorem operator_bang (r : Bytes) : operator (ascii '!') r =
    some (if r.head? == some (ascii '=') then (.ne, 1) else (.error, 0)) := rfl

theorem operator_minus (r : Bytes) : operator (ascii '-') r =
    some (if r.head? == some (ascii '>') then (.arrow, 1) else (.minus, 0)) := rfl

theorem operator_bar (r : Bytes) : operator (ascii '|') r =
    some (if r.head? == some (ascii '>') then (.pipe, 1) else (.bar, 0)) := rfl

theorem operator_star (r : Bytes) : operator (ascii '*') r =
    some (if r.head? == some (ascii '*') then (.power, 1) else (.star, 0)) := rfl

theorem operator_dot (r : Bytes) : operator (ascii '.') r =
    if r.head? == some (ascii '.') then
      some (if (r.drop 1).head? == some (ascii '.') then (.ellipsis, 2)
        else if (r.drop 1).head? == some (ascii '=') then (.dotDotEq, 2) else (.dotDot, 1))
    else some (.dot, 0) := rfl

/-- The kinds a string segment can have, and `eof`: no plain token has one of them. -/
def segmentKinds : List TokenKind := [.eof, .string, .stringBegin, .stringMid, .stringEnd]

theorem single_kind : ∀ b : UInt8, ∀ k ∈ single b, k ∉ segmentKinds := by
  decide +kernel

theorem operator_kind {b : UInt8} {r : Bytes} {k : TokenKind} {e : Nat}
    (h : operator b r = some (k, e)) : k ∉ segmentKinds := by
  by_cases hb : b ∈ compoundBytes
  · simp only [compoundBytes, List.mem_cons, List.not_mem_nil, or_false] at hb
    rcases hb with rfl | rfl | rfl | rfl | rfl | rfl | rfl | rfl
    · rw [operator_lt] at h; split at h <;> [skip; split at h] <;> cases h <;> decide
    · rw [operator_gt] at h; split at h <;> cases h <;> decide
    · rw [operator_eq] at h; split at h <;> [skip; split at h] <;> cases h <;> decide
    · rw [operator_bang] at h; split at h <;> cases h <;> decide
    · rw [operator_minus] at h; split at h <;> cases h <;> decide
    · rw [operator_bar] at h; split at h <;> cases h <;> decide
    · rw [operator_star] at h; split at h <;> cases h <;> decide
    · rw [operator_dot] at h
      split at h
      · split at h <;> [skip; split at h] <;> cases h <;> decide
      · cases h; decide
  · rw [operator_of_not_mem hb] at h
    obtain ⟨k', hk', e⟩ := Option.map_eq_some_iff.mp h
    cases e
    exact single_kind b k hk'

theorem fromWord_kind (w : Bytes) : TokenKind.fromWord w ∉ segmentKinds := by
  unfold TokenKind.fromWord
  cases h : TokenKind.reserved.find? (·.word == w) with
  | none => decide
  | some k =>
    have hall : ∀ k ∈ TokenKind.reserved, k ∉ segmentKinds := by decide
    exact hall k (List.mem_of_find?_eq_some h)

theorem number_text (d : UInt8) (r : Bytes) : (number d r).text = d :: r.take (number d r).extra := by
  unfold number
  dsimp only
  split
  · rfl
  · split
    · split <;> rfl
    · rfl

theorem number_kind (d : UInt8) (r : Bytes) : (number d r).kind = .int ∨ (number d r).kind = .float := by
  unfold number
  dsimp only
  split
  · exact .inl rfl
  · split
    · split
      · exact .inr rfl
      · exact .inl rfl
    · exact .inl rfl

/-- A plain token's text is the bytes it takes: its first byte and `extra` more. -/
theorem plain_text (b : UInt8) (r : Bytes) : (plain b r).text = b :: r.take (plain b r).extra := by
  unfold plain
  split
  · exact number_text b r
  · split
    · unfold word
      dsimp only
      split <;> rfl
    · split <;> rfl

/-- **No plain token is a string segment or the end of input.** -/
theorem plain_kind (b : UInt8) (r : Bytes) : (plain b r).kind ∉ segmentKinds := by
  unfold plain
  split
  · rcases number_kind b r with h | h <;> rw [h] <;> decide
  · split
    · unfold word
      dsimp only
      split
      · show TokenKind.underscore ∉ segmentKinds
        decide
      · exact fromWord_kind _
    · split
      · rename_i k e h
        exact operator_kind h
      · show TokenKind.error ∉ segmentKinds
        decide

/-- A `}` that ends no interpolation is a closing brace. -/
theorem plain_rbrace (r : Bytes) : plain (ascii '}') r = ⟨.rBrace, 0, [ascii '}']⟩ := rfl

/-! ## 3. One lexeme -/

@[simp] theorem countBrace_depth (n : Nesting) (b : UInt8) : (countBrace n b).depth = n.depth := by
  unfold countBrace
  split
  · rfl
  · split
    · rfl
    · split <;> rfl

theorem countBrace_quote (n : Nesting) : countBrace n (ascii '"') = n := by
  unfold countBrace
  split <;> simp +decide

/-- **The three kinds of lexeme.** A `}` with an interpolation open and no plain brace open in
    it ends the interpolation and resumes the string; a quote opens a string; every other byte
    starts a plain token and moves only the brace counter. -/
theorem scan_cases (n : Nesting) (b : UInt8) (r : Bytes) :
    (b = ascii '}' ∧ 0 < n.depth ∧ n.braces = 0 ∧
      scan n b r = segment .stringMid .stringEnd ⟨n.depth - 1, 0⟩ r) ∨
    (b = ascii '"' ∧ scan n b r = segment .stringBegin .string n r) ∨
    (b ≠ ascii '"' ∧ ¬(b = ascii '}' ∧ 0 < n.depth ∧ n.braces = 0) ∧
      scan n b r = (plain b r, countBrace n b)) := by
  unfold scan
  by_cases hc : b = ascii '}' ∧ 0 < n.depth ∧ n.braces = 0
  · obtain ⟨rfl, hd, hb⟩ := hc
    left
    simp [hd, hb]
  · have hc' : ¬((b == ascii '}' && decide (n.depth > 0) && n.braces == 0) = true) := by
      simpa [and_assoc] using hc
    rw [if_neg hc']
    by_cases hq : b = ascii '"'
    · subst hq
      right; left
      simp [countBrace_quote]
    · right; right
      simp [hq, hc]

theorem segment_kind (opens closes : TokenKind) (n : Nesting) (r : Bytes) :
    (segment opens closes n r).1.kind = .error ∨ (segment opens closes n r).1.kind = opens ∨
      (segment opens closes n r).1.kind = closes := by
  rcases segment_cases opens closes n r with ⟨-, he⟩ | ⟨_, -, he⟩ | ⟨_, -, he⟩ <;> rw [he] <;> simp

theorem scan_kind_ne_eof (n : Nesting) (b : UInt8) (r : Bytes) : (scan n b r).1.kind ≠ .eof := by
  rcases scan_cases n b r with ⟨-, -, -, h⟩ | ⟨-, h⟩ | ⟨-, -, h⟩ <;> rw [h]
  · rcases segment_kind .stringMid .stringEnd ⟨n.depth - 1, 0⟩ r with h | h | h <;> rw [h] <;>
      decide
  · rcases segment_kind .stringBegin .string n r with h | h | h <;> rw [h] <;> decide
  · exact fun h => plain_kind b r (h ▸ List.mem_cons_self)

end Scan

/-! ## 4. Reading a token -/

namespace Lexer

@[simp] theorem advance_pos (l : Lexer) (k : Nat) :
    (l.advance k).here.pos = l.here.pos + min k l.rest.length := by
  simp [advance]

@[simp] theorem advance_nesting (l : Lexer) (k : Nat) : (l.advance k).nesting = l.nesting := rfl

@[simp] theorem advance_input (l : Lexer) (k : Nat) : (l.advance k).input = l.input := rfl

@[simp] theorem skipBlanks_rest (l : Lexer) :
    l.skipBlanks.rest = l.rest.drop (blankLength false l.rest) := rfl

@[simp] theorem skipBlanks_pos (l : Lexer) :
    l.skipBlanks.here.pos = l.here.pos + blankLength false l.rest := by
  simp [skipBlanks, Nat.min_eq_left (blankLength_le false l.rest)]

@[simp] theorem skipBlanks_nesting (l : Lexer) : l.skipBlanks.nesting = l.nesting := rfl

@[simp] theorem skipBlanks_input (l : Lexer) : l.skipBlanks.input = l.input := rfl

/-- At the end of the input `read` returns `eof`, empty at the cursor, and stays. -/
theorem read_nil {l : Lexer} (h : l.rest = []) :
    l.read = (⟨.eof, [], l.location, .empty l.here.pos⟩, l) := by
  unfold read
  split
  · rfl
  · rename_i b r h'
    rw [h] at h'
    cases h'

/-- Otherwise `read` scans one lexeme from the next byte: the token spans the bytes the lexeme
    takes (fewer only where the input ends first), and the lexer moves past them with the
    counters the lexeme leaves. -/
theorem read_cons {l : Lexer} {b : UInt8} {r : Bytes} (h : l.rest = b :: r) :
    l.read =
      (⟨(scan l.nesting b r).1.kind, (scan l.nesting b r).1.text, l.location,
        ⟨l.here.pos, l.here.pos + min ((scan l.nesting b r).1.extra + 1) (r.length + 1)⟩⟩,
       { l.advance ((scan l.nesting b r).1.extra + 1) with nesting := (scan l.nesting b r).2 }) := by
  unfold read
  split
  · rename_i h'
    rw [h] at h'
    cases h'
  · rename_i b' r' h'
    rw [h] at h'
    obtain ⟨rfl, rfl⟩ := List.cons.inj h'
    simp [h]

/-- `next` keeps the source: only the cursor and the counters move. -/
@[simp] theorem next_input (l : Lexer) : l.next.2.input = l.input := by
  show l.skipBlanks.read.2.input = l.input
  cases hr : l.skipBlanks.rest with
  | nil => rw [read_nil hr]; rfl
  | cons b r => rw [read_cons hr]; rfl

/-! ## 5. Runs -/

theorem tokens_of_eof {l : Lexer} (h : l.next.1.kind = .eof) : l.tokens = [l.next.1] := by
  rw [tokens]
  split
  rename_i t l' hn
  have ht : l.next.1 = t := by rw [hn]
  rw [ht] at h ⊢
  rw [dif_pos h]

theorem tokens_of_ne_eof {l : Lexer} (h : l.next.1.kind ≠ .eof) :
    l.tokens = l.next.1 :: l.next.2.tokens := by
  rw [tokens]
  split
  rename_i t l' hn
  have ht : l.next.1 = t := by rw [hn]
  have hl : l.next.2 = l' := by rw [hn]
  rw [ht] at h
  rw [ht, hl, dif_neg h]

/-- The lexer after `i` calls of `next`. -/
def after (l : Lexer) : Nat → Lexer
  | 0 => l
  | i + 1 => l.next.2.after i

/-- **The `i`th token is what `next` returns after `i` calls.** -/
theorem getElem_tokens (l : Lexer) (i : Nat) (h : i < l.tokens.length) :
    l.tokens[i] = ((l.after i).next).1 := by
  induction i generalizing l with
  | zero =>
    by_cases hk : l.next.1.kind = .eof
    · simp [tokens_of_eof hk, after]
    · simp [tokens_of_ne_eof hk, after]
  | succ i ih =>
    by_cases hk : l.next.1.kind = .eof
    · simp [tokens_of_eof hk] at h
    · have h' : i < l.next.2.tokens.length := by
        rw [tokens_of_ne_eof hk] at h
        simpa using h
      simp only [tokens_of_ne_eof hk, List.getElem_cons_succ, after]
      exact ih l.next.2 h'

theorem length_tokens_pos (l : Lexer) : 0 < l.tokens.length := by
  by_cases hk : l.next.1.kind = .eof
  · simp [tokens_of_eof hk]
  · simp [tokens_of_ne_eof hk]

theorem after_succ_next (l : Lexer) (i : Nat) : l.after (i + 1) = (l.after i).next.2 := by
  induction i generalizing l with
  | zero => rfl
  | succ i ih => exact ih l.next.2

@[simp] theorem input_ofSource (source : Bytes) : (ofSource source).input = source.beforeNul := rfl

@[simp] theorem after_input (l : Lexer) (i : Nat) : (l.after i).input = l.input := by
  induction i generalizing l with
  | zero => rfl
  | succ i ih => simp [after, ih]

theorem take_succ_tokens (l : Lexer) {i : Nat} (h : i < l.tokens.length) :
    l.tokens.take (i + 1) = l.tokens.take i ++ [(l.after i).next.1] := by
  rw [List.take_succ_eq_append_getElem h, getElem_tokens]

/-- **Induction over a run.** What holds of the lexer before any token, and is kept by each
    token the run reads, holds after every prefix of the run: of the lexer after `i` calls of
    `next` together with the first `i` tokens. -/
theorem prefix_induction (l : Lexer) (P : Lexer → List Token → Prop) (start : P l [])
    (step : ∀ i < l.tokens.length, P (l.after i) (l.tokens.take i) →
      P (l.after i).next.2 (l.tokens.take i ++ [(l.after i).next.1])) :
    ∀ i ≤ l.tokens.length, P (l.after i) (l.tokens.take i) := by
  intro i hi
  induction i with
  | zero => exact start
  | succ i ih =>
    have hi' : i < l.tokens.length := by omega
    rw [after_succ_next, take_succ_tokens l hi']
    exact step i hi' (ih hi'.le)

/-! ## 6. The cursor stays inside the input -/

/-- The cursor stands inside the input, or at its end. -/
def InInput (l : Lexer) : Prop := l.here.pos ≤ l.input.length

theorem inInput_ofSource (source : Bytes) : (ofSource source).InInput := by
  simp [InInput, ofSource, Position.origin]

theorem rest_length (l : Lexer) : l.rest.length = l.input.length - l.here.pos := by
  rw [l.rest_eq, List.length_drop]
  rfl

theorem inInput_advance {l : Lexer} (h : l.InInput) (k : Nat) : (l.advance k).InInput := by
  have := rest_length l
  simp only [InInput, advance_pos, advance_input] at h ⊢
  omega

theorem inInput_next {l : Lexer} (h : l.InInput) : l.next.2.InInput := by
  have hs : l.skipBlanks.InInput := inInput_advance h _
  show l.skipBlanks.read.2.InInput
  cases hr : l.skipBlanks.rest with
  | nil => rw [read_nil hr]; exact hs
  | cons b r =>
    rw [read_cons hr]
    exact inInput_advance hs _

theorem inInput_after {l : Lexer} (h : l.InInput) (i : Nat) : (l.after i).InInput := by
  induction i generalizing l with
  | zero => exact h
  | succ i ih => exact ih (inInput_next h)

end Lexer

end Frond
