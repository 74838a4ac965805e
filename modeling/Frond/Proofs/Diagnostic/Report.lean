import Frond.TokenStream
import Frond.Proofs.Lexer.Restore

/-!
# Reporting the error tokens

The lexer never fails: a byte that starts no token, or a string segment that runs into the end
of the input, becomes an `error` token, and a token stream reports each error token as a
diagnostic. `Diagnostic.ofToken?` tells the two kinds of error apart by the byte the token
starts on, not by the way the lexer made it. This module shows that the byte always tells
right, so the stream's diagnostics are the ones the lexer's paths call for.

* `Lexer.unterminated`: the lexer stands on a quote, or on a `}` that closes an interpolation,
  and the string segment it opens there runs into the end of the input.
* `Lexer.errorReport`: the diagnostic that the token `next` returns calls for, by the way the
  lexer made it.
* `plain_error`, `scan_error`: a lexeme is an error only as an unterminated segment, or as one
  byte that is neither a quote nor a `}`.
* `next_error_cases`: so is every error token, and its first byte is in the source.
* `ofToken?_next`: the diagnostic of every token the lexer returns is the one its path calls for.
* `tokenize_reports_errors`: a token stream holds the lexer's tokens, one diagnostic per error
  token in token order, and fails exactly when there is an error token.
-/

namespace Frond

open Scan
open Bytes (ascii)

/-! ## 1. Error lexemes -/

namespace Scan

theorem fromWord_ne_error (w : Bytes) : TokenKind.fromWord w ≠ .error := by
  unfold TokenKind.fromWord
  cases h : TokenKind.reserved.find? (·.word == w) with
  | none => decide
  | some k =>
    have hall : ∀ k ∈ TokenKind.reserved, k ≠ .error := by decide
    exact hall k (List.mem_of_find?_eq_some h)

/-- An operator that is an error is a lone `!`, or a byte that starts no token: it takes no byte
    after the first. -/
theorem operator_error {b : UInt8} {r : Bytes} {e : Nat} (h : operator b r = some (.error, e)) :
    e = 0 := by
  by_cases hb : b ∈ compoundBytes
  · simp only [compoundBytes, List.mem_cons, List.not_mem_nil, or_false] at hb
    rcases hb with rfl | rfl | rfl | rfl | rfl | rfl | rfl | rfl
    · rw [operator_lt] at h; split at h <;> [skip; split at h] <;> cases h
    · rw [operator_gt] at h; split at h <;> cases h
    · rw [operator_eq] at h; split at h <;> [skip; split at h] <;> cases h
    · rw [operator_bang] at h; split at h <;> cases h; rfl
    · rw [operator_minus] at h; split at h <;> cases h
    · rw [operator_bar] at h; split at h <;> cases h
    · rw [operator_star] at h; split at h <;> cases h
    · rw [operator_dot] at h
      split at h
      · split at h <;> [skip; split at h] <;> cases h
      · cases h
  · rw [operator_of_not_mem hb] at h
    obtain ⟨k, -, he⟩ := Option.map_eq_some_iff.mp h
    cases he
    rfl

/-- **A plain error is one byte.** A plain token is an error only where its byte starts no
    token: it takes that byte alone, and the byte is no `}`, which is a brace by itself. -/
theorem plain_error {b : UInt8} {r : Bytes} (h : (plain b r).kind = .error) :
    (plain b r).extra = 0 ∧ b ≠ ascii '}' := by
  refine ⟨?_, fun hb => ?_⟩
  · unfold plain at h ⊢
    by_cases hd : isDigit b
    · rw [if_pos hd] at h
      rcases number_kind b r with hk | hk <;> rw [hk] at h <;> cases h
    rw [if_neg hd] at h ⊢
    by_cases hi : isIdentStart b
    · rw [if_pos hi] at h
      unfold word at h
      dsimp only at h
      split at h
      · cases h
      · exact absurd h (fromWord_ne_error _)
    rw [if_neg hi] at h ⊢
    -- what is left is an operator, and the only operator that is an error is one byte
    cases ho : operator b r with
    | none => rfl
    | some p =>
      obtain ⟨k, e⟩ := p
      simp only [ho] at h ⊢
      cases h
      exact operator_error ho
  · subst hb
    rw [plain_rbrace] at h
    cases h

/-- **The two kinds of error lexeme.** A lexeme is an error exactly where a string segment,
    opened at a quote or at a `}` that closes an interpolation, runs into the end of the input;
    or where its byte, neither a quote nor a `}`, starts no token, and then it is that byte
    alone. -/
theorem scan_error {n : Nesting} {b : UInt8} {r : Bytes} (h : (scan n b r).1.kind = .error) :
    ((b = ascii '"' ∨ (b = ascii '}' ∧ 0 < n.depth ∧ n.braces = 0)) ∧
        r.drop (segmentLength r) = []) ∨
      (b ≠ ascii '"' ∧ ¬(b = ascii '}' ∧ 0 < n.depth ∧ n.braces = 0) ∧ b ≠ ascii '}' ∧
        (scan n b r).1 = ⟨.error, 0, [b]⟩) := by
  rcases scan_cases n b r with ⟨rfl, hd, hb, hs⟩ | ⟨rfl, hs⟩ | ⟨hq, hc, hs⟩ <;> rw [hs] at h ⊢
  · rcases segment_cases .stringMid .stringEnd ⟨n.depth - 1, 0⟩ r with
      ⟨hend, -⟩ | ⟨q, -, he⟩ | ⟨q, -, he⟩
    · exact .inl ⟨.inr ⟨rfl, hd, hb⟩, hend⟩
    · rw [he] at h; cases h
    · rw [he] at h; cases h
  · rcases segment_cases .stringBegin .string n r with ⟨hend, -⟩ | ⟨q, -, he⟩ | ⟨q, -, he⟩
    · exact .inl ⟨.inl rfl, hend⟩
    · rw [he] at h; cases h
    · rw [he] at h; cases h
  · obtain ⟨hextra, hbrace⟩ := plain_error h
    refine .inr ⟨hq, hc, hbrace, ?_⟩
    have htext := plain_text b r
    rw [hextra, List.take_zero] at htext
    cases hp : plain b r
    simp only [hp] at h hextra htext
    rw [h, hextra, htext]

/-- A segment opened at a quote, or at a `}` that closes an interpolation, that runs into the
    end of the input is an error. -/
theorem scan_unterminated {n : Nesting} {b : UInt8} {r : Bytes}
    (hb : b = ascii '"' ∨ (b = ascii '}' ∧ 0 < n.depth ∧ n.braces = 0))
    (hend : r.drop (segmentLength r) = []) : (scan n b r).1.kind = .error := by
  rcases scan_cases n b r with ⟨-, -, -, hs⟩ | ⟨-, hs⟩ | ⟨hq, hc, -⟩
  · rcases segment_cases .stringMid .stringEnd ⟨n.depth - 1, 0⟩ r with ⟨-, he⟩ | ⟨q, hq, -⟩ |
      ⟨q, hq, -⟩ <;> simp_all
  · rcases segment_cases .stringBegin .string n r with ⟨-, he⟩ | ⟨q, hq, -⟩ | ⟨q, hq, -⟩ <;>
      simp_all
  · exact absurd hb (by tauto)

end Scan

/-! ## 2. The error token `next` returns -/

namespace Lexer

/-- The token `next` returns is a string segment left unterminated: after the blanks the lexer
    stands on a quote, or on a `}` that closes an interpolation (one is open, and no plain brace
    is open in it), and no quote or `{` ends the segment before the input does. -/
def unterminated (l : Lexer) : Bool :=
  match l.skipBlanks.rest with
  | [] => false
  | b :: r =>
    (b == ascii '"' || (b == ascii '}' && 0 < l.nesting.depth && l.nesting.braces == 0)) &&
      (r.drop (segmentLength r)).isEmpty

/-- The diagnostic that the token `next` returns calls for, by the way the lexer made it: none
    for a token that is no error, `E0002` for an unterminated string segment, and `E0001` with
    its byte for any other error token. -/
def errorReport (l : Lexer) : Option Diagnostic :=
  let t := l.next.1
  if t.kind ≠ .error then none
  else if l.unterminated then
    some ((Diagnostic.error "unterminated string literal" t).withCode "E0002")
  else
    some ((Diagnostic.error ("unexpected character '" ++ Bytes.escapeByte (t.text.headD 0) ++ "'")
      t).withCode "E0001")

/-- The byte ahead of the cursor is the source's byte at the cursor. -/
theorem source_getElem?_of_rest {l : Lexer} {b : UInt8} {r : Bytes} (h : l.rest = b :: r) :
    l.source[l.here.pos]? = some b := by
  have hinput : l.input[l.here.pos]? = some b := by
    have h0 : (l.input.drop l.here.pos)[0]? = some b := by
      rw [show l.input.drop l.here.pos = l.rest from l.rest_eq.symm, h]
      rfl
    simpa using h0
  have hlt : l.here.pos < l.input.length := (List.getElem?_eq_some_iff.mp hinput).1
  -- the input is the source up to its first NUL
  have hsplit : l.source = l.input ++ l.source.dropWhile (· != 0) :=
    List.takeWhile_append_dropWhile.symm
  rw [hsplit, List.getElem?_append_left hlt]
  exact hinput

/-- **The two kinds of error token.** An error token that `next` returns starts on a byte of the
    source. It is an unterminated string segment exactly when that byte is a quote or a `}`;
    otherwise it covers that one byte and carries it as its text. -/
theorem next_error_cases (l : Lexer) (h : l.next.1.kind = .error) :
    ∃ b, l.source[l.next.1.span.start]? = some b ∧
      (l.unterminated = true ↔ b = ascii '"' ∨ b = ascii '}') ∧
      (l.unterminated = false →
        l.next.1.text = [b] ∧ l.next.1.span.stop = l.next.1.span.start + 1) := by
  rw [show l.next = l.skipBlanks.read from rfl] at h ⊢
  cases hr : l.skipBlanks.rest with
  | nil =>
    rw [read_nil hr] at h
    cases h
  | cons b r =>
    have hb : l.source[l.skipBlanks.here.pos]? = some b := source_getElem?_of_rest hr
    rw [read_cons hr] at h ⊢
    simp only [skipBlanks_nesting] at h ⊢
    have hu : l.unterminated = ((b == ascii '"' ||
        (b == ascii '}' && 0 < l.nesting.depth && l.nesting.braces == 0)) &&
        (r.drop (segmentLength r)).isEmpty) := by
      simp only [unterminated, hr]
    refine ⟨b, hb, ?_⟩
    rcases scan_error h with ⟨hopen, hend⟩ | ⟨hq, hc, hbrace, hs⟩
    · have ht : l.unterminated = true := by
        rw [hu, hend]
        rcases hopen with rfl | ⟨rfl, hd, hbr⟩ <;> simp_all
      exact ⟨⟨fun _ => hopen.imp_right And.left, fun _ => ht⟩, fun hf => by simp [ht] at hf⟩
    · have hf : l.unterminated = false := by
        rw [hu]
        simp [hq, hbrace]
      refine ⟨⟨fun ht => by simp [hf] at ht, fun hq' => by tauto⟩, fun _ => ?_⟩
      simp [hs]

/-- **The byte tells the error right.** The diagnostic of the token `next` returns, read off the
    byte it starts on in the source, is the one the lexer's path calls for. -/
theorem ofToken?_next (l : Lexer) : Diagnostic.ofToken? l.next.1 l.source = l.errorReport := by
  by_cases hk : l.next.1.kind = .error
  · obtain ⟨b, hb, hiff, hone⟩ := next_error_cases l hk
    cases hu : l.unterminated
    · obtain ⟨htext, -⟩ := hone hu
      have hq : ¬(b = ascii '"' ∨ b = ascii '}') := fun h => by simp [hiff.mpr h] at hu
      simp only [Diagnostic.ofToken?, errorReport, hk, hb, hu, htext, Diagnostic.errorAt]
      simp at hq
      simp [hq]
    · have hq : b = ascii '"' ∨ b = ascii '}' := hiff.mp hu
      simp only [Diagnostic.ofToken?, errorReport, hk, hb, hu, Diagnostic.errorAt]
      rcases hq with rfl | rfl <;> simp
  · simp [Diagnostic.ofToken?, errorReport, hk]

/-- A run's tokens are what `next` returns after each number of calls. -/
theorem tokens_eq_map_after (l : Lexer) :
    l.tokens = (List.range l.tokens.length).map fun i => (l.after i).next.1 := by
  apply List.ext_getElem
  · simp
  · intro i h₁ h₂
    rw [List.getElem_map, List.getElem_range, getElem_tokens l i h₁]

end Lexer

/-! ## 3. The token stream -/

namespace Diagnostic

/-- Only an error token has a diagnostic, and it is an error. -/
theorem ofToken?_eq_some {t : Token} {source : Bytes} {d : Diagnostic}
    (h : ofToken? t source = some d) : t.kind = .error ∧ d.isError = true := by
  unfold ofToken? at h
  split at h
  · rename_i hk
    cases h
    exact ⟨by simpa using hk, rfl⟩
  · cases h

theorem ofToken?_isSome (t : Token) (source : Bytes) :
    (ofToken? t source).isSome = (t.kind == .error) := by
  unfold ofToken?
  split <;> simp_all

end Diagnostic

namespace TokenStream

/-- The stream has an error exactly when some token is an error token. -/
theorem hasErrors_tokenize (filename source : Bytes) :
    (tokenize filename source).hasErrors =
      ((Lexer.ofSource source).withFilename filename).tokens.any (·.kind == .error) := by
  simp only [hasErrors, tokenize, List.any_filterMap]
  refine List.any_congr rfl fun t => ?_
  cases hd : Diagnostic.ofToken? t source with
  | none =>
    have := Diagnostic.ofToken?_isSome t source
    rw [hd] at this
    simpa using this.symm
  | some d =>
    obtain ⟨hk, he⟩ := Diagnostic.ofToken?_eq_some hd
    simp [hk, he]

end TokenStream

/-- **Diagnostics agree with the lexer's error paths.** For every source and file name, the token
    stream holds exactly the lexer's tokens up to the first `eof`, and its diagnostics are, in
    token order, the reports the error tokens call for (`Lexer.errorReport`): `E0002` for an
    unterminated string segment and `E0001` with its byte for any other, each at the token's
    file, line, column and span. Every error token starts on a byte of the source (so no
    diagnostic speaks of the end of input); it is an unterminated segment exactly when that
    byte is a quote or a `}`, and otherwise covers that one byte. The stream has errors, and
    fails with its diagnostics, exactly when some token is an error token. -/
theorem tokenize_reports_errors (filename source : Bytes) :
    let l := (Lexer.ofSource source).withFilename filename
    let s := TokenStream.tokenize filename source
    s.tokens = l.tokens ∧
    s.diagnostics = (List.range l.tokens.length).filterMap (fun i => (l.after i).errorReport) ∧
    (∀ i (h : i < l.tokens.length), l.tokens[i].kind = .error →
      ∃ b, source[l.tokens[i].span.start]? = some b ∧
        ((l.after i).unterminated = true ↔ b = ascii '"' ∨ b = ascii '}') ∧
        ((l.after i).unterminated = false →
          l.tokens[i].text = [b] ∧ l.tokens[i].span.stop = l.tokens[i].span.start + 1)) ∧
    s.hasErrors = l.tokens.any (·.kind == .error) ∧
    s.toResult = if l.tokens.any (·.kind == .error) then .error (.lex s.diagnostics) else .ok s := by
  intro l s
  -- every lexer of the run keeps the source, so each token's diagnostic is read off it
  have hsource : ∀ i, (l.after i).source = source := fun i => (Lexer.after_source_filename l i).1
  have hdiag : s.diagnostics =
      (List.range l.tokens.length).filterMap (fun i => (l.after i).errorReport) := by
    show l.tokens.filterMap (Diagnostic.ofToken? · source) = _
    conv_lhs => rw [Lexer.tokens_eq_map_after l]
    rw [List.filterMap_map]
    apply List.filterMap_congr
    intro i _
    simp only [Function.comp_apply]
    rw [← Lexer.ofToken?_next, hsource]
  have herrors := TokenStream.hasErrors_tokenize filename source
  refine ⟨rfl, hdiag, fun i hi hk => ?_, herrors, ?_⟩
  · rw [Lexer.getElem_tokens l i hi] at hk ⊢
    have := Lexer.next_error_cases (l.after i) hk
    rwa [hsource] at this
  · show (if s.hasErrors then _ else _) = _
    rw [herrors]

/- A byte that starts no token, then a string left open. -/
example : (TokenStream.tokenize placeholderFile (Bytes.ofString "x = $ \"ab")).diagnostics.map
    Diagnostic.display = ["<input>:1:5: error[E0001]: unexpected character '$'",
      "<input>:1:7: error[E0002]: unterminated string literal"] := by
  decide +kernel

end Frond
