import Frond.Proofs.Lexer.Step

/-!
# The tokens cut the input

Read left to right, the tokens of a source cut its input (the source before its first NUL)
into pieces that do not overlap: blanks and comments, which no token covers, and the tokens,
each covering at least one byte and carrying its text, up to one `eof` at the very end.

* `Skipped`: the bytes between two tokens -- blanks, and `#` comments that end right before an
  LF; only where the input ends may a comment run to the end;
* `Carries`: how a token's text sits in the input -- a string segment carries the bytes strictly
  between its delimiters, an unterminated segment the bytes after its opening byte, every other
  token the bytes of its span;
* `Segments src p ts`: the tokens `ts` cut `src` from offset `p` on;
* `skipped_blanks`: the blanks `next` passes over are `Skipped`;
* `segments_next`: one call of `next` cuts off the blanks and one token;
* **`tokens_segment_input`**: the tokens of every source cut its input, and there are at most
  one more of them than the input has bytes.
-/

namespace Frond

open Scan
open Bytes (ascii lf)

/-! ## 1. The pieces -/

/-- The bytes between two tokens: blanks (space, tab, CR, LF) and `#` comments. A comment ends
    right before an LF; only at the end of the input (`atEnd`) may it run to the end instead. -/
inductive Skipped : (atEnd : Bool) → Bytes → Prop
  | nil {atEnd : Bool} : Skipped atEnd []
  | blank {atEnd : Bool} {b : UInt8} {r : Bytes} : b ∈ [ascii ' ', ascii '\t', ascii '\r', lf] →
      Skipped atEnd r → Skipped atEnd (b :: r)
  | comment {atEnd : Bool} {body r : Bytes} : lf ∉ body → Skipped atEnd (lf :: r) →
      Skipped atEnd (ascii '#' :: (body ++ lf :: r))
  | final {body : Bytes} : lf ∉ body → Skipped true (ascii '#' :: body)

/-- The bytes a string segment of this kind opens and closes with: a string runs from quote to
    quote, and an interpolation is entered at a `{` and left at a `}`. -/
def TokenKind.delimiters : TokenKind → Option (UInt8 × UInt8)
  | .string => some (ascii '"', ascii '"')
  | .stringBegin => some (ascii '"', ascii '{')
  | .stringMid => some (ascii '}', ascii '{')
  | .stringEnd => some (ascii '}', ascii '"')
  | _ => none

/-- How a token's text sits in the input `src`. -/
inductive Carries (src : Bytes) (t : Token) : Prop
  /-- A string segment spans its two delimiters and carries the bytes strictly between. -/
  | segment {o e : UInt8} : t.kind.delimiters = some (o, e) → src[t.span.start]? = some o →
      src[t.span.stop - 1]? = some e → t.span.start + 2 ≤ t.span.stop →
      t.text = src.slice (t.span.start + 1) (t.span.stop - 1) → Carries src t
  /-- An unterminated segment is an error from its opening quote or `}` to the end of the
      input, and carries the bytes after that opening byte. -/
  | unterminated : t.kind = .error →
      (src[t.span.start]? = some (ascii '"') ∨ src[t.span.start]? = some (ascii '}')) →
      t.span.stop = src.length → t.text = src.slice (t.span.start + 1) src.length →
      Carries src t
  /-- Every other token carries the bytes of its span. -/
  | plain : t.kind.delimiters = none →
      ¬(t.kind = .error ∧ (src[t.span.start]? = some (ascii '"') ∨
        src[t.span.start]? = some (ascii '}'))) →
      t.text = src.slice t.span.start t.span.stop → Carries src t

/-- `Segments src p ts`: from offset `p` on, the tokens `ts` cut the input `src`. Each token but
    the last starts after skipped bytes only, covers at least one byte of `src` and carries its
    text; the next piece starts where it stops. The last token is the only `eof`, empty at the
    end. -/
inductive Segments (src : Bytes) : Nat → List Token → Prop
  | eof {p : Nat} {t : Token} : p ≤ src.length → Skipped true (src.slice p src.length) →
      t.kind = .eof → t.span = .empty src.length → Carries src t → Segments src p [t]
  | token {p : Nat} {t : Token} {ts : List Token} : p ≤ t.span.start →
      Skipped false (src.slice p t.span.start) → t.kind ≠ .eof →
      t.span.start < t.span.stop → t.span.stop ≤ src.length → Carries src t →
      Segments src t.span.stop ts → Segments src p (t :: ts)

/-- A cut from offset `p` has at most one token per byte left, and the `eof`. -/
theorem Segments.length_le {src : Bytes} {p : Nat} {ts : List Token} (h : Segments src p ts) :
    ts.length + p ≤ src.length + 1 := by
  induction h with
  | eof hp => simp; omega
  | token hp _ _ hlt _ _ _ ih => simp; omega

/-! ## 2. Blanks -/

/-- A comment's body may take one more byte in front, if it is not an LF. -/
theorem Skipped.comment_cons {e : Bool} {b : UInt8} {w : Bytes} (hb : b ≠ lf)
    (h : Skipped e (ascii '#' :: w)) : Skipped e (ascii '#' :: b :: w) := by
  cases h with
  | comment hl hr => exact @Skipped.comment e (b :: _) _ (by simp [Ne.symm hb, hl]) hr
  | final hl => exact .final (by simp [Ne.symm hb, hl])
  | blank hm _ => simp +decide at hm

/-- The blank run from either state of the scanner, with the `#` that opened the comment put
    back in front when it starts inside one. -/
theorem skipped_blankLength (inComment : Bool) (r : Bytes) :
    Skipped (r.drop (blankLength inComment r)).isEmpty
      ((if inComment then [ascii '#'] else []) ++ r.take (blankLength inComment r)) := by
  fun_induction blankLength inComment r with
  | case1 c =>
    cases c
    · exact .nil
    · exact .final (by simp)
  | case2 c b r hc ih =>
    -- inside a comment, a byte other than LF lengthens the comment
    simp only [Bool.and_eq_true, bne_iff_ne, ne_eq] at hc
    obtain ⟨rfl, hb⟩ := hc
    simpa using ih.comment_cons hb
  | case3 c b r hc hb ih =>
    cases c
    · simpa using Skipped.blank (by simpa [Scan.isBlank, or_assoc] using hb) ih
    · -- an LF ends the comment and is itself a blank
      have hlf : b = lf := by simpa using hc
      subst hlf
      simpa using @Skipped.comment _ [] _ (by simp) (.blank (by simp) ih)
  | case4 c b r hc hb hh ih =>
    have hc' : c = false := by
      cases c
      · rfl
      · simp only [Bool.true_and, bne_iff_ne, ne_eq, Decidable.not_not] at hc
        subst hc
        simp [Scan.isBlank] at hb
    subst hc'
    simp only [beq_iff_eq] at hh
    subst hh
    simpa using ih
  | case5 c b r hc hb _ =>
    have hc' : c = false := by
      cases c
      · rfl
      · simp only [Bool.true_and, bne_iff_ne, ne_eq, Decidable.not_not] at hc
        subst hc
        simp [Scan.isBlank] at hb
    subst hc'
    exact .nil

/-- **The blanks `next` passes over are skipped bytes**, and a comment among them runs to an
    LF unless the input ends with it. -/
theorem skipped_blanks (r : Bytes) :
    Skipped (r.drop (blankLength false r)).isEmpty (r.take (blankLength false r)) := by
  simpa using skipped_blankLength false r

/-! ## 3. The input around the cursor -/

section Cursor

variable {src x : Bytes} {p : Nat}

theorem getElem?_of_drop (h : src.drop p = x) (i : Nat) : src[p + i]? = x[i]? := by
  rw [← h, List.getElem?_drop]

theorem length_of_drop (h : src.drop p = x) (hx : x ≠ []) : src.length = p + x.length := by
  have hp : p < src.length := by
    by_contra hp
    exact hx (h ▸ List.drop_eq_nil_of_le (by omega))
  rw [← h, List.length_drop]
  omega

theorem slice_of_drop (h : src.drop p = x) {i j : Nat} (hij : i ≤ j) (hj : p + j ≤ src.length) :
    src.slice (p + i) (p + j) = (x.drop i).take (j - i) := by
  rw [Bytes.slice_of_le (by omega) hj, ← h, List.drop_drop, Nat.add_sub_add_left]

theorem slice_self_of_drop (h : src.drop p = x) {j : Nat} (hj : p + j ≤ src.length) :
    src.slice p (p + j) = x.take j := by
  simpa using slice_of_drop h (Nat.zero_le j) hj

theorem getElem?_drop_self {r q : Bytes} {n : Nat} {b : UInt8} (h : r.drop n = b :: q) :
    r[n]? = some b := by
  have := @List.getElem?_drop _ r n 0
  rw [h] at this
  simpa using this.symm

end Cursor

/-! ## 4. Each lexeme carries its text -/

theorem delimiters_eq_none {k : TokenKind} (hk : k ∉ Scan.segmentKinds) :
    k.delimiters = none := by
  revert hk
  cases k <;> decide

/-- A segment scanned after its opening byte `o` carries the bytes strictly inside it, or, left
    unterminated, everything after `o`. -/
theorem carries_segment {src r : Bytes} {p : Nat} {o : UInt8} (h : src.drop p = o :: r)
    {opens closes : TokenKind} (hopen : opens.delimiters = some (o, ascii '{'))
    (hclose : closes.delimiters = some (o, ascii '"')) (ho : o = ascii '"' ∨ o = ascii '}')
    (n : Nesting) (loc : Location) :
    Carries src ⟨(segment opens closes n r).1.kind, (segment opens closes n r).1.text, loc,
      ⟨p, p + min ((segment opens closes n r).1.extra + 1) (r.length + 1)⟩⟩ := by
  have hc : src.length = p + (r.length + 1) := by simpa using length_of_drop h (by simp)
  have h0 : src[p]? = some o := by simpa using getElem?_of_drop h 0
  have hlen := segmentLength_le r
  -- the text is the `segmentLength r` bytes after the opening one
  have htext : src.slice (p + 1) (p + (segmentLength r + 1)) = r.take (segmentLength r) := by
    rw [slice_of_drop h (by omega) (by omega)]
    simp
  rcases segment_cases opens closes n r with ⟨hd, he⟩ | ⟨q, hd, he⟩ | ⟨q, hd, he⟩
  · have hl : segmentLength r = r.length := by
      have := List.drop_eq_nil_iff.mp hd
      omega
    rw [he]
    refine .unterminated rfl (by rw [h0]; simpa using ho) (by simp; omega) ?_
    simp only
    rw [hc, show p + (r.length + 1) = p + (segmentLength r + 1) by omega, htext]
  all_goals
    have hlt : segmentLength r < r.length := by
      have := congrArg List.length hd
      simp at this
      omega
    rw [he]
    refine .segment (by assumption) (by simpa using h0) ?_ (by simp; omega) ?_
  · have h1 := getElem?_of_drop h (segmentLength r + 1)
    simp only [List.getElem?_cons_succ] at h1
    rw [show p + min (segmentLength r + 1 + 1) (r.length + 1) - 1 = p + (segmentLength r + 1)
      by omega, h1, getElem?_drop_self hd]
  · simp only
    rw [show p + min (segmentLength r + 1 + 1) (r.length + 1) - 1 = p + (segmentLength r + 1)
      by omega, htext]
  · have h1 := getElem?_of_drop h (segmentLength r + 1)
    simp only [List.getElem?_cons_succ] at h1
    rw [show p + min (segmentLength r + 1 + 1) (r.length + 1) - 1 = p + (segmentLength r + 1)
      by omega, h1, getElem?_drop_self hd]
  · simp only
    rw [show p + min (segmentLength r + 1 + 1) (r.length + 1) - 1 = p + (segmentLength r + 1)
      by omega, htext]

/-- A plain token carries the bytes of its span. -/
theorem carries_plain {src r : Bytes} {p : Nat} {b : UInt8} (h : src.drop p = b :: r)
    (hb : b ≠ ascii '"') (loc : Location) :
    Carries src ⟨(plain b r).kind, (plain b r).text, loc,
      ⟨p, p + min ((plain b r).extra + 1) (r.length + 1)⟩⟩ := by
  have hc : src.length = p + (r.length + 1) := by simpa using length_of_drop h (by simp)
  have h0 : src[p]? = some b := by simpa using getElem?_of_drop h 0
  refine .plain (delimiters_eq_none (plain_kind b r)) ?_ ?_
  · -- only a quote or a `}` could start an unterminated segment, and neither is plain here
    rintro ⟨hk, hq | hq⟩ <;> simp only [h0, Option.some.injEq] at hq
    · exact hb hq
    · subst hq
      simp [plain_rbrace] at hk
  · simp only
    rw [slice_self_of_drop h (by omega), plain_text, Nat.succ_min_succ, List.take_succ_cons,
      ← List.take_eq_take_min]

/-- The token `read` returns carries its text. -/
theorem carries_read {l : Lexer} {b : UInt8} {r : Bytes} (h : l.rest = b :: r) :
    Carries l.input l.read.1 := by
  have hd : l.input.drop l.here.pos = b :: r := l.rest_eq ▸ h
  rw [Lexer.read_cons h]
  rcases scan_cases l.nesting b r with ⟨rfl, -, -, hs⟩ | ⟨rfl, hs⟩ | ⟨hq, -, hs⟩ <;>
    rw [hs]
  · exact carries_segment hd rfl rfl (.inr rfl) _ _
  · exact carries_segment hd rfl rfl (.inl rfl) _ _
  · exact carries_plain hd hq _

/-! ## 5. Runs -/

namespace Lexer

/-- **One call of `next` cuts off one piece**: skipped bytes up to the token, and then either
    the `eof`, empty at the end of the input, or a token that covers at least one byte,
    carries its text, and leaves the cursor where it stops. -/
theorem segments_next {l : Lexer} (hl : l.InInput) :
    l.here.pos ≤ l.next.1.span.start ∧ l.next.1.span.stop ≤ l.input.length ∧
    Skipped (l.next.1.kind == .eof) (l.input.slice l.here.pos l.next.1.span.start) ∧
    Carries l.input l.next.1 ∧
    (l.next.1.kind = .eof → l.next.1.span = .empty l.input.length) ∧
    (l.next.1.kind ≠ .eof →
      l.next.1.span.start < l.next.1.span.stop ∧ l.next.2.here.pos = l.next.1.span.stop) := by
  have hk := blankLength_le false l.rest
  have hr := rest_length l
  unfold InInput at hl
  have hd0 : l.input.drop l.here.pos = l.rest := l.rest_eq.symm
  have hgap : l.input.slice l.here.pos (l.here.pos + blankLength false l.rest) =
      l.rest.take (blankLength false l.rest) := slice_self_of_drop hd0 (by omega)
  have hskip := skipped_blanks l.rest
  have hn : l.next = l.skipBlanks.read := rfl
  rw [hn]
  cases hs : l.skipBlanks.rest with
  | nil =>
    -- only blanks are left: the `eof` stands at the end of the input
    have hd : l.rest.drop (blankLength false l.rest) = [] := by simpa using hs
    have hend : l.here.pos + blankLength false l.rest = l.input.length := by
      have := List.drop_eq_nil_iff.mp hd
      omega
    rw [read_nil hs]
    simp only [skipBlanks_pos, Span.empty, hend, ← hgap, hd] at hskip ⊢
    refine ⟨by omega, le_refl _, by simpa using hskip, ?_, by simp⟩
    refine .plain rfl (by simp) ?_
    simp [Bytes.slice]
  | cons b r =>
    have hd : l.rest.drop (blankLength false l.rest) = b :: r := by simpa using hs
    have hlen : l.input.length = l.here.pos + blankLength false l.rest + (r.length + 1) := by
      have := congrArg List.length hd
      simp at this
      omega
    have hne := scan_kind_ne_eof l.nesting b r
    have hc := carries_read hs
    rw [read_cons hs] at hc ⊢
    simp only [skipBlanks_pos, skipBlanks_input, skipBlanks_nesting, beq_false_of_ne hne] at hc ⊢
    rw [hgap]
    rw [hd] at hskip
    refine ⟨by omega, by omega, by simpa using hskip, hc, fun h => absurd h hne, fun _ => ?_⟩
    simp
    omega

/-- The tokens from a lexer whose cursor is inside its input cut the input from the cursor on. -/
theorem segments_tokens {l : Lexer} (hl : l.InInput) : Segments l.input l.here.pos l.tokens := by
  induction l using Lexer.tokens.induct with
  | case1 l t l' hn hk =>
    obtain ⟨h1, -, h3, h4, h5, -⟩ := segments_next hl
    rw [hn] at h1 h3 h4 h5
    simp only at h1 h3 h4 h5
    rw [tokens_of_eof (by rw [hn]; exact hk), hn]
    rw [h5 hk] at h1 h3
    simp only [hk, beq_self_eq_true, Span.empty] at h1 h3
    exact .eof h1 h3 hk (h5 hk) h4
  | case2 l t l' hn hk _ ih =>
    obtain ⟨h1, h2, h3, h4, -, h6⟩ := segments_next hl
    have hl' : l'.InInput := by simpa [hn] using inInput_next hl
    have hi : l'.input = l.input := by simpa [hn] using next_input l
    rw [hn] at h1 h2 h3 h4 h6
    simp only at h1 h2 h3 h4 h6
    obtain ⟨h6, h7⟩ := h6 hk
    rw [tokens_of_ne_eof (by rw [hn]; exact hk), hn]
    simp only [beq_false_of_ne hk] at h3
    have ih := ih hl'
    rw [hi, h7] at ih
    exact .token h1 h3 hk h6 h2 h4 ih

end Lexer

/-- **Lossless segmentation.** For every source, its tokens cut its input (the bytes before
    the first NUL) into skipped blanks and comments and the tokens themselves: every token but
    the last covers at least one byte, carries its text and ends at or before the next one
    starts, and the last is the only `eof`, empty at the end of the input. So there are at
    most one more tokens than the input has bytes. -/
theorem tokens_segment_input (source : Bytes) :
    Segments source.beforeNul 0 (Lexer.ofSource source).tokens ∧
    (Lexer.ofSource source).tokens.length ≤ source.beforeNul.length + 1 := by
  have h := Lexer.segments_tokens (Lexer.inInput_ofSource source)
  exact ⟨h, h.length_le⟩

end Frond
