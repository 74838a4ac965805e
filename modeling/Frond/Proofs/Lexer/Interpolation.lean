import Frond.Proofs.Lexer.Step

/-!
# Interpolation depth

A string literal with `{expr}` interpolations is cut into segments: `stringBegin` opens an
interpolation, `stringMid` ends one and opens the next, `stringEnd` ends the last. The lexer
counts the open interpolations in `nesting.depth`. This module shows that the count moves
exactly as the segments say, token by token, and that the segments nest like brackets.

* `Segment`, `TokenKind.segment`: the part a token plays. An unterminated segment that starts
  at `}` is an error token, and still closes its interpolation.
* `DepthStep`: how one token moves the depth; `depthStep_next`: `next` moves it so.
* `Bracketed`: the well-bracketed words of parts; `Unclosed d u`: such a word cut inside `d`
  open interpolations, kept by every token (`Unclosed.step`) and completed by `d` closings.
* `CountersBounded`: the two counters together never pass the cursor.
* `interpolation_depth`: all of it over the tokens of every source.
* `counters_fit_u32`: on a source shorter than 2^32 bytes the counters fit in the program's
  32 bits.
-/

namespace Frond

open Scan
open Bytes (ascii)

/-! ## 1. The part a token plays -/

/-- The part a string segment plays in the interpolations: it opens one, resumes the string
    between two, or closes one. -/
inductive Segment
  | opens
  | resumes
  | closes
  deriving DecidableEq, Repr

/-- The part a token of kind `k` plays, `first` being the first byte of its span. An error that
    starts at `}` is a segment left unterminated after an interpolation, and closes it. -/
def TokenKind.segment (k : TokenKind) (first : Option UInt8) : Option Segment :=
  match k with
  | .stringBegin => some .opens
  | .stringMid => some .resumes
  | .stringEnd => some .closes
  | .error => if first = some (ascii '}') then some .closes else none
  | _ => none

/-- The part a token of the input `src` plays. -/
def Token.segment (src : Bytes) (t : Token) : Option Segment := t.kind.segment src[t.span.start]?

/-- A kind that is no segment kind plays no part, unless it is an error at a `}`. -/
theorem TokenKind.segment_of_not_mem {k : TokenKind} {first : Option UInt8}
    (hk : k ∉ segmentKinds) (he : k = .error → first ≠ some (ascii '}')) :
    k.segment first = none := by
  cases k <;> simp_all [TokenKind.segment, segmentKinds]

/-- `DepthStep s d d'`: a token that plays the part `s` may come at depth `d`, and leaves depth
    `d'`. Opening raises the depth; resuming and closing need an open interpolation, and closing
    lowers the depth; any other token leaves it. -/
def DepthStep : Option Segment → Nat → Nat → Prop
  | some .opens, d, d' => d' = d + 1
  | some .resumes, d, d' => 0 < d ∧ d' = d
  | some .closes, d, d' => 0 < d ∧ d' = d - 1
  | none, d, d' => d' = d

/-! ## 2. One token -/

namespace Scan

/-- A plain token plays no part: it is never a segment, and `}` alone is a brace. -/
theorem segment_plain (b : UInt8) (r : Bytes) : (plain b r).kind.segment (some b) = none := by
  by_cases hb : b = ascii '}'
  · subst hb
    rw [plain_rbrace]
    rfl
  · exact TokenKind.segment_of_not_mem (plain_kind b r) (fun _ h => hb (Option.some.inj h))

/-- **One lexeme moves the depth as its part says.** -/
theorem depthStep_scan (n : Nesting) (b : UInt8) (r : Bytes) :
    DepthStep ((scan n b r).1.kind.segment (some b)) n.depth (scan n b r).2.depth := by
  rcases scan_cases n b r with ⟨rfl, hd, -, h⟩ | ⟨rfl, h⟩ | ⟨-, -, h⟩ <;> rw [h]
  · -- the `}` closes the interpolation whichever way the resumed segment ends; at a `{` it
    -- opens the next one
    rcases segment_cases .stringMid .stringEnd ⟨n.depth - 1, 0⟩ r with
      ⟨-, he⟩ | ⟨q, -, he⟩ | ⟨q, -, he⟩ <;> rw [he]
    · exact ⟨hd, rfl⟩
    · exact ⟨hd, by simp; omega⟩
    · exact ⟨hd, rfl⟩
  · rcases segment_cases .stringBegin .string n r with
      ⟨-, he⟩ | ⟨q, -, he⟩ | ⟨q, -, he⟩ <;> rw [he]
    · -- an unterminated string at a quote plays no part
      show n.depth = n.depth
      rfl
    · rfl
    · rfl
  · rw [segment_plain]
    exact countBrace_depth n b

end Scan

namespace Lexer

/-- **One call of `next` moves the depth as its token's part says.** -/
theorem depthStep_next (l : Lexer) :
    DepthStep (l.next.1.segment l.input) l.nesting.depth l.next.2.nesting.depth := by
  show DepthStep (l.skipBlanks.read.1.segment l.input) l.skipBlanks.nesting.depth
    l.skipBlanks.read.2.nesting.depth
  cases hr : l.skipBlanks.rest with
  | nil =>
    rw [read_nil hr]
    rfl
  | cons b r =>
    -- the token starts at the byte the lexer stands on
    have hb : l.input[l.skipBlanks.here.pos]? = some b := by
      have h0 : (l.skipBlanks.source.beforeNul.drop l.skipBlanks.here.pos)[0]? = some b := by
        rw [← l.skipBlanks.rest_eq, hr]
        rfl
      rw [List.getElem?_drop, Nat.add_zero] at h0
      exact h0
    rw [read_cons hr]
    simp only [Token.segment, hb]
    exact depthStep_scan l.nesting b r

end Lexer

/-! ## 3. Well-bracketed words -/

/-- The well-bracketed words of parts. An interpolated string is a `block`: it opens, holds a
    word of the level inside it, and closes. Inside an interpolation a `resumes` may stand at
    its own level; outside all of them (`inside = false`) only whole strings stand. -/
inductive Bracketed : Bool → List Segment → Prop
  | nil {inside : Bool} : Bracketed inside []
  | resume : Bracketed true [.resumes]
  | block {inside : Bool} {w : List Segment} :
      Bracketed true w → Bracketed inside (.opens :: w ++ [.closes])
  | append {inside : Bool} {u v : List Segment} :
      Bracketed inside u → Bracketed inside v → Bracketed inside (u ++ v)

/-- A well-bracketed word opens as often as it closes. -/
theorem Bracketed.count_opens {inside : Bool} {w : List Segment} (h : Bracketed inside w) :
    w.count .opens = w.count .closes := by
  induction h with
  | nil => rfl
  | resume => rfl
  | block _ ih => simp [ih]
  | append _ _ ihu ihv => simp [ihu, ihv]

/-- `Unclosed d u`: the word `u` is a well-bracketed word cut inside `d` open interpolations;
    each open one has its `opens` and the word read inside it so far. -/
inductive Unclosed : Nat → List Segment → Prop
  | top {u : List Segment} : Bracketed false u → Unclosed 0 u
  | inside {d : Nat} {u w : List Segment} :
      Unclosed d u → Bracketed true w → Unclosed (d + 1) (u ++ .opens :: w)

namespace Unclosed

variable {d d' : Nat} {u : List Segment}

/-- The depth of a cut word is its openings less its closings. -/
theorem depth_eq (h : Unclosed d u) : (d : Int) = u.count .opens - u.count .closes := by
  induction h with
  | top hu => simp [hu.count_opens]
  | inside _ hw ih =>
    simp only [List.count_append, List.count_cons, hw.count_opens]
    simp
    omega

/-- A whole string may follow at any depth. -/
theorem append_block {w : List Segment} (h : Unclosed d u) (hw : Bracketed true w) :
    Unclosed d (u ++ (.opens :: w ++ [.closes])) := by
  cases h with
  | top hu => exact .top (.append hu (.block hw))
  | inside hu hv =>
    rw [List.append_assoc, List.cons_append]
    exact .inside hu (.append hv (.block hw))

/-- **Every token keeps the word cut**, at the depth it leaves. -/
theorem step {s : Option Segment} (hs : DepthStep s d d') (h : Unclosed d u) :
    Unclosed d' (u ++ s.toList) := by
  cases s with
  | none =>
    obtain rfl : d' = d := hs
    simpa using h
  | some s =>
    cases s with
    | opens =>
      obtain rfl : d' = d + 1 := hs
      exact .inside h .nil
    | resumes =>
      -- a `resumes` stands at the level of the innermost open interpolation
      obtain ⟨hd, rfl⟩ : 0 < d ∧ d' = d := hs
      cases h with
      | top _ => omega
      | inside hu hw =>
        show Unclosed _ ((_ ++ .opens :: _) ++ [.resumes])
        rw [List.append_assoc, List.cons_append]
        exact .inside hu (.append hw .resume)
    | closes =>
      -- a `closes` turns the innermost open interpolation into a whole string
      obtain ⟨hd, rfl⟩ : 0 < d ∧ d' = d - 1 := hs
      cases h with
      | top _ => omega
      | inside hu hw =>
        show Unclosed _ ((_ ++ .opens :: _) ++ [.closes])
        rw [Nat.add_sub_cancel, List.append_assoc]
        exact append_block hu hw

/-- Closing the `d` open interpolations completes a cut word. -/
theorem complete (h : Unclosed d u) : Bracketed false (u ++ List.replicate d .closes) := by
  induction d generalizing u with
  | zero =>
    cases h with
    | top hu => simpa using hu
  | succ d ih =>
    have hc : Unclosed d (u ++ [.closes]) := h.step (s := some .closes) ⟨d.succ_pos, rfl⟩
    simpa [List.replicate_succ] using ih hc

end Unclosed

/-! ## 4. The counters stay below the cursor -/

namespace Scan

theorem countBrace_braces_le (n : Nesting) (b : UInt8) :
    (countBrace n b).braces ≤ n.braces + 1 := by
  unfold countBrace
  split
  · exact Nat.le_succ _
  · split
    · exact Nat.le_refl _
    · split
      · exact Nat.le_succ_of_le (Nat.sub_le _ _)
      · exact Nat.le_succ _

/-- One lexeme raises the two counters together by at most one. -/
theorem scan_counters_le (n : Nesting) (b : UInt8) (r : Bytes) :
    (scan n b r).2.depth + (scan n b r).2.braces ≤ n.depth + n.braces + 1 := by
  rcases scan_cases n b r with ⟨-, -, -, h⟩ | ⟨-, h⟩ | ⟨-, -, h⟩ <;> rw [h]
  · rcases segment_cases .stringMid .stringEnd ⟨n.depth - 1, 0⟩ r with
      ⟨-, he⟩ | ⟨q, -, he⟩ | ⟨q, -, he⟩ <;> rw [he] <;> simp <;> omega
  · rcases segment_cases .stringBegin .string n r with
      ⟨-, he⟩ | ⟨q, -, he⟩ | ⟨q, -, he⟩ <;> rw [he] <;> simp
  · have := countBrace_braces_le n b
    simp only [countBrace_depth]
    omega

end Scan

namespace Lexer

/-- The two interpolation counters together are at most the cursor offset. -/
def CountersBounded (l : Lexer) : Prop := l.nesting.depth + l.nesting.braces ≤ l.here.pos

theorem countersBounded_ofSource (source : Bytes) : (ofSource source).CountersBounded := by
  simp [CountersBounded, ofSource, Position.origin]

/-- Each token takes at least one byte and raises the counters by at most one. -/
theorem countersBounded_next {l : Lexer} (h : l.CountersBounded) : l.next.2.CountersBounded := by
  have hs : l.skipBlanks.CountersBounded := by
    unfold CountersBounded at h ⊢
    simp only [skipBlanks_nesting, skipBlanks_pos]
    omega
  show l.skipBlanks.read.2.CountersBounded
  cases hr : l.skipBlanks.rest with
  | nil =>
    rw [read_nil hr]
    exact hs
  | cons b r =>
    rw [read_cons hr]
    have hc := scan_counters_le l.nesting b r
    unfold CountersBounded at hs ⊢
    simp only [advance_pos, hr, List.length_cons, skipBlanks_nesting] at hs hc ⊢
    omega

theorem countersBounded_after {l : Lexer} (h : l.CountersBounded) (i : Nat) :
    (l.after i).CountersBounded := by
  induction i generalizing l with
  | zero => exact h
  | succ i ih => exact ih (countersBounded_next h)

end Lexer

/-! ## 5. Over the tokens of a source -/

/-- **Interpolation accounting.** Over the tokens of any source, with `D i` the depth after `i`
    tokens: every token moves the depth as its part says, and resumes or closes only with an
    interpolation open; the depth is the openings less the closings so far; the parts of all
    the tokens, followed by one closing for each interpolation left open, are a well-bracketed
    word; and the two counters together never pass the cursor, which stays in the input. -/
theorem interpolation_depth (source : Bytes) :
    let l := Lexer.ofSource source
    let parts := fun ts : List Token => ts.filterMap (Token.segment source.beforeNul)
    (∀ i (h : i < l.tokens.length),
      DepthStep (l.tokens[i].segment source.beforeNul) (l.after i).nesting.depth
        (l.after (i + 1)).nesting.depth) ∧
    (∀ i ≤ l.tokens.length,
      ((l.after i).nesting.depth : Int) =
        (parts (l.tokens.take i)).count .opens - (parts (l.tokens.take i)).count .closes) ∧
    Bracketed false
      (parts l.tokens ++ List.replicate (l.after l.tokens.length).nesting.depth .closes) ∧
    (∀ i, (l.after i).nesting.depth + (l.after i).nesting.braces ≤ (l.after i).here.pos ∧
      (l.after i).here.pos ≤ source.beforeNul.length) := by
  intro l parts
  have hsteps : ∀ i (h : i < l.tokens.length), DepthStep (l.tokens[i].segment source.beforeNul)
      (l.after i).nesting.depth (l.after (i + 1)).nesting.depth := by
    intro i h
    rw [Lexer.getElem_tokens l i h, Lexer.after_succ_next]
    have hi := (l.after i).depthStep_next
    rw [Lexer.after_input] at hi
    exact hi
  -- the cut word is the invariant of the run; the count and the completion follow from it
  have hcut : ∀ i ≤ l.tokens.length,
      Unclosed (l.after i).nesting.depth (parts (l.tokens.take i)) := by
    refine l.prefix_induction (fun l' ts => Unclosed l'.nesting.depth (parts ts)) (.top .nil) ?_
    intro i hi ih
    have hs := hsteps i hi
    rw [Lexer.getElem_tokens l i hi, Lexer.after_succ_next] at hs
    have hone : [(l.after i).next.1].filterMap (Token.segment source.beforeNul) =
        ((l.after i).next.1.segment source.beforeNul).toList := by
      rw [List.filterMap_cons, List.filterMap_nil]
      cases (l.after i).next.1.segment source.beforeNul <;> rfl
    simpa only [parts, List.filterMap_append, hone] using ih.step hs
  refine ⟨hsteps, fun i hi => (hcut i hi).depth_eq, ?_, fun i => ⟨?_, ?_⟩⟩
  · simpa using (hcut l.tokens.length le_rfl).complete
  · exact Lexer.countersBounded_after (Lexer.countersBounded_ofSource source) i
  · simpa [Lexer.InInput] using Lexer.inInput_after (Lexer.inInput_ofSource source) i

/-- **The interpolation counters fit in 32 bits.** The program keeps the two counters in 32 bits.
    On a source shorter than 2^32 bytes they stay, together, below 2^32 after every token, since
    each token takes a byte and raises them by at most one; so no step raises either past
    2^32 - 1, a 32-bit counter never wraps, and the counts here are the program's. -/
theorem counters_fit_u32 (source : Bytes) (hsize : source.length < 2 ^ 32) (i : Nat) :
    let l := (Lexer.ofSource source).after i
    l.nesting.depth + l.nesting.braces < 2 ^ 32 := by
  intro l
  have hbound : l.nesting.depth + l.nesting.braces ≤ l.here.pos :=
    Lexer.countersBounded_after (Lexer.countersBounded_ofSource source) i
  have hin : l.here.pos ≤ l.input.length := Lexer.inInput_after (Lexer.inInput_ofSource source) i
  -- the lexer reads the source up to its first zero byte
  have hinput : l.input.length ≤ source.length := by
    rw [Lexer.after_input]
    exact (List.takeWhile_prefix _).length_le
  omega

/- A string inside an interpolation of a string: the inner one opens and closes within. -/
example : (Lexer.ofSource (Bytes.ofString "\"a\x7bf(\"b\x7bx\x7d\")\x7dc\"")).tokens.filterMap
    (Token.segment (Bytes.ofString "\"a\x7bf(\"b\x7bx\x7d\")\x7dc\"")) =
    [.opens, .opens, .closes, .closes] := by
  decide +kernel

end Frond
