import Frond.Proofs.Lexer.Step

/-!
# Interpolations against a brace stack

The lexer keeps two counters for interpolations: how many are open, and how many plain braces
are open in the innermost one. A nested string that opens an interpolation resets the brace
counter, and nothing gives the old count back when that interpolation closes. A lexer with a
stack, one brace counter for each open interpolation, gives it back. This module builds that
lexer and compares the two.

* `BraceStack.scan`, `StackLexer`: the stack lexer. It shares the scanner and the cursor; only
  the counters differ.
* `Agrees n s`: the two counters say what the stack says. It holds while every enclosing
  interpolation has no brace open, and `scan_agrees` keeps it over one lexeme as long as no
  interpolation opens inside a brace.
* `tokens_eq_stack_tokens`: on every source in which no interpolation opens inside a brace
  (`OpensOutsideBraces`), the two lexers give the same tokens.
* `stack_tokens_split_nested_braces`: a string nested in braces inside an interpolation, on
  which they do not.
-/

namespace Frond

open Scan
open Bytes (ascii)

/-! ## 1. The stack lexer -/

namespace BraceStack

/-- The stack after a plain byte: inside an interpolation a `{` opens a brace of the innermost
    one and a `}` closes one (never below zero); outside, braces are not counted. -/
def countTop : List Nat → UInt8 → List Nat
  | [], _ => []
  | k :: s, b => (if b == ascii '{' then k + 1 else if b == ascii '}' then k - 1 else k) :: s

/-- One lexeme of the stack lexer after its first byte `b`, with the stack after it. A `}` with
    no brace open in the innermost interpolation pops its counter and resumes the string; a
    segment that opens an interpolation pushes a fresh counter. The lexemes are the scanner's
    own (the counters handed to `segment` play no part in its lexeme). -/
def scan (s : List Nat) (b : UInt8) (r : Bytes) : Lexeme × List Nat :=
  if b == ascii '}' && s.head? == some 0 then
    let x := (segment .stringMid .stringEnd ⟨0, 0⟩ r).1
    (x, if x.kind == .stringMid then 0 :: s.tail else s.tail)
  else if b == ascii '"' then
    let x := (segment .stringBegin .string ⟨0, 0⟩ r).1
    (x, if x.kind == .stringBegin then 0 :: s else s)
  else (plain b r, countTop s b)

theorem scan_resume (t : List Nat) (r : Bytes) :
    scan (0 :: t) (ascii '}') r =
      ((segment .stringMid .stringEnd ⟨0, 0⟩ r).1,
        if (segment .stringMid .stringEnd ⟨0, 0⟩ r).1.kind == .stringMid then 0 :: t else t) := by
  simp [scan]

theorem scan_quote (s : List Nat) (r : Bytes) :
    scan s (ascii '"') r =
      ((segment .stringBegin .string ⟨0, 0⟩ r).1,
        if (segment .stringBegin .string ⟨0, 0⟩ r).1.kind == .stringBegin then 0 :: s else s) := by
  simp +decide [scan]

theorem scan_plain {s : List Nat} {b : UInt8} (hq : b ≠ ascii '"')
    (hc : ¬(b = ascii '}' ∧ s.head? = some 0)) (r : Bytes) :
    scan s b r = (plain b r, countTop s b) := by
  have hc' : ¬((b == ascii '}' && s.head? == some 0) = true) := by simpa using hc
  rw [scan, if_neg hc', if_neg (by simpa using hq)]

end BraceStack

/-- The stack lexer: a cursor, and a stack of brace counters, one for each open interpolation,
    innermost first. The cursor is a lexer whose own counters are never read. -/
structure StackLexer where
  cursor : Lexer
  stack : List Nat

namespace StackLexer

/-- The stack lexer at the start of a source, with no interpolation open. -/
def ofSource (source : Bytes) : StackLexer := ⟨Lexer.ofSource source, []⟩

/-- The token at the cursor, for a cursor that stands on no blank, and the stack lexer after
    it: as `Lexer.read`, with the stack in place of the counters. -/
def read (l : StackLexer) : Token × StackLexer :=
  match l.cursor.rest with
  | [] => (⟨.eof, [], l.cursor.location, .empty l.cursor.here.pos⟩, l)
  | b :: r =>
    let x := BraceStack.scan l.stack b r
    let cursor := l.cursor.advance (x.1.extra + 1)
    (⟨x.1.kind, x.1.text, l.cursor.location, ⟨l.cursor.here.pos, cursor.here.pos⟩⟩,
      ⟨cursor, x.2⟩)

/-- The next token and the stack lexer after it. -/
def next (l : StackLexer) : Token × StackLexer := (StackLexer.mk l.cursor.skipBlanks l.stack).read

theorem read_rest_length (l : StackLexer) :
    l.read.1.kind = .eof ∨ l.read.2.cursor.rest.length < l.cursor.rest.length := by
  unfold read
  split
  · left; rfl
  · rename_i b r h
    right
    simp only [Lexer.advance_rest, h, List.length_drop, List.length_cons]
    omega

theorem next_rest_length (l : StackLexer) :
    l.next.1.kind = .eof ∨ l.next.2.cursor.rest.length < l.cursor.rest.length := by
  have hskip : l.cursor.skipBlanks.rest.length ≤ l.cursor.rest.length := by simp
  rcases read_rest_length ⟨l.cursor.skipBlanks, l.stack⟩ with h | h
  · exact .inl h
  · exact .inr (Nat.lt_of_lt_of_le h hskip)

/-- The tokens from the cursor on, up to and including the first `eof`. -/
def tokens (l : StackLexer) : List Token :=
  match h : l.next with
  | (t, l') =>
    if hk : t.kind = .eof then [t]
    else
      have : l'.cursor.rest.length < l.cursor.rest.length := by
        have := l.next_rest_length
        rw [h] at this
        exact this.resolve_left hk
      t :: tokens l'
termination_by l.cursor.rest.length

theorem tokens_of_eof {l : StackLexer} (h : l.next.1.kind = .eof) : l.tokens = [l.next.1] := by
  rw [tokens]
  split
  rename_i t l' hn
  have ht : l.next.1 = t := by rw [hn]
  rw [ht] at h ⊢
  rw [dif_pos h]

theorem tokens_of_ne_eof {l : StackLexer} (h : l.next.1.kind ≠ .eof) :
    l.tokens = l.next.1 :: l.next.2.tokens := by
  rw [tokens]
  split
  rename_i t l' hn
  have ht : l.next.1 = t := by rw [hn]
  have hl : l.next.2 = l' := by rw [hn]
  rw [ht] at h
  rw [ht, hl, dif_neg h]

end StackLexer

/-! ## 2. When the counters say what the stack says -/

namespace BraceStack

/-- The counters `n` say what the stack `s` says: one interpolation for each counter, the brace
    counter equal to the innermost counter, and no brace open in any enclosing interpolation. -/
structure Agrees (n : Nesting) (s : List Nat) : Prop where
  depth : n.depth = s.length
  braces : n.braces = s.headD 0
  outer : ∀ k ∈ s.tail, k = 0

/-- A stack with no brace open anywhere agrees with a zero brace counter. -/
theorem agrees_zeros {s : List Nat} (hs : ∀ k ∈ s, k = 0) : Agrees ⟨s.length, 0⟩ s := by
  refine ⟨rfl, ?_, fun k hk => hs k (List.mem_of_mem_tail hk)⟩
  cases s with
  | nil => rfl
  | cons k t => exact (hs k List.mem_cons_self).symm

/-- With the brace counter at zero, no brace is open anywhere on an agreeing stack. -/
theorem Agrees.zeros {n : Nesting} {s : List Nat} (h : Agrees n s) (hb : n.braces = 0) :
    ∀ k ∈ s, k = 0 := by
  cases s with
  | nil => simp
  | cons k t =>
    have hk : k = 0 := by
      have := h.braces
      simp only [List.headD_cons] at this
      omega
    intro j hj
    rcases List.mem_cons.mp hj with rfl | hj
    · exact hk
    · exact h.outer j hj

/-- A plain byte moves the innermost counter as it moves the brace counter. -/
theorem Agrees.countBrace {n : Nesting} {s : List Nat} (h : Agrees n s) (b : UInt8) :
    Agrees (Scan.countBrace n b) (countTop s b) := by
  cases s with
  | nil =>
    have hn : Scan.countBrace n b = n := by simp [Scan.countBrace, h.depth]
    rw [hn]
    exact h
  | cons k t =>
    have hd : n.depth ≠ 0 := by simp [h.depth]
    have hk : n.braces = k := h.braces
    refine ⟨by simp [countTop, h.depth], ?_, h.outer⟩
    simp only [Scan.countBrace, countTop, beq_iff_eq, hd, if_false, List.headD_cons]
    split_ifs <;> simp [hk]

/-- **One lexeme of each.** While the counters agree with the stack, the two scanners read the
    same lexeme and the counters still agree after it, unless the lexeme opens an interpolation
    with a brace open: the lexer then forgets that brace. -/
theorem scan_agrees {n : Nesting} {s : List Nat} (h : Agrees n s) (b : UInt8) (r : Bytes)
    (hopen : (Scan.scan n b r).1.kind = .stringBegin → n.braces = 0) :
    (scan s b r).1 = (Scan.scan n b r).1 ∧ Agrees (Scan.scan n b r).2 (scan s b r).2 := by
  rcases scan_cases n b r with ⟨rfl, hd, hb, he⟩ | ⟨rfl, he⟩ | ⟨hq, hc, he⟩
  · -- a `}` that ends the innermost interpolation: its counter is the zero on top of the stack
    obtain ⟨t, rfl⟩ : ∃ t, s = 0 :: t := by
      cases s with
      | nil => simp [h.depth] at hd
      | cons k t => exact ⟨t, by simpa [hb] using h.braces.symm⟩
    have ht : ∀ k ∈ t, k = 0 := h.outer
    rw [he, scan_resume, segment_lexeme _ _ ⟨0, 0⟩ ⟨n.depth - 1, 0⟩]
    have hlen : n.depth - 1 = t.length := by simp [h.depth]
    refine ⟨rfl, ?_⟩
    rcases segment_cases .stringMid .stringEnd ⟨n.depth - 1, 0⟩ r with
      ⟨-, hs⟩ | ⟨q, -, hs⟩ | ⟨q, -, hs⟩ <;> rw [hs] <;> simp only [hlen]
    · exact agrees_zeros ht
    · -- the string goes on to the next interpolation, with a fresh counter
      simpa using agrees_zeros (s := 0 :: t) (by simpa using ht)
    · exact agrees_zeros ht
  · rw [he] at hopen ⊢
    rw [scan_quote, segment_lexeme _ _ ⟨0, 0⟩ n]
    refine ⟨rfl, ?_⟩
    rcases segment_cases .stringBegin .string n r with
      ⟨-, hs⟩ | ⟨q, -, hs⟩ | ⟨q, -, hs⟩ <;> rw [hs] at hopen ⊢
    · exact h
    · -- a new interpolation: every brace counter below its fresh one is at zero
      have hz := h.zeros (hopen rfl)
      simpa [h.depth] using agrees_zeros (s := 0 :: s) (by simpa using hz)
    · exact h
  · -- a plain token: the stack lexer does not resume either
    have hc' : ¬(b = ascii '}' ∧ s.head? = some 0) := by
      rintro ⟨rfl, hs⟩
      cases s with
      | nil => simp at hs
      | cons k t =>
        simp only [List.head?_cons, Option.some.injEq] at hs
        subst hs
        exact hc ⟨rfl, by simp [h.depth], by simpa using h.braces⟩
    rw [he, scan_plain hq hc' r]
    exact ⟨rfl, h.countBrace b⟩

end BraceStack

/-! ## 3. Runs -/

namespace StackLexer

open BraceStack

/-- The stack lexer `m` stands where the lexer `l` stands, over the same source, and its stack
    agrees with the counters of `l`. -/
structure Tracks (l : Lexer) (m : StackLexer) : Prop where
  source : m.cursor.source = l.source
  filename : m.cursor.filename = l.filename
  here : m.cursor.here = l.here
  agrees : Agrees l.nesting m.stack

variable {l : Lexer} {m : StackLexer}

theorem Tracks.rest (h : Tracks l m) : m.cursor.rest = l.rest := by
  rw [m.cursor.rest_eq, l.rest_eq, h.source, h.here]

theorem Tracks.location (h : Tracks l m) : m.cursor.location = l.location := by
  simp [Lexer.location, h.filename, h.here]

theorem Tracks.advance (h : Tracks l m) (k : Nat) :
    (m.cursor.advance k).here = (l.advance k).here := by
  simp only [Lexer.advance, h.here, h.rest]

theorem Tracks.skipBlanks (h : Tracks l m) : Tracks l.skipBlanks ⟨m.cursor.skipBlanks, m.stack⟩ :=
  ⟨h.source, h.filename, by simp only [Lexer.skipBlanks, h.rest, h.advance], h.agrees⟩

/-- **One token of each.** Tracking lexers read the same token and track each other after it,
    unless the token opens an interpolation with a brace open. -/
theorem Tracks.next (h : Tracks l m)
    (hopen : l.next.1.kind = .stringBegin → l.nesting.braces = 0) :
    m.next.1 = l.next.1 ∧ Tracks l.next.2 m.next.2 := by
  have hs := h.skipBlanks
  have hh : m.cursor.skipBlanks.here = l.skipBlanks.here := hs.here
  have hloc : m.cursor.skipBlanks.location = l.skipBlanks.location := hs.location
  show (StackLexer.mk m.cursor.skipBlanks m.stack).read.1 = l.skipBlanks.read.1 ∧
    Tracks l.skipBlanks.read.2 (StackLexer.mk m.cursor.skipBlanks m.stack).read.2
  cases hr : l.skipBlanks.rest with
  | nil =>
    have hr' : m.cursor.skipBlanks.rest = [] := hs.rest.trans hr
    rw [Lexer.read_nil hr]
    simp only [read, hr']
    refine ⟨?_, hs⟩
    simp only [hloc, hh]
  | cons b r =>
    have hr' : m.cursor.skipBlanks.rest = b :: r := hs.rest.trans hr
    have hopen' : (Scan.scan l.nesting b r).1.kind = .stringBegin → l.nesting.braces = 0 := by
      have hn : l.next = l.skipBlanks.read := rfl
      rw [hn, Lexer.read_cons hr] at hopen
      exact hopen
    obtain ⟨hx, ha⟩ := scan_agrees h.agrees b r hopen'
    have hadv : (m.cursor.skipBlanks.advance ((Scan.scan l.nesting b r).1.extra + 1)).here =
        (l.skipBlanks.advance ((Scan.scan l.nesting b r).1.extra + 1)).here := hs.advance _
    rw [Lexer.read_cons hr]
    simp only [read, hr', hx]
    refine ⟨?_, ⟨hs.source, hs.filename, hadv, ha⟩⟩
    simp only [hloc, hh, hadv, Lexer.advance_pos, Lexer.skipBlanks_nesting, hr, List.length_cons]

end StackLexer

namespace Lexer

/-- No interpolation opens while a brace is open in the interpolation around it: at every
    `stringBegin` of the run the brace counter is zero. Up to the first one that opens inside a
    brace the counter is exact, so this is a condition on the source. -/
def OpensOutsideBraces (l : Lexer) : Prop :=
  ∀ i (h : i < l.tokens.length), l.tokens[i].kind = .stringBegin → (l.after i).nesting.braces = 0

instance (l : Lexer) : Decidable l.OpensOutsideBraces :=
  inferInstanceAs (Decidable (∀ i (h : i < l.tokens.length),
    l.tokens[i].kind = .stringBegin → (l.after i).nesting.braces = 0))

theorem OpensOutsideBraces.head {l : Lexer} (h : l.OpensOutsideBraces) :
    l.next.1.kind = .stringBegin → l.nesting.braces = 0 := by
  have h0 := h 0 (length_tokens_pos l)
  rw [getElem_tokens l 0 (length_tokens_pos l)] at h0
  exact h0

theorem OpensOutsideBraces.tail {l : Lexer} (h : l.OpensOutsideBraces)
    (hk : l.next.1.kind ≠ .eof) : l.next.2.OpensOutsideBraces := by
  intro i hi hb
  have hi' : i + 1 < l.tokens.length := by
    rw [tokens_of_ne_eof hk]
    simpa using hi
  have h1 := h (i + 1) hi'
  rw [getElem_tokens l (i + 1) hi'] at h1
  rw [getElem_tokens l.next.2 i hi] at hb
  exact h1 hb

end Lexer

/-- Tracking lexers give the same tokens, as long as no interpolation opens inside a brace. -/
theorem StackLexer.Tracks.tokens {l : Lexer} {m : StackLexer} (h : StackLexer.Tracks l m)
    (hc : l.OpensOutsideBraces) : m.tokens = l.tokens := by
  induction l using Lexer.tokens.induct generalizing m with
  | case1 l t l' hn hk =>
    obtain ⟨ht, -⟩ := h.next hc.head
    have hk' : m.next.1.kind = .eof := by rw [ht, hn]; exact hk
    rw [StackLexer.tokens_of_eof hk', Lexer.tokens_of_eof (by rw [hn]; exact hk), ht]
  | case2 l t l' hn hk _ ih =>
    obtain ⟨ht, hm⟩ := h.next hc.head
    have hk0 : l.next.1.kind ≠ .eof := by rw [hn]; exact hk
    have hk' : m.next.1.kind ≠ .eof := by rw [ht]; exact hk0
    have hc' := hc.tail hk0
    rw [hn] at hm hc'
    rw [StackLexer.tokens_of_ne_eof hk', Lexer.tokens_of_ne_eof hk0, ht, ih hm hc', hn]

/-! ## 4. Over the tokens of a source -/

/-- **The brace stack, where it agrees.** On every source in which no interpolation opens while
    a brace is open in the interpolation around it, the lexer's tokens are those of the lexer
    that keeps a brace counter for each open interpolation. -/
theorem tokens_eq_stack_tokens (source : Bytes) (h : (Lexer.ofSource source).OpensOutsideBraces) :
    (Lexer.ofSource source).tokens = (StackLexer.ofSource source).tokens := by
  have ht : StackLexer.Tracks (Lexer.ofSource source) (StackLexer.ofSource source) :=
    ⟨rfl, rfl, rfl, ⟨rfl, rfl, by intro k hk; cases hk⟩⟩
  exact (ht.tokens h).symm

/-- Braces around an interpolation and strings nested at brace depth zero: the two agree. -/
theorem stack_tokens_agree_nested_strings :
    (Lexer.ofSource (Bytes.ofString "\"a\x7b \x7bx\x7d \x7db\x7b\"c\x7bd\x7d\"\x7de\"")).OpensOutsideBraces ∧
    (Lexer.ofSource (Bytes.ofString "\"a\x7b \x7bx\x7d \x7db\x7b\"c\x7bd\x7d\"\x7de\"")).tokens =
      (StackLexer.ofSource (Bytes.ofString "\"a\x7b \x7bx\x7d \x7db\x7b\"c\x7bd\x7d\"\x7de\"")).tokens :=
  ⟨by decide +kernel, tokens_eq_stack_tokens _ (by decide +kernel)⟩

/-- **Where the two part.** In `"a{ {"b{c}"} }"` a string opens inside a brace of an
    interpolation. When it closes, the lexer has forgotten that brace: the next `}` ends the
    outer interpolation, where the stack lexer closes the brace and ends the interpolation at
    the last `}`. -/
theorem stack_tokens_split_nested_braces :
    (Lexer.ofSource (Bytes.ofString "\"a\x7b \x7b\"b\x7bc\x7d\"\x7d \x7d\"")).tokens.map Token.kind =
      [.stringBegin, .lBrace, .stringBegin, .ident, .stringEnd, .stringEnd, .eof] ∧
    (StackLexer.ofSource (Bytes.ofString "\"a\x7b \x7b\"b\x7bc\x7d\"\x7d \x7d\"")).tokens.map
      Token.kind = [.stringBegin, .lBrace, .stringBegin, .ident, .stringEnd, .rBrace, .stringEnd, .eof] := by
  decide +kernel

end Frond
