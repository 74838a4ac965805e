import Frond.Token.Basic
import Mathlib.Data.FinEnum

/-!
# The token grammar

The tokens of a source that holds no string literal, as a grammar states them. Nothing here
reads the lexer: this is what `Frond.Proofs.Lexer.MaximalMunch` compares it with.

* Byte classes are lists of ranges, written as `[A-Za-z_]` writes them (`ByteClass`).
* Token classes are languages, given by their recognizers: identifiers, integers (radix or
  decimal), floats, and a table of punctuators. `kindOf` is the kind of a whole lexeme.
* `longestIn p w` is the length of the longest prefix of `w` in the language `p`; `longestIn_eq`
  says when it is `n`, and every later proof goes through it.
* `tokensFrom` skips the longest run of blanks and comments, then takes the longest prefix that
  has a kind, or a single byte as an error, and ends with `eof`.
* The extent lemmas (`isIdent_take`, `isDecimal_take`, `isRadixInt_take`, `isFloat_take`) say
  which prefixes of a word lie in each class, read off one `takeWhile` run.
-/

namespace Frond

namespace Grammar

open Bytes (ascii lf)

/-! ## 1. Byte classes -/

/-- A class of bytes, as ranges: `[A-Za-z_]` is `[(A, Z), (a, z), (_, _)]`. -/
abbrev ByteClass := List (UInt8 × UInt8)

/-- Whether a byte lies in one of the ranges of a class. -/
def ByteClass.mem (cls : ByteClass) (b : UInt8) : Bool := cls.any fun r => r.1 ≤ b && b ≤ r.2

/-- Space, tab, CR and LF. -/
def blank : ByteClass :=
  [(ascii ' ', ascii ' '), (ascii '\t', ascii '\t'), (ascii '\r', ascii '\r'), (lf, lf)]

/-- `[0-9]` -/
def digit : ByteClass := [(ascii '0', ascii '9')]

/-- `[A-Za-z_]`, or a byte from `0xC0` on. -/
def identStart : ByteClass :=
  [(ascii 'A', ascii 'Z'), (ascii 'a', ascii 'z'), (ascii '_', ascii '_'), (0xC0, 0xFF)]

/-- `[A-Za-z0-9_]`, or a byte from `0x80` on. -/
def identContinue : ByteClass :=
  [(ascii 'A', ascii 'Z'), (ascii 'a', ascii 'z'), (ascii '0', ascii '9'), (ascii '_', ascii '_'),
    (0x80, 0xFF)]

/-- `[0-9A-Fa-f_]` -/
def hexBody : ByteClass :=
  [(ascii '0', ascii '9'), (ascii 'A', ascii 'F'), (ascii 'a', ascii 'f'), (ascii '_', ascii '_')]

/-- `[01_]` -/
def binBody : ByteClass := [(ascii '0', ascii '1'), (ascii '_', ascii '_')]

/-- `[0-7_]` -/
def octBody : ByteClass := [(ascii '0', ascii '7'), (ascii '_', ascii '_')]

/-! ## 2. Token classes -/

/-- IDENT: `[identStart][identContinue]*`. -/
def isIdent : Bytes → Bool
  | [] => false
  | b :: t => identStart.mem b && t.all identContinue.mem

/-- `[0-9]+` -/
def isDecimal (w : Bytes) : Bool := !w.isEmpty && w.all digit.mem

/-- The class of the body that follows `0x`, `0b` or `0o` (either case). -/
def radixBody (x : UInt8) : Option ByteClass :=
  if x == ascii 'x' || x == ascii 'X' then some hexBody
  else if x == ascii 'b' || x == ascii 'B' then some binBody
  else if x == ascii 'o' || x == ascii 'O' then some octBody
  else none

/-- `0[xX][0-9A-Fa-f_]* | 0[bB][01_]* | 0[oO][0-7_]*` -/
def isRadixInt : Bytes → Bool
  | z :: x :: t =>
    z == ascii '0' &&
      match radixBody x with
      | some cls => t.all cls.mem
      | none => false
  | _ => false

/-- INT: a radix literal, or `[0-9]+`. -/
def isInt (w : Bytes) : Bool := isRadixInt w || isDecimal w

/-- FLOAT: `[0-9]+ '.' [0-9]+`. A point is no digit, so the digits before it are the longest
    run of digits. -/
def isFloat (w : Bytes) : Bool :=
  let whole := w.takeWhile digit.mem
  match w.drop whole.length with
  | p :: frac => !whole.isEmpty && p == ascii '.' && isDecimal frac
  | [] => false

/-- The punctuators and their kinds. -/
def punctuators : List (Bytes × TokenKind) :=
  [([ascii '.', ascii '.', ascii '='], .dotDotEq), ([ascii '.', ascii '.', ascii '.'], .ellipsis),
   ([ascii '.', ascii '.'], .dotDot), ([ascii '.'], .dot),
   ([ascii '<', ascii '-'], .bind), ([ascii '<', ascii '='], .le), ([ascii '<'], .lt),
   ([ascii '>', ascii '='], .ge), ([ascii '>'], .gt),
   ([ascii '=', ascii '='], .eq), ([ascii '=', ascii '>'], .fatArrow), ([ascii '='], .assign),
   ([ascii '!', ascii '='], .ne),
   ([ascii '-', ascii '>'], .arrow), ([ascii '-'], .minus),
   ([ascii '|', ascii '>'], .pipe), ([ascii '|'], .bar),
   ([ascii '*', ascii '*'], .power), ([ascii '*'], .star),
   ([ascii '('], .lParen), ([ascii ')'], .rParen), ([ascii '['], .lBracket),
   ([ascii ']'], .rBracket), ([ascii '{'], .lBrace), ([ascii '}'], .rBrace),
   ([ascii ','], .comma), ([ascii ':'], .colon), ([ascii '+'], .plus), ([ascii '/'], .slash),
   ([ascii '%'], .percent), ([ascii '@'], .atSign), ([ascii '?'], .question)]

/-- The kind of a punctuator. -/
def punctuator (w : Bytes) : Option TokenKind := (punctuators.find? (·.1 = w)).map (·.2)

/-- The kind of a whole lexeme, if it lies in a class. An identifier has the kind its word
    reserves (keywords, `true`, `false`), and `_` alone is `underscore`. -/
def kindOf (w : Bytes) : Option TokenKind :=
  if isIdent w then some (if w = [ascii '_'] then .underscore else TokenKind.fromWord w)
  else if isInt w then some .int
  else if isFloat w then some .float
  else punctuator w

/-! ## 3. The longest prefix -/

/-- The longest prefix of `w`, of length at most `k`, that `p` accepts; zero if none. -/
def longestUpTo (p : Bytes → Bool) (w : Bytes) : Nat → Nat
  | 0 => 0
  | k + 1 => if p (w.take (k + 1)) then k + 1 else longestUpTo p w k

/-- The length of the longest prefix of `w` that `p` accepts; zero if none does. -/
def longestIn (p : Bytes → Bool) (w : Bytes) : Nat := longestUpTo p w w.length

/-- Blanks and comments, as a two-state recognizer: outside a comment a blank stays and `#`
    opens one; inside, LF closes it and every other byte stays in it. A run may stop anywhere,
    also inside a comment. -/
def blankRun : Bool → Bytes → Bool
  | _, [] => true
  | true, b :: t => if b == lf then blankRun false t else blankRun true t
  | false, b :: t =>
    if blank.mem b then blankRun false t else if b == ascii '#' then blankRun true t else false

/-- The next token of a word that is no blank: the longest prefix that has a kind, with that
    kind and its length; one byte as an error if no prefix has one. -/
def munchOne (w : Bytes) : TokenKind × Nat :=
  let n := longestIn (fun u => (kindOf u).isSome) w
  if n = 0 then (.error, 1) else ((kindOf (w.take n)).getD .error, n)

theorem munchOne_pos (w : Bytes) : 0 < (munchOne w).2 := by
  unfold munchOne
  dsimp only
  split
  · exact Nat.one_pos
  · omega

/-- The kinds and spans of the tokens of `c` from the offset `p` on: skip the longest run of
    blanks and comments, then `eof` at the end, or the next token and the rest. -/
def tokensFrom (c : Bytes) (p : Nat) : List (TokenKind × Span) :=
  let q := p + longestIn (blankRun false) (c.drop p)
  match h : c.drop q with
  | [] => [(.eof, .empty q)]
  | b :: r =>
    have : c.length - (q + (munchOne (b :: r)).2) < c.length - p := by
      have hq : q < c.length := by
        have := congrArg List.length h
        simp at this
        omega
      have := munchOne_pos (b :: r)
      omega
    ((munchOne (b :: r)).1, ⟨q, q + (munchOne (b :: r)).2⟩) ::
      tokensFrom c (q + (munchOne (b :: r)).2)
termination_by c.length - p

/-- The kinds and spans of the tokens of `c`. -/
def tokens (c : Bytes) : List (TokenKind × Span) := tokensFrom c 0

example : tokens (Bytes.ofString "x..=1.5 # c\n!y") =
    [(.ident, ⟨0, 1⟩), (.dotDotEq, ⟨1, 4⟩), (.float, ⟨4, 7⟩), (.error, ⟨12, 13⟩),
     (.ident, ⟨13, 14⟩), (.eof, ⟨14, 14⟩)] := by
  decide +kernel

/-! ## 4. The longest prefix, characterised -/

section Longest

variable {p : Bytes → Bool} {w : Bytes} {n : Nat}

theorem longestUpTo_le (k : Nat) : longestUpTo p w k ≤ k := by
  induction k with
  | zero => exact Nat.le_refl _
  | succ k ih =>
    unfold longestUpTo
    split <;> omega

theorem longestIn_le : longestIn p w ≤ w.length := longestUpTo_le _

/-- **The longest prefix is `n`** when `p` accepts the prefix of length `n` (or `n` is zero) and
    no longer prefix. -/
theorem longestIn_eq (hn : n ≤ w.length) (hp : n = 0 ∨ p (w.take n) = true)
    (hmax : ∀ j, n < j → j ≤ w.length → p (w.take j) = false) : longestIn p w = n := by
  -- scan down from the whole word: every length above `n` is refused, `n` is accepted
  have hgo : ∀ k, n ≤ k → k ≤ w.length → longestUpTo p w k = n := by
    intro k hnk hk
    induction k with
    | zero =>
      simp only [longestUpTo]
      omega
    | succ k ih =>
      rcases Nat.eq_or_lt_of_le hnk with rfl | hlt
      · rcases hp with h | h
        · omega
        · simp [longestUpTo, h]
      · rw [longestUpTo, if_neg (by simp [hmax (k + 1) hlt hk])]
        exact ih (by omega) (by omega)
  exact hgo w.length hn (Nat.le_refl _)

end Longest

/-- A prefix of a word lies in a class exactly when it lies in the word's run of that class. -/
theorem all_take_iff (q : UInt8 → Bool) {w : Bytes} {j : Nat} (hj : j ≤ w.length) :
    (w.take j).all q = true ↔ j ≤ (w.takeWhile q).length := by
  induction w generalizing j with
  | nil => simp_all
  | cons b w ih =>
    cases j with
    | zero => simp
    | succ j =>
      have hj' : j ≤ w.length := by simpa using hj
      by_cases hb : q b = true
      · simp [hb, ih hj']
      · simp [hb]

theorem munchOne_of_longest {w : Bytes} {n : Nat} {k : TokenKind} (hn : n ≤ w.length)
    (hk : kindOf (w.take n) = some k)
    (hmax : ∀ j, n < j → j ≤ w.length → kindOf (w.take j) = none) :
    munchOne w = (k, n) := by
  have hl : longestIn (fun u => (kindOf u).isSome) w = n :=
    longestIn_eq hn (.inr (by simp [hk])) (fun j hj hjw => by simp [hmax j hj hjw])
  have hn0 : n ≠ 0 := by
    rintro rfl
    simp [kindOf, isIdent, isInt, isRadixInt, isDecimal, isFloat, punctuator, punctuators] at hk
  simp [munchOne, hl, hn0, hk]

theorem munchOne_of_none {w : Bytes}
    (h : ∀ j, 0 < j → j ≤ w.length → kindOf (w.take j) = none) :
    munchOne w = (.error, 1) := by
  have hl : longestIn (fun u => (kindOf u).isSome) w = 0 :=
    longestIn_eq (Nat.zero_le _) (.inl rfl) (fun j hj hjw => by simp [h j hj hjw])
  simp [munchOne, hl]

theorem munchOne_le {w : Bytes} (hw : w ≠ []) : (munchOne w).2 ≤ w.length := by
  have hl := longestIn_le (p := fun u => (kindOf u).isSome) (w := w)
  have h1 : 0 < w.length := List.length_pos_iff.mpr hw
  unfold munchOne
  dsimp only
  split
  · exact h1
  · exact hl

/-! ## 5. Which prefixes lie in each class -/

theorem isIdent_take {b : UInt8} (hb : identStart.mem b = true) (r : Bytes) {j : Nat}
    (hj : j ≤ r.length + 1) :
    isIdent ((b :: r).take j) =
      decide (1 ≤ j ∧ j ≤ (r.takeWhile identContinue.mem).length + 1) := by
  cases j with
  | zero => rfl
  | succ j =>
    have hj' : j ≤ r.length := by omega
    simp only [List.take_succ_cons, isIdent, hb, Bool.true_and]
    rw [Bool.eq_iff_iff, all_take_iff _ hj']
    simp

theorem isDecimal_take (w : Bytes) {j : Nat} (hj : j ≤ w.length) :
    isDecimal (w.take j) = decide (1 ≤ j ∧ j ≤ (w.takeWhile digit.mem).length) := by
  have he : (w.take j).isEmpty = decide (j = 0) := by
    cases j with
    | zero => rfl
    | succ j =>
      cases w with
      | nil => simp at hj
      | cons b w => rfl
  rw [isDecimal, he, Bool.eq_iff_iff]
  simp only [Bool.and_eq_true, Bool.not_eq_true', decide_eq_false_iff_not, all_take_iff _ hj,
    decide_eq_true_eq]
  omega

/-- A radix literal starts `0` and a radix letter, and its body runs as far as the body class. -/
theorem isRadixInt_take (x : UInt8) (t : Bytes) {j : Nat} (hj : 2 ≤ j)
    (hjt : j ≤ t.length + 2) :
    isRadixInt ((ascii '0' :: x :: t).take j) =
      match radixBody x with
      | some cls => decide (j ≤ (t.takeWhile cls.mem).length + 2)
      | none => false := by
  obtain ⟨j, rfl⟩ : ∃ i, j = i + 2 := ⟨j - 2, by omega⟩
  simp only [List.take_succ_cons, isRadixInt, beq_self_eq_true, Bool.true_and]
  split
  · rw [Bool.eq_iff_iff, all_take_iff _ (by omega)]
    simp
  · rfl

theorem isRadixInt_of_ne {b : UInt8} (hb : b ≠ ascii '0') (v : Bytes) :
    isRadixInt (b :: v) = false := by
  cases v with
  | nil => rfl
  | cons x t => simp [isRadixInt, hb]

/-- A float's prefixes: after the run of `D` digits stands a point, and at least one and at most
    all of the digits after it. -/
theorem isFloat_take (w : Bytes) {j : Nat} (hj : j ≤ w.length) :
    isFloat (w.take j) = decide (1 ≤ (w.takeWhile digit.mem).length ∧
      w[(w.takeWhile digit.mem).length]? = some (ascii '.') ∧
      (w.takeWhile digit.mem).length + 2 ≤ j ∧
      j ≤ (w.takeWhile digit.mem).length + 1 +
        ((w.drop ((w.takeWhile digit.mem).length + 1)).takeWhile digit.mem).length) := by
  have hne : (w.takeWhile digit.mem).isEmpty = decide ((w.takeWhile digit.mem).length = 0) := by
    cases w.takeWhile digit.mem <;> rfl
  obtain ⟨d, hd⟩ : ∃ d, (w.takeWhile digit.mem).length = d := ⟨_, rfl⟩
  rw [hd]
  rw [hd] at hne
  have hdw : d ≤ w.length := hd ▸ (List.takeWhile_prefix digit.mem).length_le
  -- the digits of the prefix are the first `j` digits of the word
  have hwhole : ((w.take j).takeWhile digit.mem).length = min d j := by
    rw [← List.take_takeWhile, List.length_take, hd]
    omega
  by_cases hjd : j ≤ d
  · -- the prefix is all digits: no point follows
    have hdrop : (w.take j).drop ((w.take j).takeWhile digit.mem).length = [] := by
      rw [hwhole, List.drop_eq_nil_iff, List.length_take]
      omega
    simp only [isFloat, hdrop]
    symm
    rw [decide_eq_false_iff_not]
    rintro ⟨-, -, h, -⟩
    omega
  · -- the whole part is the run of `d` digits; the point and the fraction follow it
    have hwl : (w.take j).takeWhile digit.mem = w.takeWhile digit.mem := by
      rw [← List.take_takeWhile, List.take_of_length_le (by omega)]
    have hlt : d < w.length := by omega
    have hsplit : (w.take j).drop d = w[d] :: (w.drop (d + 1)).take (j - d - 1) := by
      obtain ⟨k, hk⟩ : ∃ k, j - d = k + 1 := ⟨j - d - 1, by omega⟩
      rw [List.drop_take, ← List.getElem_cons_drop hlt, hk, List.take_succ_cons]
      congr 2
    have hfrac := @isDecimal_take (w.drop (d + 1)) (j - d - 1) (by simp; omega)
    simp only [isFloat, hwl, hd, hsplit, hne, hfrac, List.getElem?_eq_getElem hlt]
    rw [Bool.eq_iff_iff]
    simp only [Bool.and_eq_true, Bool.not_eq_true', decide_eq_false_iff_not, decide_eq_true_eq,
      beq_iff_eq, Option.some.injEq]
    constructor
    · rintro ⟨⟨h0, hp⟩, h1, h2⟩
      exact ⟨by omega, hp, by omega, by omega⟩
    · rintro ⟨h0, hp, h1, h2⟩
      exact ⟨⟨by omega, hp⟩, by omega, by omega⟩

/-! ## 6. The class of a lexeme, by its first byte -/

theorem digit_not_identStart : ∀ b : UInt8, digit.mem b = true → identStart.mem b = false := by
  decide +kernel

/-- No punctuator starts with a digit, or with a byte that starts an identifier. -/
theorem punctuators_head :
    ∀ e ∈ punctuators, ∀ b ∈ e.1.head?,
      digit.mem b = false ∧ identStart.mem b = false := by
  decide +kernel

theorem punctuator_eq_some {w : Bytes} {k : TokenKind} (h : punctuator w = some k) :
    (w, k) ∈ punctuators := by
  obtain ⟨e, he, rfl⟩ := Option.map_eq_some_iff.mp h
  have hw : e.1 = w := by simpa using List.find?_some he
  rw [← hw]
  exact List.mem_of_find?_eq_some he

theorem punctuator_of_head {b : UInt8} (h : digit.mem b = true ∨ identStart.mem b = true)
    (v : Bytes) : punctuator (b :: v) = none := by
  cases hp : punctuator (b :: v) with
  | none => rfl
  | some k =>
    have hb := punctuators_head _ (punctuator_eq_some hp) b rfl
    rcases h with h | h <;> simp [h] at hb

theorem isInt_of_not_digit {b : UInt8} (hb : digit.mem b = false) (v : Bytes) :
    isInt (b :: v) = false := by
  have h0 : b ≠ ascii '0' := by
    rintro rfl
    exact absurd hb (by decide)
  simp [isInt, isRadixInt_of_ne h0, isDecimal, hb]

theorem isFloat_of_not_digit {b : UInt8} (hb : digit.mem b = false) (v : Bytes) :
    isFloat (b :: v) = false := by
  simp [isFloat, hb]

theorem kindOf_nil : kindOf [] = none := by decide

/-- A word that starts an identifier has no other class. -/
theorem kindOf_identStart {w : Bytes} (hw : ∀ b ∈ w.head?, identStart.mem b = true) :
    kindOf w = if isIdent w then
      some (if w = [ascii '_'] then .underscore else TokenKind.fromWord w) else none := by
  cases w with
  | nil => simp [kindOf_nil, isIdent]
  | cons b v =>
    have hb : identStart.mem b = true := hw b rfl
    have hd : digit.mem b = false := by
      cases h : digit.mem b with
      | false => rfl
      | true => simp [digit_not_identStart b h] at hb
    simp [kindOf, isInt_of_not_digit hd, isFloat_of_not_digit hd, punctuator_of_head (.inr hb)]

/-- A word that starts with a digit is an integer, a float, or nothing. -/
theorem kindOf_digit {w : Bytes} (hw : ∀ b ∈ w.head?, digit.mem b = true) :
    kindOf w = if isInt w then some .int else if isFloat w then some .float else none := by
  cases w with
  | nil => simp [kindOf_nil, isInt, isRadixInt, isDecimal, isFloat]
  | cons b v =>
    have hb : digit.mem b = true := hw b rfl
    have hi : identStart.mem b = false := digit_not_identStart b hb
    simp [kindOf, isIdent, hi, punctuator_of_head (.inl hb)]

/-- Any other word is a punctuator or nothing. -/
theorem kindOf_punct {w : Bytes}
    (hw : ∀ b ∈ w.head?, digit.mem b = false ∧ identStart.mem b = false) :
    kindOf w = punctuator w := by
  cases w with
  | nil => simp [kindOf_nil, punctuator, punctuators]
  | cons b v =>
    obtain ⟨hd, hi⟩ := hw b rfl
    simp [kindOf, isIdent, hi, isInt_of_not_digit hd, isFloat_of_not_digit hd]

/-- Every prefix of `b :: r` but the empty one starts with `b`. -/
theorem head?_take_cons {b c : UInt8} {r : Bytes} {j : Nat} (h : c ∈ ((b :: r).take j).head?) :
    c = b := by
  cases j with
  | zero => simp at h
  | succ j => simpa using h.symm

/-! ## 7. The tokenizer, one step -/

theorem tokensFrom_of_nil {c : Bytes} {p : Nat}
    (h : c.drop (p + longestIn (blankRun false) (c.drop p)) = []) :
    tokensFrom c p = [(.eof, .empty (p + longestIn (blankRun false) (c.drop p)))] := by
  rw [tokensFrom]
  split
  · rfl
  · rename_i b r h'
    rw [h] at h'
    cases h'

theorem tokensFrom_of_cons {c : Bytes} {p : Nat} {b : UInt8} {r : Bytes}
    (h : c.drop (p + longestIn (blankRun false) (c.drop p)) = b :: r) :
    tokensFrom c p =
      ((munchOne (b :: r)).1, ⟨p + longestIn (blankRun false) (c.drop p),
        p + longestIn (blankRun false) (c.drop p) + (munchOne (b :: r)).2⟩) ::
      tokensFrom c (p + longestIn (blankRun false) (c.drop p) + (munchOne (b :: r)).2) := by
  rw [tokensFrom]
  split
  · rename_i h'
    rw [h] at h'
    cases h'
  · rename_i b' r' h'
    rw [h] at h'
    obtain ⟨rfl, rfl⟩ := List.cons.inj h'
    rfl

end Grammar

end Frond
