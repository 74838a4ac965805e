import Frond.Proofs.Lexer.Grammar
import Frond.Proofs.Lexer.Step

/-!
# Maximal munch

On a source whose input holds no double quote, no string or interpolation opens, and the
lexer's tokens are the grammar's (`Frond.Proofs.Lexer.Grammar`): after the longest run of blanks
and comments, the longest prefix that lies in a token class, or one byte as an error.

* The scanner's byte tests are the grammar's byte classes (`isDigit_eq` and its kin).
* `longestIn_blankRun`: the blanks the lexer skips are the longest run of them.
* `munchOne_plain`: the lexeme `plain` reads is the longest prefix that has a kind. By its first
  byte: an identifier (`munchOne_word`), a number (`munchOne_radix`, `munchOne_float`,
  `munchOne_decimal`), or punctuation (`munchOne_operator`).
* `Lexer.tokens_munch`: the same for every token of a run, by induction over the calls of
  `next` from any cursor outside every interpolation; `tokens_maximal_munch` from the start of a
  source.
-/

namespace Frond

open Scan Grammar
open Bytes (ascii lf)

/-! ## 1. The scanner's byte tests are the grammar's classes -/

set_option maxRecDepth 8000 in
theorem isBlank_eq : ∀ b : UInt8, Scan.isBlank b = blank.mem b := by decide

set_option maxRecDepth 8000 in
theorem isDigit_eq : ∀ b : UInt8, isDigit b = digit.mem b := by decide

set_option maxRecDepth 8000 in
theorem isIdentStart_eq : ∀ b : UInt8, isIdentStart b = identStart.mem b := by decide

set_option maxRecDepth 8000 in
theorem isIdentContinue_eq : ∀ b : UInt8, isIdentContinue b = identContinue.mem b := by
  decide

set_option maxRecDepth 8000 in
/-- The radix letters the scanner knows are the grammar's, and so are the bodies after them. -/
theorem radixOf_body {x : UInt8} {k : Nat} (h : radixOf x = some k) :
    ∃ cls, radixBody x = some cls ∧
      ∀ b, (b == ascii '_' || isRadixDigit k b) = cls.mem b := by
  unfold radixOf at h
  split_ifs at h with h16 h2 h8 <;> cases h
  · exact ⟨hexBody, by simp [radixBody, h16], by decide⟩
  · exact ⟨binBody, by simp [radixBody, h16, h2], by decide⟩
  · exact ⟨octBody, by simp [radixBody, h16, h2, h8], by decide⟩

theorem radixBody_of_radixOf {x : UInt8} (h : radixOf x = none) : radixBody x = none := by
  unfold radixOf at h
  split_ifs at h with h16 h2 h8
  simp [radixBody, h16, h2, h8]

set_option maxRecDepth 8000 in
/-- A radix letter is neither a digit nor a point. -/
theorem radixBody_letter :
    ∀ x : UInt8, (radixBody x).isSome → digit.mem x = false ∧ x ≠ ascii '.' := by
  decide

/-! ## 2. Blanks -/

theorem blankRun_take (e : Bool) (r : Bytes) {j : Nat} (hj : j ≤ r.length) :
    blankRun e (r.take j) = decide (j ≤ blankLength e r) := by
  induction r generalizing e j with
  | nil =>
    obtain rfl : j = 0 := by simpa using hj
    cases e <;> rfl
  | cons b r ih =>
    cases j with
    | zero => cases e <;> simp [blankRun]
    | succ j =>
      have hj' : j ≤ r.length := by simpa using hj
      rw [List.take_succ_cons]
      cases e with
      | true =>
        by_cases hb : b = lf
        · -- LF ends the comment, and is a blank itself
          subst hb
          simp [blankRun, blankLength, Scan.isBlank, ih false hj']
        · simp [blankRun, blankLength, hb, ih true hj']
      | false =>
        by_cases h1 : blank.mem b = true
        · have h1' : Scan.isBlank b = true := (isBlank_eq b).trans h1
          simp [blankRun, blankLength, h1, h1', ih false hj']
        · have h1' : Scan.isBlank b = false := by simpa [isBlank_eq b] using h1
          by_cases h2 : b = ascii '#'
          · subst h2
            simp [blankRun, blankLength, h1, h1', ih true hj']
          · simp [blankRun, blankLength, h1, h1', h2]

/-- **The lexer skips the longest run of blanks and comments.** -/
theorem longestIn_blankRun (r : Bytes) : longestIn (blankRun false) r = blankLength false r := by
  apply longestIn_eq (blankLength_le false r)
  · exact .inr (by simp [blankRun_take false r (blankLength_le false r)])
  · intro j hj hjr
    simp [blankRun_take false r hjr]
    omega

/-! ## 3. Identifiers -/

/-- An identifier takes every identifier byte that follows. -/
theorem munchOne_word {b : UInt8} (hb : isIdentStart b = true) (r : Bytes) :
    munchOne (b :: r) = ((word b r).kind, (word b r).extra + 1) := by
  have hb' : identStart.mem b = true := (isIdentStart_eq b).symm.trans hb
  have hw : ∀ j, ∀ c ∈ ((b :: r).take j).head?, identStart.mem c = true :=
    fun j c hc => (head?_take_cons hc) ▸ hb'
  have hrun : r.takeWhile isIdentContinue = r.takeWhile identContinue.mem := by
    congr 1
    funext c
    exact isIdentContinue_eq c
  obtain ⟨n, hn⟩ : ∃ n, (r.takeWhile identContinue.mem).length = n := ⟨_, rfl⟩
  have hnr : n ≤ r.length := hn ▸ (List.takeWhile_prefix _).length_le
  have hword : word b r = ⟨if b :: r.take n = [ascii '_'] then .underscore
      else TokenKind.fromWord (b :: r.take n), n, b :: r.take n⟩ := by
    simp only [word, hrun, hn, beq_iff_eq]
    by_cases hu : b :: r.take n = [ascii '_']
    · rw [if_pos hu, if_pos hu]
    · rw [if_neg hu, if_neg hu]
  rw [hword]
  show munchOne (b :: r) = (if b :: r.take n = [ascii '_'] then .underscore
      else TokenKind.fromWord (b :: r.take n), n + 1)
  refine munchOne_of_longest (by simpa using hnr) ?_ ?_
  · rw [kindOf_identStart (hw _), isIdent_take hb' r (by omega)]
    simp [hn]
  · intro j hj hjr
    rw [kindOf_identStart (hw _), isIdent_take hb' r hjr]
    simp [hn]
    omega

/-! ## 4. Numbers -/

section Number

variable {d : UInt8} {r : Bytes}

theorem digit_zero : digit.mem (ascii '0') = true := by decide

theorem takeWhile_isDigit (r : Bytes) : r.takeWhile isDigit = r.takeWhile digit.mem := by
  congr 1
  funext c
  exact isDigit_eq c

/-- The digits that start a number: its first digit and the digits after it. -/
theorem digits_cons (hd : isDigit d = true) :
    ((d :: r).takeWhile digit.mem).length = (r.takeWhile isDigit).length + 1 := by
  have hd' : digit.mem d = true := (isDigit_eq d).symm.trans hd
  simp [List.takeWhile_cons_of_pos hd', takeWhile_isDigit]

/-- With no radix letter after a leading `0`, no prefix is a radix literal. -/
theorem isRadixInt_take_of_none (h : (if d == ascii '0' then r.head?.bind radixOf else none) = none)
    (j : Nat) : isRadixInt ((d :: r).take j) = false := by
  cases j with
  | zero => rfl
  | succ j =>
    rw [List.take_succ_cons]
    by_cases h0 : d = ascii '0'
    · subst h0
      cases r with
      | nil => cases j <;> rfl
      | cons x t =>
        have hx : radixOf x = none := by simpa using h
        cases j with
        | zero => rfl
        | succ j => simp [isRadixInt, radixBody_of_radixOf hx]
    · exact isRadixInt_of_ne h0 _

theorem exists_of_takeWhile_length_pos {p : UInt8 → Bool} {l : Bytes}
    (h : 0 < (l.takeWhile p).length) : ∃ a t, l = a :: t ∧ p a = true := by
  cases l with
  | nil => simp at h
  | cons a t =>
    by_cases ha : p a = true
    · exact ⟨a, t, rfl, ha⟩
    · simp [List.takeWhile_cons_of_neg ha] at h

/-- A radix literal takes its body: the longest prefix is `0`, the letter and the body. -/
theorem munchOne_radix {x : UInt8} {t : Bytes} {k : Nat} (hk : radixOf x = some k) :
    munchOne (ascii '0' :: x :: t) =
      (.int, (t.takeWhile fun b => b == ascii '_' || isRadixDigit k b).length + 2) := by
  obtain ⟨cls, hcls, hbody⟩ := radixOf_body hk
  have hrun : (t.takeWhile fun b => b == ascii '_' || isRadixDigit k b) = t.takeWhile cls.mem := by
    congr 1
    funext c
    exact hbody c
  obtain ⟨n, hn⟩ : ∃ n, (t.takeWhile cls.mem).length = n := ⟨_, rfl⟩
  rw [hrun, hn]
  have hnt : n ≤ t.length := hn ▸ (List.takeWhile_prefix _).length_le
  obtain ⟨hxd, hxp⟩ := radixBody_letter x (by simp [hcls])
  have hw : ∀ j, ∀ c ∈ ((ascii '0' :: x :: t).take j).head?, digit.mem c = true :=
    fun j c hc => (head?_take_cons hc) ▸ digit_zero
  -- the digits stop at the radix letter, and a float needs a point there
  have hone : ((ascii '0' :: x :: t).takeWhile digit.mem).length = 1 := by
    have hx' : ¬digit.mem x = true := by simp [hxd]
    simp [List.takeWhile_cons_of_pos digit_zero, List.takeWhile_cons_of_neg hx']
  refine munchOne_of_longest (by simp; omega) ?_ ?_
  · rw [kindOf_digit (hw _), isInt, isRadixInt_take x t (by omega) (by omega), hcls]
    simp [hn]
  · intro j hj hjr
    have hjr' : j ≤ t.length + 2 := by simpa using hjr
    rw [kindOf_digit (hw _), isInt, isRadixInt_take x t (by omega) hjr', hcls,
      isDecimal_take _ hjr, isFloat_take _ hjr, hone]
    simp [hn, hxp]
    omega

/-- A point and a digit after the digits make a float, which takes the digits after the
    point. -/
theorem munchOne_float (hd : isDigit d = true)
    (hrad : (if d == ascii '0' then r.head?.bind radixOf else none) = none) {q : UInt8}
    {t : Bytes} (hp : r.drop (r.takeWhile isDigit).length = ascii '.' :: q :: t)
    (hq : isDigit q = true) :
    munchOne (d :: r) = (.float, (r.takeWhile isDigit).length + 1 +
      ((r.drop ((r.takeWhile isDigit).length + 1)).takeWhile isDigit).length + 1) := by
  have hd' : digit.mem d = true := (isDigit_eq d).symm.trans hd
  have hw : ∀ j, ∀ c ∈ ((d :: r).take j).head?, digit.mem c = true :=
    fun j c hc => (head?_take_cons hc) ▸ hd'
  obtain ⟨w, hwr⟩ : ∃ w, (r.takeWhile isDigit).length = w := ⟨_, rfl⟩
  obtain ⟨f, hf⟩ : ∃ f, ((r.drop (w + 1)).takeWhile isDigit).length = f := ⟨_, rfl⟩
  rw [hwr] at hp ⊢
  rw [hf]
  have hD := digits_cons (r := r) hd
  rw [hwr] at hD
  -- the word after the point, as the grammar reads it
  have hdrop : (d :: r).drop (w + 1 + 1) = r.drop (w + 1) := rfl
  have hfrac : (((d :: r).drop (w + 1 + 1)).takeWhile digit.mem).length = f := by
    rw [hdrop, ← takeWhile_isDigit, hf]
  have hpt : (d :: r)[w + 1]? = some (ascii '.') := by
    have h0 : (r.drop w)[0]? = some (ascii '.') := by
      rw [hp]
      rfl
    rw [List.getElem?_drop, Nat.add_zero] at h0
    simpa using h0
  have hf1 : 1 ≤ f := by
    have hq' : r.drop (w + 1) = q :: t := by
      rw [← List.drop_drop, hp]
      rfl
    rw [← hf, hq', List.takeWhile_cons_of_pos hq]
    simp
  have hlen : w + 1 + f + 1 ≤ (d :: r).length := by
    have := congrArg List.length hp
    have hft : f ≤ t.length + 1 := by
      rw [← hf]
      exact ((List.takeWhile_prefix _).length_le).trans (by simp [← List.drop_drop, hp])
    simp at this ⊢
    omega
  refine munchOne_of_longest hlen ?_ ?_
  · rw [kindOf_digit (hw _), isInt, isRadixInt_take_of_none hrad, isDecimal_take _ hlen,
      isFloat_take _ hlen, hD, hfrac, hpt]
    simp only [Bool.false_or, decide_eq_true_eq]
    split_ifs with hint hfloat
    · exact absurd hint (by omega)
    · rfl
    · exact (hfloat ⟨by omega, trivial, by omega, by omega⟩).elim
  · intro j hj hjr
    rw [kindOf_digit (hw _), isInt, isRadixInt_take_of_none hrad, isDecimal_take _ hjr,
      isFloat_take _ hjr, hD, hfrac]
    simp only [Bool.false_or, decide_eq_true_eq]
    split_ifs with hint hfloat
    · exact absurd hint.2 (by omega)
    · exact absurd hfloat.2.2.2 (by omega)
    · rfl

/-- Otherwise a number is its digits. -/
theorem munchOne_decimal (hd : isDigit d = true)
    (hrad : (if d == ascii '0' then r.head?.bind radixOf else none) = none)
    (hnf : ¬∃ q t, r.drop (r.takeWhile isDigit).length = ascii '.' :: q :: t ∧
      isDigit q = true) :
    munchOne (d :: r) = (.int, (r.takeWhile isDigit).length + 1) := by
  have hd' : digit.mem d = true := (isDigit_eq d).symm.trans hd
  have hw : ∀ j, ∀ c ∈ ((d :: r).take j).head?, digit.mem c = true :=
    fun j c hc => (head?_take_cons hc) ▸ hd'
  obtain ⟨w, hwr⟩ : ∃ w, (r.takeWhile isDigit).length = w := ⟨_, rfl⟩
  rw [hwr] at hnf ⊢
  have hD := digits_cons (r := r) hd
  rw [hwr] at hD
  have hlen : w + 1 ≤ (d :: r).length := by
    rw [← hD]
    exact (List.takeWhile_prefix _).length_le
  refine munchOne_of_longest hlen ?_ ?_
  · rw [kindOf_digit (hw _), isInt, isRadixInt_take_of_none hrad, isDecimal_take _ hlen, hD]
    simp
  · intro j hj hjr
    -- a float would need a point after the digits and a digit after the point
    have hnofloat : isFloat ((d :: r).take j) = false := by
      rw [isFloat_take _ hjr, hD, decide_eq_false_iff_not]
      rintro ⟨-, hpt, h2, h3⟩
      obtain ⟨q, t, hqt, hq⟩ := exists_of_takeWhile_length_pos (p := digit.mem)
        (l := (d :: r).drop (w + 1 + 1)) (by omega)
      apply hnf
      refine ⟨q, t, ?_, (isDigit_eq q).trans hq⟩
      have hpt' : r[w]? = some (ascii '.') := by simpa using hpt
      have hsplit : r.drop w = ascii '.' :: r.drop (w + 1) := by
        rw [← List.getElem_cons_drop (by
          have := List.getElem?_eq_some_iff.mp hpt'
          exact this.1)]
        congr 1
        simpa using (List.getElem?_eq_some_iff.mp hpt').2
      rw [hsplit, show r.drop (w + 1) = (d :: r).drop (w + 1 + 1) from rfl, hqt]
    rw [kindOf_digit (hw _), isInt, isRadixInt_take_of_none hrad, isDecimal_take _ hjr, hD,
      hnofloat]
    simp
    omega

/-- **A number by the longest match.** -/
theorem munchOne_number (hd : isDigit d = true) :
    munchOne (d :: r) = ((number d r).kind, (number d r).extra + 1) := by
  cases hrad : (if d == ascii '0' then r.head?.bind radixOf else none) with
  | some k =>
    -- a radix literal: `0`, a radix letter, and its body
    have h0 : d = ascii '0' := by
      by_contra h
      simp [h] at hrad
    subst h0
    cases r with
    | nil => simp at hrad
    | cons x t =>
      have hk : radixOf x = some k := by simpa using hrad
      have hnum : number (ascii '0') (x :: t) = whole .int (ascii '0') (x :: t)
          ((t.takeWhile fun b => b == ascii '_' || isRadixDigit k b).length + 1) := by
        simp [number, hk]
      rw [hnum, munchOne_radix hk]
      simp [whole]
  | none =>
    unfold number
    simp only [hrad]
    split
    · rename_i p q t hpq
      split
      · rename_i hc
        simp only [Bool.and_eq_true, beq_iff_eq] at hc
        obtain ⟨rfl, hq⟩ := hc
        rw [munchOne_float hd hrad hpq hq]
        simp [whole]
      · rename_i hc
        rw [munchOne_decimal hd hrad]
        · simp [whole]
        · rintro ⟨q', t', h, hq'⟩
          rw [hpq] at h
          obtain ⟨rfl, rfl, rfl⟩ : ascii '.' = p ∧ q' = q ∧ t' = t := by simpa using h.symm
          simp [hq'] at hc
    · rename_i hno
      rw [munchOne_decimal hd hrad]
      · simp [whole]
      · rintro ⟨q, t, h, -⟩
        exact hno _ _ _ h

end Number

/-! ## 5. Punctuators -/

section Punctuation

set_option maxRecDepth 8000 in
theorem punctuators_shape :
    ∀ e ∈ punctuators, e.1.length ≤ 3 ∧
      (3 ≤ e.1.length → e.1.take 2 = [ascii '.', ascii '.']) ∧
      (2 ≤ e.1.length → ∀ b ∈ e.1.head?, b ∈ compoundBytes) := by
  decide

theorem punctuator_of_long {u : Bytes} (h : 4 ≤ u.length) : punctuator u = none := by
  cases hp : punctuator u with
  | none => rfl
  | some k =>
    have := (punctuators_shape _ (punctuator_eq_some hp)).1
    simp only at this
    omega

/-- A punctuator of three bytes starts with two points. -/
theorem punctuator_three {a b c : UInt8} (hab : [a, b] ≠ [ascii '.', ascii '.']) :
    punctuator [a, b, c] = none := by
  cases hp : punctuator [a, b, c] with
  | none => rfl
  | some k =>
    have := (punctuators_shape _ (punctuator_eq_some hp)).2.1 (by simp)
    exact absurd this hab

/-- Beyond the second byte after a byte other than a point, nothing is a punctuator. -/
theorem punctuator_take_two {b : UInt8} (hb : b ≠ ascii '.') {r : Bytes} {i : Nat} (hi : 2 ≤ i)
    (hir : i ≤ r.length) : punctuator (b :: r.take i) = none := by
  rcases Nat.eq_or_lt_of_le hi with rfl | hi3
  · match r, hir with
    | c :: x :: _, _ => exact punctuator_three (by simp [hb])
  · exact punctuator_of_long (by simp; omega)

theorem munchOne_punct {b : UInt8} (hd : digit.mem b = false) (hi : identStart.mem b = false)
    {r : Bytes} {e : Nat} {k : TokenKind} (he : e ≤ r.length)
    (hk : punctuator (b :: r.take e) = some k)
    (hmax : ∀ i, e < i → i ≤ r.length → punctuator (b :: r.take i) = none) :
    munchOne (b :: r) = (k, e + 1) := by
  have hw : ∀ j, ∀ c ∈ ((b :: r).take j).head?,
      digit.mem c = false ∧ identStart.mem c = false :=
    fun j c hc => (head?_take_cons hc) ▸ ⟨hd, hi⟩
  refine munchOne_of_longest (by simpa using he) ?_ ?_
  · rw [kindOf_punct (hw _), List.take_succ_cons]
    exact hk
  · intro j hj hjr
    obtain ⟨i, rfl⟩ : ∃ i, j = i + 1 := ⟨j - 1, by omega⟩
    rw [kindOf_punct (hw _), List.take_succ_cons]
    exact hmax i (by omega) (by simpa using hjr)

theorem munchOne_punct_none {b : UInt8} (hd : digit.mem b = false)
    (hi : identStart.mem b = false) {r : Bytes}
    (h : ∀ i, i ≤ r.length → punctuator (b :: r.take i) = none) :
    munchOne (b :: r) = (.error, 1) := by
  have hw : ∀ j, ∀ c ∈ ((b :: r).take j).head?,
      digit.mem c = false ∧ identStart.mem c = false :=
    fun j c hc => (head?_take_cons hc) ▸ ⟨hd, hi⟩
  apply munchOne_of_none
  intro j hj hjr
  obtain ⟨i, rfl⟩ : ∃ i, j = i + 1 := ⟨j - 1, by omega⟩
  rw [kindOf_punct (hw _), List.take_succ_cons]
  exact h i (by simpa using hjr)

/-- After a byte that starts punctuators of at most two bytes, the byte after it decides. -/
theorem munchOne_two {b : UInt8} (hd : digit.mem b = false) (hi : identStart.mem b = false)
    (hb : b ≠ ascii '.') (r : Bytes) :
    munchOne (b :: r) =
      match r.head?.bind (fun c => punctuator [b, c]) with
      | some k => (k, 2)
      | none => match punctuator [b] with
        | some k => (k, 1)
        | none => (.error, 1) := by
  have hlong : ∀ i, 2 ≤ i → i ≤ r.length → punctuator (b :: r.take i) = none :=
    fun i hi hir => punctuator_take_two hb hi hir
  cases r with
  | nil =>
    simp only [List.head?_nil, Option.bind_none]
    cases h1 : punctuator [b] with
    | some k =>
      exact munchOne_punct hd hi (Nat.zero_le _) h1 (fun i hi hir => by simp at hir; omega)
    | none => exact munchOne_punct_none hd hi (fun i hir => by
        obtain rfl : i = 0 := by simpa using hir
        exact h1)
  | cons c t =>
    simp only [List.head?_cons, Option.bind_some]
    cases h2 : punctuator [b, c] with
    | some k =>
      refine munchOne_punct hd hi (by simp) (by simpa using h2) (fun i hi hir => hlong i hi hir)
    | none =>
      have hpair : ∀ i, 1 ≤ i → i ≤ (c :: t).length →
          punctuator (b :: (c :: t).take i) = none := by
        intro i hi hir
        rcases Nat.eq_or_lt_of_le hi with rfl | hi2
        · simpa using h2
        · exact hlong i hi2 hir
      cases h1 : punctuator [b] with
      | some k => exact munchOne_punct hd hi (Nat.zero_le _) h1 (fun i hi hir => hpair i hi hir)
      | none =>
        refine munchOne_punct_none hd hi (fun i hir => ?_)
        rcases Nat.eq_zero_or_pos i with rfl | hi
        · exact h1
        · exact hpair i hi hir

/-- The bytes that start punctuators of two bytes and none of three. -/
def pairBytes : List UInt8 :=
  [ascii '<', ascii '>', ascii '=', ascii '!', ascii '-', ascii '|', ascii '*']

/-- The bytes that stand after the first byte of some punctuator. -/
def followBytes : List UInt8 := [ascii '-', ascii '=', ascii '>', ascii '*', ascii '.']

set_option maxRecDepth 8000 in
theorem punctuators_follow : ∀ e ∈ punctuators, ∀ c ∈ e.1.tail, c ∈ followBytes := by
  decide

theorem punctuator_of_not_follow {b c : UInt8} {v : Bytes} (hc : c ∈ v) (hf : c ∉ followBytes) :
    punctuator (b :: v) = none := by
  cases hp : punctuator (b :: v) with
  | none => rfl
  | some k => exact absurd (punctuators_follow _ (punctuator_eq_some hp) c hc) hf

/-- After those bytes the scanner also looks at one byte only. -/
theorem operator_pair {b : UInt8} (hb : b ∈ pairBytes) (c : UInt8) (t : Bytes) :
    operator b (c :: t) = operator b [c] := by
  simp only [pairBytes, List.mem_cons, List.not_mem_nil, or_false] at hb
  rcases hb with rfl | rfl | rfl | rfl | rfl | rfl | rfl <;> rfl

/-- A byte that extends no punctuator is not looked at either. -/
theorem operator_of_not_follow {b c : UInt8} (hb : b ∈ pairBytes) (hc : c ∉ followBytes) :
    operator b [c] = operator b [] := by
  simp only [followBytes, List.mem_cons, List.not_mem_nil, or_false, not_or] at hc
  obtain ⟨h1, h2, h3, h4, -⟩ := hc
  simp only [pairBytes, List.mem_cons, List.not_mem_nil, or_false] at hb
  rcases hb with rfl | rfl | rfl | rfl | rfl | rfl | rfl
  · simp [operator_lt, h1, h2]
  · simp [operator_gt, h2]
  · simp [operator_eq, h2, h3]
  · simp [operator_bang, h2]
  · simp [operator_minus, h3]
  · simp [operator_bar, h3]
  · simp [operator_star, h4]

set_option maxRecDepth 8000 in
theorem pairBytes_classes :
    ∀ b ∈ pairBytes, digit.mem b = false ∧ identStart.mem b = false ∧ b ≠ ascii '.' := by
  decide

set_option maxRecDepth 8000 in
/-- Both read the same punctuator after those bytes, at the end of the input or before a byte
    that may extend it. -/
theorem munchOne_pair_table : ∀ b ∈ pairBytes,
    ((match punctuator [b] with | some k => (k, 1) | none => (TokenKind.error, 1)) =
      match operator b [] with | some (k, e) => (k, e + 1) | none => (.error, 1)) ∧
    ∀ c ∈ followBytes, (match punctuator [b, c] with
      | some k => (k, 2)
      | none => match punctuator [b] with | some k => (k, 1) | none => (TokenKind.error, 1)) =
      match operator b [c] with | some (k, e) => (k, e + 1) | none => (.error, 1) := by
  decide

theorem munchOne_pair {b : UInt8} (hb : b ∈ pairBytes) (r : Bytes) :
    munchOne (b :: r) =
      match operator b r with | some (k, e) => (k, e + 1) | none => (.error, 1) := by
  obtain ⟨hd, hi, hdot⟩ := pairBytes_classes b hb
  rw [munchOne_two hd hi hdot r]
  cases r with
  | nil => exact (munchOne_pair_table b hb).1
  | cons c t =>
    rw [operator_pair hb c t]
    by_cases hc : c ∈ followBytes
    · exact (munchOne_pair_table b hb).2 c hc
    · -- a byte that extends nothing: both read `b` alone
      simp only [List.head?_cons, Option.bind_some,
        punctuator_of_not_follow (List.mem_singleton_self c) hc, operator_of_not_follow hb hc]
      exact (munchOne_pair_table b hb).1

/-- After a point, only a second point makes a punctuator of two bytes. -/
theorem punctuator_dot_pair {c : UInt8} (hc : c ≠ ascii '.') :
    punctuator [ascii '.', c] = none := by
  by_cases hf : c ∈ followBytes
  · simp only [followBytes, List.mem_cons, List.not_mem_nil, or_false] at hf
    rcases hf with rfl | rfl | rfl | rfl | rfl
    · decide
    · decide
    · decide
    · decide
    · exact absurd rfl hc
  · exact punctuator_of_not_follow (by simp) hf

/-- After two points, only a third point or `=` makes a punctuator of three bytes. -/
theorem punctuator_dot_triple {x : UInt8} (hx : x ≠ ascii '.') (he : x ≠ ascii '=') :
    punctuator [ascii '.', ascii '.', x] = none := by
  by_cases hf : x ∈ followBytes
  · simp only [followBytes, List.mem_cons, List.not_mem_nil, or_false] at hf
    rcases hf with rfl | rfl | rfl | rfl | rfl
    · decide
    · exact absurd rfl he
    · decide
    · decide
    · exact absurd rfl hx
  · exact punctuator_of_not_follow (by simp) hf

/-- The point: `.`, `..`, `...` and `..=`. -/
theorem munchOne_dot (r : Bytes) :
    munchOne (ascii '.' :: r) =
      match operator (ascii '.') r with | some (k, e) => (k, e + 1) | none => (.error, 1) := by
  have hd : digit.mem (ascii '.') = false := by decide
  have hi : identStart.mem (ascii '.') = false := by decide
  have hlong : ∀ i, 3 ≤ i → i ≤ r.length → punctuator (ascii '.' :: r.take i) = none :=
    fun i hi hir => punctuator_of_long (by simp; omega)
  cases r with
  | nil =>
    rw [show operator (ascii '.') [] = some (.dot, 0) from rfl]
    exact munchOne_punct hd hi (Nat.le_refl 0) (by decide) (fun i hi hir => by simp at hir; omega)
  | cons c t =>
    by_cases hc : c = ascii '.'
    · subst hc
      cases t with
      | nil =>
        rw [show operator (ascii '.') [ascii '.'] = some (.dotDot, 1) from rfl]
        exact munchOne_punct hd hi (Nat.le_refl 1) (by decide)
          (fun i hi hir => by simp at hir; omega)
      | cons x u =>
        have hthree : ∀ k, punctuator [ascii '.', ascii '.', x] = some k →
            munchOne (ascii '.' :: ascii '.' :: x :: u) = (k, 2 + 1) := fun k hk =>
          munchOne_punct hd hi (by simp) (by simpa using hk) (fun i hi hir => hlong i hi hir)
        by_cases hx : x = ascii '.'
        · subst hx
          rw [show operator (ascii '.') (ascii '.' :: ascii '.' :: u) = some (.ellipsis, 2)
            from rfl]
          exact hthree .ellipsis (by decide)
        · by_cases he : x = ascii '='
          · subst he
            rw [show operator (ascii '.') (ascii '.' :: ascii '=' :: u) = some (.dotDotEq, 2)
              from rfl]
            exact hthree .dotDotEq (by decide)
          · -- `..` followed by a third byte that extends it to no punctuator
            rw [operator_dot]
            simp only [List.head?_cons, List.drop_succ_cons, List.drop_zero, beq_self_eq_true,
              if_true, beq_iff_eq, Option.some.injEq, hx, he, if_false]
            refine munchOne_punct hd hi (by simp)
              (by simp only [List.take_succ_cons, List.take_zero]; decide) (fun i hi hir => ?_)
            rcases Nat.eq_or_lt_of_le hi with rfl | hi3
            · simpa using punctuator_dot_triple hx he
            · exact hlong i hi3 hir
    · -- a lone point
      rw [operator_dot]
      simp only [List.head?_cons, beq_iff_eq, Option.some.injEq, hc, if_false]
      refine munchOne_punct hd hi (Nat.zero_le _) (by rw [List.take_zero]; decide)
        (fun i hi hir => ?_)
      rcases Nat.eq_or_lt_of_le hi with rfl | hi2
      · simpa using punctuator_dot_pair hc
      · rcases Nat.eq_or_lt_of_le hi2 with rfl | hi3
        · cases t with
          | nil => simp at hir
          | cons x u => simpa using punctuator_three (b := c) (c := x) (by simp [hc])
        · exact hlong i hi3 hir

set_option maxRecDepth 8000 in
/-- A byte that starts no operator of two bytes is a punctuator by itself, or an error. -/
theorem munchOne_single {b : UInt8} (hd : digit.mem b = false) (hi : identStart.mem b = false)
    (hb : b ∉ compoundBytes) (r : Bytes) :
    munchOne (b :: r) = match single b with | some k => (k, 1) | none => (.error, 1) := by
  have hone : ∀ b : UInt8, b ∉ compoundBytes → punctuator [b] = single b := by decide
  -- no punctuator of more than one byte starts with `b`
  have hmore : ∀ v : Bytes, v ≠ [] → punctuator (b :: v) = none := by
    intro v hv
    cases hp : punctuator (b :: v) with
    | none => rfl
    | some k =>
      have := (punctuators_shape _ (punctuator_eq_some hp)).2.2 (by
        cases v with
        | nil => exact absurd rfl hv
        | cons _ _ => simp) b rfl
      exact absurd this hb
  have hlong : ∀ i, 0 < i → i ≤ r.length → punctuator (b :: r.take i) = none := by
    intro i hi hir
    apply hmore
    cases r with
    | nil => simp at hir; omega
    | cons c t =>
      obtain ⟨i, rfl⟩ : ∃ j, i = j + 1 := ⟨i - 1, by omega⟩
      simp
  cases hs : single b with
  | some k =>
    exact munchOne_punct hd hi (Nat.zero_le _) (by simpa [hone b hb] using hs) hlong
  | none =>
    refine munchOne_punct_none hd hi (fun i hir => ?_)
    rcases Nat.eq_zero_or_pos i with rfl | hi0
    · simpa [hone b hb] using hs
    · exact hlong i hi0 hir

/-- **Punctuation by the longest match.** -/
theorem munchOne_operator {b : UInt8} (hd : isDigit b = false) (hi : isIdentStart b = false)
    (r : Bytes) :
    munchOne (b :: r) =
      match operator b r with | some (k, e) => (k, e + 1) | none => (.error, 1) := by
  have hd' : digit.mem b = false := (isDigit_eq b).symm.trans hd
  have hi' : identStart.mem b = false := (isIdentStart_eq b).symm.trans hi
  by_cases hc : b ∈ compoundBytes
  · by_cases hdot : b = ascii '.'
    · subst hdot
      exact munchOne_dot r
    · have hp : b ∈ pairBytes := by
        simp only [compoundBytes, pairBytes, List.mem_cons, List.not_mem_nil, or_false] at hc ⊢
        tauto
      exact munchOne_pair hp r
  · rw [munchOne_single hd' hi' hc r, operator_of_not_mem hc r]
    cases single b <;> rfl

end Punctuation

/-- **One token by the longest match.** The lexeme the scanner reads from a byte `b` on takes the
    longest prefix of `b :: r` that has a kind, and has that kind; with no such prefix it is a
    one-byte error. -/
theorem munchOne_plain (b : UInt8) (r : Bytes) :
    munchOne (b :: r) = ((plain b r).kind, (plain b r).extra + 1) := by
  unfold plain
  by_cases hd : isDigit b = true
  · rw [if_pos hd]
    exact munchOne_number hd
  · rw [if_neg hd]
    by_cases hi : isIdentStart b = true
    · rw [if_pos hi]
      exact munchOne_word hi r
    · rw [if_neg hi, munchOne_operator (by simpa using hd) (by simpa using hi)]
      cases operator b r with
      | some ke => rfl
      | none => rfl

/-! ## 6. Over a whole source -/

namespace Lexer

/-- The grammar skips exactly the blanks the lexer skips. -/
theorem skip_pos (l : Lexer) :
    l.here.pos + longestIn (blankRun false) (l.input.drop l.here.pos) = l.skipBlanks.here.pos := by
  have hd : l.input.drop l.here.pos = l.rest := l.rest_eq.symm
  rw [hd, longestIn_blankRun, skipBlanks_pos]

theorem drop_skip (l : Lexer) : l.input.drop l.skipBlanks.here.pos = l.skipBlanks.rest :=
  l.skipBlanks.rest_eq.symm

/-- `next` reads `eof` exactly when only blanks are left. -/
theorem next_eof_iff (l : Lexer) : l.next.1.kind = .eof ↔ l.skipBlanks.rest = [] := by
  have hn : l.next = l.skipBlanks.read := rfl
  cases hr : l.skipBlanks.rest with
  | nil => rw [hn, read_nil hr]; simp
  | cons b r =>
    rw [hn, read_cons hr]
    simpa using scan_kind_ne_eof _ b r

/-- **One step.** Outside every interpolation, a byte other than a quote after the blanks starts
    the token the grammar reads there: the same kind over the same bytes, and the lexer stops
    where the grammar does, still outside every interpolation. -/
theorem next_munch {l : Lexer} (hd : l.nesting.depth = 0) {b : UInt8} {r : Bytes}
    (hb : b ≠ ascii '"') (h : l.skipBlanks.rest = b :: r) :
    l.next.1.kind = (munchOne (b :: r)).1 ∧
    l.next.1.span = ⟨l.skipBlanks.here.pos, l.skipBlanks.here.pos + (munchOne (b :: r)).2⟩ ∧
    l.next.2.here.pos = l.skipBlanks.here.pos + (munchOne (b :: r)).2 ∧
    l.next.2.nesting.depth = 0 := by
  -- with no interpolation open the byte starts a plain token
  have hs : scan l.nesting b r = (plain b r, countBrace l.nesting b) := by
    rcases scan_cases l.nesting b r with ⟨-, hpos, -, -⟩ | ⟨hq, -⟩ | ⟨-, -, hs⟩
    · omega
    · exact absurd hq hb
    · exact hs
  have hm := munchOne_plain b r
  have hle : (plain b r).extra + 1 ≤ r.length + 1 := by
    have := munchOne_le (List.cons_ne_nil b r)
    rw [hm] at this
    simpa using this
  have hn : l.next = l.skipBlanks.read := rfl
  rw [hn, read_cons h, skipBlanks_nesting, hs, hm]
  simp only [advance_pos, h, List.length_cons, countBrace_depth, hd, Nat.min_eq_left hle, and_self]

/-- **Maximal munch from a cursor.** With no interpolation open and no quote in the input, the
    kinds and spans of the lexer's tokens from any cursor are the grammar's from that offset. -/
theorem tokens_munch {l : Lexer} (hd : l.nesting.depth = 0) (hq : ascii '"' ∉ l.input) :
    l.tokens.map (fun t => (t.kind, t.span)) = tokensFrom l.input l.here.pos := by
  -- the induction follows the lexer's own run, one call of `next` a step
  induction l using Lexer.tokens.induct with
  | case1 l t l' hnext hk =>
    -- `eof`: only blanks are left, and the grammar ends there too
    have he : l.next.1.kind = .eof := by rw [hnext]; exact hk
    have hr := (next_eof_iff l).mp he
    rw [tokens_of_eof he, tokensFrom_of_nil (by rw [skip_pos, drop_skip, hr]), skip_pos]
    show [(l.skipBlanks.read.1.kind, l.skipBlanks.read.1.span)] = _
    rw [read_nil hr]
  | case2 l t l' hnext hk _ ih =>
    have he : l.next.1.kind ≠ .eof := by rw [hnext]; exact hk
    obtain ⟨b, r, hr⟩ : ∃ b r, l.skipBlanks.rest = b :: r := by
      cases hr : l.skipBlanks.rest with
      | nil => exact absurd ((next_eof_iff l).mpr hr) he
      | cons b r => exact ⟨b, r, rfl⟩
    have hb : b ≠ ascii '"' := by
      rintro rfl
      apply hq
      exact List.mem_of_mem_drop ((drop_skip l).trans hr ▸ List.mem_cons_self)
    obtain ⟨hkind, hspan, hpos, hdepth⟩ := next_munch hd hb hr
    have hi : l.next.2.input = l.input := next_input l
    rw [hnext] at hkind hspan hpos hdepth hi
    simp only at hkind hspan hpos hdepth hi
    have hcons : l.input.drop (l.here.pos + longestIn (blankRun false) (l.input.drop l.here.pos)) =
        b :: r := by rw [skip_pos, drop_skip, hr]
    rw [tokensFrom_of_cons hcons, skip_pos, tokens_of_ne_eof he, hnext, List.map_cons,
      ih hdepth (hi ▸ hq), hi, hpos, hkind, hspan]

end Lexer

/-- **Maximal munch.** On every source whose input (the bytes before the first NUL) holds no
    quote, so that no string opens, the kinds and spans of the tokens are those of the grammar's
    longest-match tokenizer: it skips the longest run of blanks and comments, ends with `eof` at
    the end of the input, and otherwise takes the longest prefix that is an identifier or
    keyword, an integer, a float or a punctuator, or one byte as an error where none is. -/
theorem tokens_maximal_munch (source : Bytes) (h : ascii '"' ∉ source.beforeNul) :
    (Lexer.ofSource source).tokens.map (fun t => (t.kind, t.span)) =
      Grammar.tokens source.beforeNul :=
  Lexer.tokens_munch rfl h

/-- Operators that are prefixes of one another, numbers beside points, a radix literal, a lone
    `!`, a comment and a keyword. -/
theorem tokens_maximal_munch_prefixes :
    ascii '"' ∉ (Bytes.ofString "a..=b...c 1..2 0x1F 1.5 x!=y !z <- # c\n_ if").beforeNul ∧
    (Lexer.ofSource (Bytes.ofString "a..=b...c 1..2 0x1F 1.5 x!=y !z <- # c\n_ if")).tokens.map
        (fun t => (t.kind, t.span)) =
      Grammar.tokens (Bytes.ofString "a..=b...c 1..2 0x1F 1.5 x!=y !z <- # c\n_ if").beforeNul :=
  have h : ascii '"' ∉
      (Bytes.ofString "a..=b...c 1..2 0x1F 1.5 x!=y !z <- # c\n_ if").beforeNul := by
    decide +kernel
  ⟨h, tokens_maximal_munch _ h⟩

end Frond
