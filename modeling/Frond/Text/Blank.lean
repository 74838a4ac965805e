/-!
# Blank characters

The characters with the Unicode property White_Space: the controls from tab to carriage return,
the space, the next-line control, the no-break spaces, the Ogham space mark, the spaces from
en quad to hair space, the line and paragraph separators, the medium mathematical space and
the ideographic space. `trimBlank` removes them from both ends of a text.
-/

namespace Frond

/-- Whether a character is blank (Unicode White_Space). -/
def isBlank (c : Char) : Bool :=
  let n := c.toNat
  (0x9 ≤ n && n ≤ 0xD) || n == 0x20 || n == 0x85 || n == 0xA0 || n == 0x1680 ||
    (0x2000 ≤ n && n ≤ 0x200A) || n == 0x2028 || n == 0x2029 || n == 0x202F || n == 0x205F ||
    n == 0x3000

/-- The characters of a text without its leading and trailing blanks. -/
def trimBlankList (cs : List Char) : List Char :=
  ((cs.dropWhile isBlank).reverse.dropWhile isBlank).reverse

/-- A text without its leading and trailing blanks. -/
def trimBlank (s : String) : String := String.ofList (trimBlankList s.toList)

/-- Every character core counts as whitespace is blank. -/
theorem isBlank_of_isWhitespace {c : Char} (h : c.isWhitespace = true) : isBlank c = true := by
  simp only [Char.isWhitespace, Bool.or_eq_true, decide_eq_true_eq] at h
  rcases h with ((h | h) | h) | h <;> subst h <;> decide

/-- What is trimmed does not end with a blank. -/
theorem trimBlankList_getLast {cs : List Char} {c : Char}
    (h : (trimBlankList cs).getLast? = some c) :
    isBlank c = false := by
  unfold trimBlankList at h
  rw [List.getLast?_reverse] at h
  generalize (cs.dropWhile isBlank).reverse = l at h
  induction l with
  | nil => simp at h
  | cons x xs ih =>
    rw [List.dropWhile_cons] at h
    split at h
    · exact ih h
    · rename_i hx
      simp only [List.head?_cons, Option.some.injEq] at h
      subst h
      simpa using hx

example : trimBlank " \t3 : 4\n" = "3 : 4" := by decide
example : trimBlank "　x " = "x" := by decide

end Frond
