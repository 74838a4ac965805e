/-!
# Similarity of names

The Jaro similarity of two texts `a` and `b`, used to suggest a known name for a mistyped one.

* Two characters match when they are equal and their positions differ by at most
  `max |a| |b| / 2 - 1`. Each character of `a` in turn takes the first unmatched equal
  character of `b` in that window.
* With `m` matches and `t` half the number of places where the matched characters of `a` and
  of `b`, read in order, differ, the similarity is `(m/|a| + m/|b| + (m - t)/m) / 3`; it is 0
  when nothing matches, and 1 for two empty texts.

Scores are kept as exact fractions. `similar` keeps the names scoring above 7/10, from the
least to the most similar, names of equal score in their given order.
-/

namespace Frond

namespace Similarity

/-- A score `num / den`. -/
structure Score where
  num : Nat
  den : Nat
  deriving DecidableEq, Repr

/-- Whether one score is at most another. -/
def Score.le (x y : Score) : Bool := x.num * y.den ≤ y.num * x.den

/-- How far apart two matching positions may lie. -/
def window (la lb : Nat) : Nat := max la lb / 2 - 1

/-- The first position `j` in `[lo, hi)` of `b` holding `c` and not yet taken. -/
def findFree (b : List Char) (taken : List Bool) (c : Char) (lo : Nat) : Nat → Option Nat
  | 0 => none
  | k + 1 =>
    if b.getD lo ' ' == c && !taken.getD lo true then some lo
    else findFree b taken c (lo + 1) k

/-- Marks the characters of `a` and of `b` that match. -/
def matchMarks (a b : List Char) : List Bool × List Bool :=
  let r := window a.length b.length
  let step := fun (acc : List Bool × List Bool) (ic : Nat × Char) =>
    let (i, c) := ic
    let lo := i - r
    let hi := min b.length (i + r + 1)
    match findFree b acc.2 c lo (hi - lo) with
    | some j => (acc.1.set i true, acc.2.set j true)
    | none => acc
  (a.zipIdx.map (fun (c, i) => (i, c))).foldl step
    (List.replicate a.length false, List.replicate b.length false)

/-- The characters whose mark is set, in order. -/
def marked (cs : List Char) (marks : List Bool) : List Char :=
  (cs.zip marks).filterMap fun (c, m) => if m then some c else none

/-- The Jaro similarity of two texts. -/
def jaro (a b : String) : Score :=
  let a := a.toList
  let b := b.toList
  if a.isEmpty && b.isEmpty then ⟨1, 1⟩
  else if a.isEmpty || b.isEmpty then ⟨0, 1⟩
  else
    let (ma, mb) := matchMarks a b
    let xs := marked a ma
    let ys := marked b mb
    let m := xs.length
    let t := ((xs.zip ys).filter fun (x, y) => x != y).length / 2
    if m == 0 then ⟨0, 1⟩
    else ⟨m * m * b.length + m * m * a.length + (m - t) * a.length * b.length,
      3 * a.length * b.length * m⟩

/-- Whether a score is above the suggestion threshold 7/10. -/
def Score.close (x : Score) : Bool := 7 * x.den < 10 * x.num

/-- Puts a scored name before the first one of a higher score. -/
def insertByScore (x : Score × String) : List (Score × String) → List (Score × String)
  | [] => [x]
  | y :: ys => if y.1.le x.1 then y :: insertByScore x ys else x :: y :: ys

/-- The names scoring above 7/10 against `v`, least similar first; names of equal score keep
    their order. -/
def similar (v : String) (names : List String) : List String :=
  let scored := (names.map fun n => (jaro v n, n)).filter (·.1.close)
  (scored.foldl (fun acc x => insertByScore x acc) []).map (·.2)

/-- The most similar name above the threshold; of equal scores the last one. -/
def best? (v : String) (names : List String) : Option String := (similar v names).getLast?

example : jaro "martha" "marhta" = ⟨6 * 6 * 6 + 6 * 6 * 6 + 5 * 6 * 6, 3 * 6 * 6 * 6⟩ := by
  decide
example : similar "lexx" ["lex", "sim", "help"] = ["lex"] := by decide
example : similar "lx" ["lex", "sim", "help"] = [] := by decide
example : best? "version" ["arena-block-size", "no-fail", "verbose", "help"] = some "verbose" := by
  decide +kernel
example : best? "bogus" ["verbose", "help", "version"] = none := by decide

end Similarity

end Frond
