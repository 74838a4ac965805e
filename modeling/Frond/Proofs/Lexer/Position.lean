import Frond.Proofs.Lexer.Step

/-!
# Lines and columns

The lexer keeps its cursor as a byte offset together with the line and column there, and moves
all three one byte at a time. This module shows that they always agree: the line is one more
than the number of LFs before the offset, and the column counts the bytes since the last of
them, from 1. Restoring a position saved on a lexer over the same source keeps the agreement,
so every token carries the line and column of its first byte.

* `lineStart`, `lineStart_spec`: the offset just after the last LF of a text, 0 if it has none.
* `Position.atOffset`, `step_atOffset`, `across_atOffset`: the position at an offset, and
  reading bytes from it leads to the position at the later offset.
* `Lexer.Aligned`: the cursor is the position at its own offset; kept by `advance`, `next`,
  `restore` of an aligned position and renaming.
* `Lexer.Reachable`: the lexers reached from `ofSource` by the lexer's operations.
* `cursor_line_column`: every reachable lexer is aligned, and every token it hands out carries
  the line and column of its first byte, `eof` included.
-/

namespace Frond

open Bytes (lf)

/-! ## 1. Where a line starts -/

/-- The offset just after the last LF of `bs`, or 0 when it has none: where the line that `bs`
    ends in starts. The bytes after that LF are the longest run at the end without one. -/
def lineStart (bs : Bytes) : Nat := bs.length - (bs.reverse.takeWhile (· != lf)).length

theorem lineStart_le (bs : Bytes) : lineStart bs ≤ bs.length := Nat.sub_le _ _

@[simp] theorem lineStart_nil : lineStart [] = 0 := rfl

theorem lineStart_append_lf (bs : Bytes) : lineStart (bs ++ [lf]) = bs.length + 1 := by
  simp [lineStart]

theorem lineStart_append_of_ne {b : UInt8} (hb : b ≠ lf) (bs : Bytes) :
    lineStart (bs ++ [b]) = lineStart bs := by
  simp [lineStart, hb]

/-- `lineStart` is the offset after the last LF: no LF comes at or after it, and the byte
    before it is an LF unless it is 0. -/
theorem lineStart_spec (bs : Bytes) :
    lf ∉ bs.drop (lineStart bs) ∧ (lineStart bs = 0 ∨ bs[lineStart bs - 1]? = some lf) := by
  induction bs using List.reverseRecOn with
  | nil => simp
  | append_singleton bs b ih =>
    by_cases hb : b = lf
    · subst hb
      rw [lineStart_append_lf]
      simp
    · rw [lineStart_append_of_ne hb]
      obtain ⟨hnone, hlast⟩ := ih
      have hle := lineStart_le bs
      refine ⟨?_, ?_⟩
      · rw [List.drop_append_of_le_length hle]
        simp [hnone, Ne.symm hb]
      · rcases Nat.eq_zero_or_pos (lineStart bs) with h0 | hpos
        · exact .inl h0
        · right
          rw [List.getElem?_append_left (by omega)]
          exact hlast.resolve_left (by omega)

/-! ## 2. The position at an offset -/

/-- The line at offset `i` of `text`: one more than the LFs before it. -/
def lineAt (text : Bytes) (i : Nat) : Nat := 1 + (text.take i).count lf

/-- The column at offset `i` of `text`: the bytes since the start of its line, counted from 1. -/
def columnAt (text : Bytes) (i : Nat) : Nat := i - lineStart (text.take i) + 1

namespace Position

/-- The position at offset `i` of `text`. -/
def atOffset (text : Bytes) (i : Nat) : Position := ⟨i, lineAt text i, columnAt text i⟩

@[simp] theorem atOffset_pos (text : Bytes) (i : Nat) : (Position.atOffset text i).pos = i := rfl

theorem atOffset_zero (text : Bytes) : Position.atOffset text 0 = origin := rfl

/-- Reading the byte at offset `i` leads from the position at `i` to the position at `i + 1`. -/
theorem step_atOffset {text : Bytes} {i : Nat} (h : i < text.length) :
    (Position.atOffset text i).step text[i] = Position.atOffset text (i + 1) := by
  have htake : text.take (i + 1) = text.take i ++ [text[i]] := List.take_succ_eq_append_getElem h
  have hlen : (text.take i).length = i := by simp; omega
  have hle : lineStart (text.take i) ≤ i := by
    have := lineStart_le (text.take i)
    rwa [hlen] at this
  unfold step Position.atOffset lineAt columnAt
  rw [htake, List.count_append]
  by_cases hb : text[i] = lf
  · -- an LF starts the next line at column 1
    rw [if_pos (by simp [hb]), hb, lineStart_append_lf, hlen]
    simp
    omega
  · rw [if_neg (by simpa using hb), lineStart_append_of_ne hb]
    simp [hb]
    omega

/-- **Reading on from a position.** Reading the next `k` bytes from the position at `i` leads to
    the position at `i + k`, or at the end of the text if that comes first. -/
theorem across_atOffset {text : Bytes} {i : Nat} (h : i ≤ text.length) (k : Nat) :
    (Position.atOffset text i).across ((text.drop i).take k) =
      Position.atOffset text (min (i + k) text.length) := by
  induction k generalizing i with
  | zero => simp [across, Nat.min_eq_left h]
  | succ k ih =>
    rcases Nat.lt_or_eq_of_le h with hlt | rfl
    · -- the first byte read is the one at `i`; the rest is read from `i + 1`
      have hdrop : text.drop i = text[i] :: text.drop (i + 1) := List.drop_eq_getElem_cons hlt
      have ih' := ih (i := i + 1) hlt
      rw [hdrop, List.take_succ_cons]
      simp only [across, List.foldl_cons] at ih' ⊢
      rw [step_atOffset hlt, ih', Nat.add_assoc, Nat.add_comm 1 k]
    · simp [across]

end Position

/-! ## 3. The cursor agrees with its offset -/

namespace Lexer

/-- The cursor lies in the input and its line and column are those of its offset. -/
def Aligned (l : Lexer) : Prop :=
  l.here.pos ≤ l.input.length ∧ l.here = Position.atOffset l.input l.here.pos

theorem aligned_ofSource (source : Bytes) : (ofSource source).Aligned :=
  ⟨Nat.zero_le _, (Position.atOffset_zero _).symm⟩

theorem aligned_advance {l : Lexer} (h : l.Aligned) (k : Nat) : (l.advance k).Aligned := by
  obtain ⟨hle, hhere⟩ := h
  -- the bytes ahead are the input from the offset on, so `advance` reads on from it
  have hrest : l.rest = l.input.drop l.here.pos := l.rest_eq
  have hmove :
      (l.advance k).here = Position.atOffset l.input (min (l.here.pos + k) l.input.length) := by
    show l.here.across (l.rest.take k) = _
    rw [hrest, hhere, Position.atOffset_pos]
    exact Position.across_atOffset hle k
  refine ⟨?_, ?_⟩
  · rw [hmove, Position.atOffset_pos, advance_input]
    exact Nat.min_le_right _ _
  · rw [hmove, Position.atOffset_pos, advance_input]

theorem aligned_skipBlanks {l : Lexer} (h : l.Aligned) : l.skipBlanks.Aligned :=
  aligned_advance h _

theorem aligned_next {l : Lexer} (h : l.Aligned) : l.next.2.Aligned := by
  have hs := aligned_skipBlanks h
  show l.skipBlanks.read.2.Aligned
  cases hr : l.skipBlanks.rest with
  | nil => rw [read_nil hr]; exact hs
  | cons b r =>
    rw [read_cons hr]
    exact aligned_advance hs _

/-- A position saved on an aligned lexer over the same input is aligned after `restore`: its
    offset is in the input, so the clamp changes nothing. -/
theorem aligned_restore {l m : Lexer} (hm : m.Aligned) (hinput : m.input = l.input) :
    (l.restore m.save).Aligned := by
  obtain ⟨hle, hhere⟩ := hm
  rw [hinput] at hle hhere
  have hclamp : min m.here.pos l.input.length = m.here.pos := Nat.min_eq_left hle
  have hsaved : (l.restore m.save).here = m.here := by
    show (⟨min m.here.pos l.input.length, m.here.line, m.here.column⟩ : Position) = m.here
    rw [hclamp]
  refine ⟨?_, ?_⟩ <;> rw [hsaved]
  · exact hle
  · exact hhere

theorem aligned_withFilename {l : Lexer} (h : l.Aligned) (name : Bytes) :
    (l.withFilename name).Aligned := h

/-- The token `next` returns starts where the lexer stands after the blanks, and carries that
    place's line and column. -/
theorem next_loc (l : Lexer) :
    l.next.1.span.start = l.skipBlanks.here.pos ∧ l.next.1.loc.line = l.skipBlanks.here.line ∧
      l.next.1.loc.column = l.skipBlanks.here.column := by
  show l.skipBlanks.read.1.span.start = _ ∧ l.skipBlanks.read.1.loc.line = _ ∧
    l.skipBlanks.read.1.loc.column = _
  cases hr : l.skipBlanks.rest with
  | nil => rw [read_nil hr]; exact ⟨rfl, rfl, rfl⟩
  | cons b r => rw [read_cons hr]; exact ⟨rfl, rfl, rfl⟩

/-- An aligned lexer hands out a token with the line and column of its first byte. -/
theorem next_loc_of_aligned {l : Lexer} (h : l.Aligned) :
    l.next.1.loc.line = lineAt l.input l.next.1.span.start ∧
      l.next.1.loc.column = columnAt l.input l.next.1.span.start := by
  obtain ⟨hstart, hline, hcol⟩ := next_loc l
  obtain ⟨-, hhere⟩ := aligned_skipBlanks h
  rw [skipBlanks_input] at hhere
  rw [hline, hcol, hstart, hhere]
  exact ⟨rfl, rfl⟩

/-! ## 4. Reachable lexers -/

/-- The lexers a program reaches over `source`: it starts with `ofSource`, may rename it, takes
    tokens with `next`, and restores positions saved on any lexer it reached over the same
    source. `peek`, `isEof` and `tokens` look ahead on a copy and leave the lexer as it is. -/
inductive Reachable (source : Bytes) : Lexer → Prop
  | start : Reachable source (ofSource source)
  | rename {l : Lexer} (name : Bytes) :
      Reachable source l → Reachable source (l.withFilename name)
  | next {l : Lexer} : Reachable source l → Reachable source l.next.2
  | restore {l m : Lexer} :
      Reachable source l → Reachable source m → Reachable source (l.restore m.save)

namespace Reachable

variable {source : Bytes} {l : Lexer}

theorem input (h : l.Reachable source) : l.input = source.beforeNul := by
  induction h with
  | start => rfl
  | rename _ _ ih => exact ih
  | next _ ih => rw [next_input, ih]
  | restore _ _ ih _ => exact ih

/-- **Every reachable lexer is aligned.** -/
theorem aligned (h : l.Reachable source) : l.Aligned := by
  induction h with
  | start => exact aligned_ofSource source
  | rename name _ ih => exact aligned_withFilename ih name
  | next _ ih => exact aligned_next ih
  | restore hl hm _ ihm => exact aligned_restore ihm (by rw [hl.input, hm.input])

theorem after (h : l.Reachable source) (i : Nat) : (l.after i).Reachable source := by
  induction i generalizing l with
  | zero => exact h
  | succ i ih => exact ih h.next

end Reachable

end Lexer

/-! ## 5. Over every reachable lexer -/

/-- **Lines and columns.** For every lexer reached over `source` by `next`, renaming and
    restoring positions saved over the same source: the cursor lies in the input, its line is
    one more than the LFs of the input before it and its column counts the bytes since the last
    of them from 1; and every token from it on (the one `next` and `peek` return, and those
    after) has the line and column of its first byte, `eof` included. -/
theorem cursor_line_column {source : Bytes} {l : Lexer} (h : l.Reachable source) :
    let input := source.beforeNul
    l.here.pos ≤ input.length ∧ l.here.line = lineAt input l.here.pos ∧
      l.here.column = columnAt input l.here.pos ∧
      ∀ t ∈ l.tokens,
        t.loc.line = lineAt input t.span.start ∧ t.loc.column = columnAt input t.span.start := by
  intro input
  obtain ⟨hle, hhere⟩ := h.aligned
  rw [h.input] at hle hhere
  refine ⟨hle, ?_, ?_, fun t ht => ?_⟩
  · rw [hhere]
    rfl
  · rw [hhere]
    rfl
  · -- the `i`th token is what `next` returns after `i` calls, from a lexer still reachable
    obtain ⟨i, hi, rfl⟩ := List.getElem_of_mem ht
    rw [Lexer.getElem_tokens l i hi]
    have hafter := h.after i
    have hloc := Lexer.next_loc_of_aligned hafter.aligned
    rw [hafter.input] at hloc
    exact hloc

/-- A lexer that read two lines and went back to the end of the first is reachable, so it
    agrees with its offset. -/
theorem cursor_line_column_restored :
    let source := Bytes.ofString "ab\ncd"
    let l := (Lexer.ofSource source).next.2.next.2.restore (Lexer.ofSource source).next.2.save
    l.Reachable source ∧
      (l.here.pos ≤ source.beforeNul.length ∧
        l.here.line = lineAt source.beforeNul l.here.pos ∧
        l.here.column = columnAt source.beforeNul l.here.pos ∧
        ∀ t ∈ l.tokens, t.loc.line = lineAt source.beforeNul t.span.start ∧
          t.loc.column = columnAt source.beforeNul t.span.start) :=
  let h := Lexer.Reachable.restore (.next (.next .start)) (.next .start)
  ⟨h, cursor_line_column h⟩

end Frond
