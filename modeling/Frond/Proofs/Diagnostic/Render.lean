import Frond.Proofs.Diagnostic.Report
import Frond.Proofs.Lexer.Position

/-!
# Rendering a diagnostic at its token

`Diagnostic.render` writes a diagnostic over three lines: its one-line form, the source line
that holds the start of its span, and a caret under that start. It finds the source line again
from the span's byte offset alone, looking back and forward for an LF in the whole source. The
lexer counted the token's line and column instead, one byte at a time, over the source up to
its first NUL. This module shows that the two agree.

* `Diagnostic.lineStart_eq`: render's line starts just after the last LF before the offset.
* `Diagnostic.render_cut`: around any offset in the source, render cuts the source into the
  bytes before the line, the line, and the rest, and writes that line with a caret under the
  offset and a tilde under each further byte of the span on the line.
* `Diagnostic.span_of_made`: a diagnostic made at a token has the token's span.
* `count_take_lineStart`, `getLast?_take_lineStart`: the bytes before a line hold every LF
  before it and end with one.
* `Bytes.take_beforeNul`: before an offset in the input, the input and the source agree.
* `token_position`: a token of a reachable lexer sits at the line and column of its first byte.
* `render_at_token`: for every token of a lexer reached over the source, the line render writes
  is the token's line and the caret stands at its column.
-/

namespace Frond

open Bytes (ascii lf)

/-! ## 1. Where render cuts the source -/

/-- The line that holds an offset inside a text starts at or before it. -/
theorem lineStart_take_le {bs : Bytes} {k : Nat} (hk : k ≤ bs.length) :
    lineStart (bs.take k) ≤ k := by
  have := lineStart_le (bs.take k)
  rwa [List.length_take, Nat.min_eq_left hk] at this

namespace Diagnostic

variable {source : Bytes} {k : Nat}

/-- Render's line starts just after the last LF before the offset. -/
theorem lineStart_eq (hk : k ≤ source.length) :
    lineStart source k = Frond.lineStart (source.take k) := by
  simp [Diagnostic.lineStart, Frond.lineStart, Nat.min_eq_left hk]

/-- **Where render cuts the source.** Around an offset `k` inside the source, the source is the
    bytes before the line that holds `k`, the line, with no LF in it, and the rest, which is
    empty or starts with an LF. A diagnostic whose span starts at `k` is written with that line,
    then one tab or space for each byte of the line before `k`, a caret, and one tilde for each
    further byte of the span up to the end of the line. -/
theorem render_cut (d : Diagnostic) (hk : d.span.start ≤ source.length) :
    let pre := source.take (Frond.lineStart (source.take d.span.start))
    ∃ text post, source = pre ++ text ++ post ∧ lf ∉ text ∧ (post = [] ∨ post.head? = some lf) ∧
      pre.length ≤ d.span.start ∧ d.span.start ≤ pre.length + text.length ∧
      d.render source = d.display ++ "\n" ++ dropTrailingCR (Bytes.lossy text) ++ "\n" ++
        String.ofList ((text.take (d.span.start - pre.length)).map fun b =>
          if b == ascii '\t' then '\t' else ' ') ++ "^" ++
        String.ofList
          (List.replicate (min d.span.stop (pre.length + text.length) - d.span.start - 1) '~') := by
  set k := d.span.start with hkdef
  set first := Frond.lineStart (source.take k) with hfirst
  intro pre
  set w := (source.drop k).takeWhile (· != lf) with hw
  set post := (source.drop k).dropWhile (· != lf) with hpost
  have hfk : first ≤ k := lineStart_take_le hk
  have hprelen : pre.length = first := by
    simp only [pre, List.length_take]
    omega
  -- the line is the part of the line before `k`, and the bytes from `k` up to the next LF
  have hbefore : (source.take k).drop first = (source.drop first).take (k - first) := List.drop_take
  have hfrom : (source.drop first).drop (k - first) = source.drop k := by
    rw [List.drop_drop, Nat.add_sub_cancel' hfk]
  have hrest : source.drop k = w ++ post := List.takeWhile_append_dropWhile.symm
  have hlenb : ((source.take k).drop first).length = k - first := by
    simp only [List.length_drop, List.length_take]
    omega
  have hline : (source.drop first).take (k + w.length - first) = (source.take k).drop first ++ w := by
    have hsplit : source.drop first = (source.take k).drop first ++ (w ++ post) := by
      rw [hbefore, ← hrest, ← hfrom, List.take_append_drop]
    rw [hsplit, show k + w.length - first = ((source.take k).drop first).length + w.length by omega,
      List.take_length_add_append, List.take_left]
  refine ⟨(source.take k).drop first ++ w, post, ?_, ?_, ?_, by omega, by simp; omega, ?_⟩
  · calc source = source.take k ++ source.drop k := (List.take_append_drop k source).symm
      _ = ((source.take k).take first ++ (source.take k).drop first) ++ (w ++ post) := by
        rw [List.take_append_drop first (source.take k), hrest]
      _ = pre ++ ((source.take k).drop first ++ w) ++ post := by
        rw [List.take_take, Nat.min_eq_left hfk]
        simp only [pre, List.append_assoc]
  · simp only [List.mem_append, not_or]
    refine ⟨(Frond.lineStart_spec _).1, fun h => ?_⟩
    have := List.all_eq_true.mp List.all_takeWhile lf h
    simp at this
  · have hhead := List.head?_dropWhile_not (· != lf) (source.drop k)
    rw [← hpost] at hhead
    cases hp : post.head? with
    | none => exact .inl (List.head?_eq_none_iff.mp hp)
    | some b =>
      rw [hp] at hhead
      simp only [bne_eq_false_iff_eq] at hhead
      exact .inr (by rw [hhead])
  · have hstart : min k source.length = k := Nat.min_eq_left hk
    have hend : pre.length + ((source.take k).drop first ++ w).length = k + w.length := by
      simp only [List.length_append, hlenb, hprelen]
      omega
    have hlast : lineEnd source k = k + w.length := rfl
    unfold render
    dsimp only
    rw [← hkdef, hstart, lineStart_eq hk, ← hfirst, hlast, hline, hend, hprelen,
      List.take_append_of_le_length (show k - first ≤ ((source.take k).drop first).length by omega),
      List.take_of_length_le (show ((source.take k).drop first).length ≤ k - first by omega),
      hbefore]

/-- A diagnostic made at a token, by `error`, `warning` or `ofToken?`, has the token's span. -/
theorem span_of_made {t : Token} {source : Bytes} {d : Diagnostic}
    (hd : (∃ m, d = error m t) ∨ (∃ m, d = warning m t) ∨ ofToken? t source = some d) :
    d.span = t.span := by
  rcases hd with ⟨m, rfl⟩ | ⟨m, rfl⟩ | hd
  · rfl
  · rfl
  · unfold ofToken? at hd
    split at hd
    · cases hd
      rfl
    · cases hd

end Diagnostic

/-! ## 2. The line before an offset -/

/-- Every LF of a text comes before the start of its last line. -/
theorem count_take_lineStart (bs : Bytes) : (bs.take (lineStart bs)).count lf = bs.count lf := by
  have hsplit := List.take_append_drop (lineStart bs) bs
  have hnone : (bs.drop (lineStart bs)).count lf = 0 :=
    List.count_eq_zero_of_not_mem (lineStart_spec bs).1
  conv_rhs => rw [← hsplit]
  rw [List.count_append, hnone, Nat.add_zero]

/-- The bytes before the start of the last line end with an LF, unless there are none. -/
theorem getLast?_take_lineStart (bs : Bytes) :
    bs.take (lineStart bs) = [] ∨ (bs.take (lineStart bs)).getLast? = some lf := by
  by_cases h0 : lineStart bs = 0
  · exact .inl (by rw [h0, List.take_zero])
  · right
    have hle := lineStart_le bs
    rw [List.getLast?_eq_getElem?, List.length_take, Nat.min_eq_left hle,
      List.getElem?_take_of_lt (by omega)]
    exact (lineStart_spec bs).2.resolve_left h0

/-- Before an offset of the input, the input is the source. -/
theorem Bytes.take_beforeNul {source : Bytes} {k : Nat} (hk : k ≤ source.beforeNul.length) :
    source.beforeNul.take k = source.take k := by
  have hsplit : source = source.beforeNul ++ source.dropWhile (· != 0) :=
    List.takeWhile_append_dropWhile.symm
  conv_rhs => rw [hsplit]
  rw [List.take_append_of_le_length hk]

/-! ## 3. At a token of the lexer -/

/-- A token of a reachable lexer starts inside the input, at the line and column of its first
    byte. -/
theorem token_position {source : Bytes} {l : Lexer} (hl : l.Reachable source) {t : Token}
    (ht : t ∈ l.tokens) :
    t.span.start ≤ source.beforeNul.length ∧ t.loc.line = lineAt source.beforeNul t.span.start ∧
      t.loc.column = columnAt source.beforeNul t.span.start := by
  obtain ⟨i, hi, rfl⟩ := List.getElem_of_mem ht
  rw [Lexer.getElem_tokens l i hi]
  have hafter := hl.after i
  obtain ⟨hstart, -, -⟩ := Lexer.next_loc (l.after i)
  obtain ⟨hle, -⟩ := Lexer.aligned_skipBlanks hafter.aligned
  obtain ⟨hline, hcol⟩ := Lexer.next_loc_of_aligned hafter.aligned
  rw [Lexer.skipBlanks_input, hafter.input] at hle
  rw [hafter.input] at hline hcol
  exact ⟨hstart ▸ hle, hline, hcol⟩

/-- **Render agrees with the lexer's positions.** Take a token of a lexer reached over `source`
    (by `next`, renaming, and restoring positions saved over the same source), and a diagnostic
    made at it by `error`, `warning` or `ofToken?`. Rendered over the source, its second line is
    the source line that holds the token's first byte -- the bytes between the LFs around it,
    read lossily and without trailing CRs -- and that line is line `t.loc.line`: it has
    `t.loc.line - 1` LFs before it. Its third line has `t.loc.column - 1` characters, a tab under
    each tab of the line and a space under any other byte, then a caret under the token's first
    byte, then a tilde under each further byte of the span up to the end of the line. -/
theorem render_at_token {source : Bytes} {l : Lexer} (hl : l.Reachable source) {t : Token}
    (ht : t ∈ l.tokens) {d : Diagnostic}
    (hd : (∃ m, d = Diagnostic.error m t) ∨ (∃ m, d = Diagnostic.warning m t) ∨
      Diagnostic.ofToken? t source = some d) :
    ∃ pre text post, source = pre ++ text ++ post ∧
      (pre = [] ∨ pre.getLast? = some lf) ∧ lf ∉ text ∧ (post = [] ∨ post.head? = some lf) ∧
      pre.count lf + 1 = t.loc.line ∧ pre.length + (t.loc.column - 1) = t.span.start ∧
      t.loc.column - 1 ≤ text.length ∧
      d.render source = d.display ++ "\n" ++ Diagnostic.dropTrailingCR (Bytes.lossy text) ++ "\n" ++
        String.ofList ((text.take (t.loc.column - 1)).map fun b =>
          if b == ascii '\t' then '\t' else ' ') ++ "^" ++
        String.ofList
          (List.replicate (min t.span.stop (pre.length + text.length) - t.span.start - 1) '~') := by
  obtain ⟨hstart, hline, hcol⟩ := token_position hl ht
  have hspan := Diagnostic.span_of_made hd
  have hk : t.span.start ≤ source.length :=
    Nat.le_trans hstart (List.takeWhile_prefix _).length_le
  have hk' : d.span.start ≤ source.length := hspan ▸ hk
  obtain ⟨text, post, hsrc, hlf, hpost, hle, hge, hrender⟩ := Diagnostic.render_cut d hk'
  rw [hspan] at hsrc hle hge hrender
  -- the lexer read the input up to the token, which is the source up to it
  have htake := Bytes.take_beforeNul hstart
  have hfk := lineStart_take_le hk
  have hfirst : (source.take t.span.start).take (lineStart (source.take t.span.start)) =
      source.take (lineStart (source.take t.span.start)) := by
    rw [List.take_take, Nat.min_eq_left hfk]
  have hprelen : (source.take (lineStart (source.take t.span.start))).length =
      lineStart (source.take t.span.start) := by
    simp only [List.length_take]
    omega
  have hcol' : t.loc.column - 1 = t.span.start - lineStart (source.take t.span.start) := by
    rw [hcol, columnAt, htake]
    omega
  refine ⟨_, text, post, hsrc, ?_, hlf, hpost, ?_, ?_, ?_, ?_⟩
  · rw [← hfirst]
    exact getLast?_take_lineStart _
  · rw [hline, lineAt, htake, ← hfirst, count_take_lineStart]
    omega
  · omega
  · omega
  · rw [hrender, hcol', hprelen]

/- The three lines, as the lexer's test of an open string reads them. -/
example : ((Diagnostic.error "unterminated string literal"
      ⟨.error, Bytes.ofString "open\nz", ⟨placeholderFile, 2, 5⟩, ⟨10, 17⟩⟩).withCode "E0002").render
      (Bytes.ofString "x = 1\ny = \"open\nz") =
    "<input>:2:5: error[E0002]: unterminated string literal\ny = \"open\n    ^~~~~" := by
  decide +kernel

/-- A string left open on the second line: its diagnostic is written under that line, four
    columns in. -/
theorem render_at_token_open_string :
    let source := Bytes.ofString "x = 1\ny = \"open\nz"
    let t : Token := ⟨.error, Bytes.ofString "open\nz", ⟨placeholderFile, 2, 5⟩, ⟨10, 17⟩⟩
    let d := (Diagnostic.error "unterminated string literal" t).withCode "E0002"
    (Lexer.ofSource source).Reachable source ∧ t ∈ (Lexer.ofSource source).tokens ∧
      Diagnostic.ofToken? t source = some d ∧
      ∃ pre text post, source = pre ++ text ++ post ∧
        (pre = [] ∨ pre.getLast? = some lf) ∧ lf ∉ text ∧ (post = [] ∨ post.head? = some lf) ∧
        pre.count lf + 1 = t.loc.line ∧ pre.length + (t.loc.column - 1) = t.span.start ∧
        t.loc.column - 1 ≤ text.length ∧
        d.render source = d.display ++ "\n" ++ Diagnostic.dropTrailingCR (Bytes.lossy text) ++ "\n" ++
          String.ofList ((text.take (t.loc.column - 1)).map fun b =>
            if b == ascii '\t' then '\t' else ' ') ++ "^" ++
          String.ofList
            (List.replicate (min t.span.stop (pre.length + text.length) - t.span.start - 1) '~') := by
  intro source t d
  have hmem : t ∈ (Lexer.ofSource source).tokens := by decide +kernel
  have hd : Diagnostic.ofToken? t source = some d := by decide +kernel
  exact ⟨.start, hmem, hd, render_at_token .start hmem (.inr (.inr hd))⟩

end Frond
