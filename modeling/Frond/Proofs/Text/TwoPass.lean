import Frond.Text.FormatInArena
import Frond.Proofs.Arena.Refusal
import Mathlib.Algebra.Group.Nat.Defs

/-!
# Formatting never cuts its output short

What `formatIn` does with the two passes, for every pair of passes and every arena.

* `foldl_countPiece_of_lt`, `Pass.measure_eq_length`: a measure below 2^64 is the length of what
  the first pass wrote; `Pass.measure_lt`: the count itself never passes 2^64 - 1.
* `SliceWriter.after`: the writer once some bytes were written to it, in closed form: what fit of
  them, then zeros, the cursor after what fit, overflowed when not all fit. `write_after` is the
  step, `foldl_write_empty` the run.
* `formatIn_run`: the outcome, and the arena after it, for every pair of passes;
  `formatIn_run_cases`: the answers it can be, each with what it needs.
* `formatIn_eq_ok`: a result is exactly what the second pass wrote; `pos_le_length_buf`: the
  cursor never passes the end of the buffer; `formatIn_of_granted`: with a measure below 2^64 and
  the buffer granted, the outcome is `format`'s.
-/

namespace Frond

/-! ## 1. The measure -/

section Measure

variable {ws : List String} {n : Nat}

theorem foldl_countPiece_of_lt (h : n + (ws.flatMap Bytes.ofString).length < wordBound) :
    ws.foldl countPiece n = n + (ws.flatMap Bytes.ofString).length := by
  induction ws generalizing n with
  | nil => simp
  | cons piece ws ih =>
    rw [List.flatMap_cons, List.length_append] at h
    have hpiece : countPiece n piece = n + (Bytes.ofString piece).length := if_pos (by omega)
    rw [List.foldl_cons, hpiece, ih (by omega), List.flatMap_cons, List.length_append]
    omega

theorem foldl_countPiece_lt (h : n < wordBound) : ws.foldl countPiece n < wordBound := by
  induction ws generalizing n with
  | nil => exact h
  | cons piece ws ih =>
    apply ih
    unfold countPiece
    split <;> omega

theorem Pass.measure_eq_length {p : Pass} (h : p.bytes.length < wordBound) :
    p.measure = p.bytes.length := by
  have := @foldl_countPiece_of_lt p.writes 0 (by simpa [Pass.bytes] using h)
  simpa [Pass.measure, Pass.bytes] using this

theorem Pass.measure_lt (p : Pass) : p.measure < wordBound :=
  foldl_countPiece_lt (by decide)

/-- The count never goes down. -/
theorem le_foldl_countPiece (ws : List String) (n : Nat) : n ≤ ws.foldl countPiece n := by
  induction ws generalizing n with
  | nil => exact Nat.le_refl n
  | cons piece ws ih =>
    have hstep : n ≤ countPiece n piece := by
      unfold countPiece
      split <;> omega
    exact Nat.le_trans hstep (ih _)

/-- Pieces of at most `m` bytes that reach 2^64 together leave a count within `m` of 2^64: the
    first piece the counter refuses finds it there, and it never goes down after. -/
theorem foldl_countPiece_of_overflow {m : Nat}
    (hpieces : ∀ piece ∈ ws, (Bytes.ofString piece).length ≤ m) (hn : n < wordBound)
    (h : wordBound ≤ n + (ws.flatMap Bytes.ofString).length) :
    wordBound ≤ ws.foldl countPiece n + m := by
  induction ws generalizing n with
  | nil => simp at h; omega
  | cons piece ws ih =>
    rw [List.flatMap_cons, List.length_append] at h
    have hpiece := hpieces piece List.mem_cons_self
    rw [List.foldl_cons]
    by_cases hfit : n + (Bytes.ofString piece).length < wordBound
    · -- the piece is counted, and the rest of the pass still reaches 2^64
      rw [show countPiece n piece = n + (Bytes.ofString piece).length from if_pos hfit]
      exact ih (fun p hp => hpieces p (List.mem_cons_of_mem _ hp)) hfit (by omega)
    · -- the piece is refused and the count stays where it is
      rw [show countPiece n piece = n from if_neg hfit]
      have := le_foldl_countPiece ws n
      omega

/-- A first pass that wrote 2^64 bytes or more, in pieces shorter than 2^63 bytes, leaves a count
    past any block layout. -/
theorem Pass.layoutLimit_lt_measure {p : Pass}
    (hpieces : ∀ piece ∈ p.writes, (Bytes.ofString piece).length < 2 ^ 63)
    (hlen : wordBound ≤ p.bytes.length) : Arena.layoutLimit < p.measure := by
  have hcount : wordBound ≤ p.measure + (2 ^ 63 - 1) :=
    foldl_countPiece_of_overflow (fun piece hp => Nat.le_sub_one_of_lt (hpieces piece hp))
      (by decide) (by simpa [Pass.bytes] using hlen)
  have hword : wordBound = 2 ^ 64 := rfl
  have hlimit : Arena.layoutLimit = 2 ^ 63 - 16 := rfl
  omega

end Measure

/-! ## 2. The writer -/

namespace SliceWriter

/-- The writer of a buffer of `len` bytes once the bytes `out` were written to it: what fit of
    them, then zeros; the cursor after what fit; overflowed when not all of them fit. -/
def after (len : Nat) (out : Bytes) : SliceWriter :=
  ⟨out.take len ++ List.replicate (len - out.length) 0, min out.length len,
    decide (len < out.length)⟩

theorem length_buf_after (len : Nat) (out : Bytes) : (after len out).buf.length = len := by
  simp only [after, List.length_append, List.length_take, List.length_replicate]
  omega

theorem pos_after_le (len : Nat) (out : Bytes) : (after len out).pos ≤ len :=
  Nat.min_le_right _ _

@[simp] theorem overflowed_after (len : Nat) (out : Bytes) :
    (after len out).overflowed = decide (len < out.length) := rfl

theorem after_nil (len : Nat) : after len [] = empty len := by
  simp [after, empty]

/-- **One piece.** Writing a piece once `out` was written is writing `out` and the piece. -/
theorem write_after (len : Nat) (out : Bytes) (piece : String) :
    (after len out).write piece = after len (out ++ Bytes.ofString piece) := by
  have hlen := length_buf_after len out
  simp only [write, hlen]
  simp only [after, mk.injEq, List.length_append]
  generalize Bytes.ofString piece = b
  rcases Nat.lt_or_ge out.length len with hroom | hfull
  · -- the cursor is at the end of `out`, with zeros after it
    have hpos : min out.length len = out.length := by omega
    simp only [hpos, List.take_of_length_le (by omega : out.length ≤ len)]
    refine ⟨?_, by omega, ?_⟩
    · have htake : b.take (min b.length (len - out.length)) = b.take (len - out.length) :=
        List.take_eq_take_iff.mpr (by omega)
      rw [List.take_append_of_le_length (by simp), List.take_of_length_le (by simp),
        List.drop_append, List.drop_of_length_le (by omega), List.nil_append,
        List.drop_replicate, List.take_append, List.take_of_length_le (by omega : out.length ≤ len),
        List.append_assoc, List.append_assoc, htake]
      congr 3
      omega
    · rw [Bool.eq_iff_iff]
      simp only [Bool.or_eq_true, decide_eq_true_eq]
      omega
  · -- the buffer is full: nothing more is copied
    have hpos : min out.length len = len := by omega
    simp only [hpos, Nat.sub_self, Nat.min_zero, List.take_zero, List.append_nil, Nat.add_zero]
    refine ⟨?_, by omega, ?_⟩
    · rw [List.take_append_of_le_length (by simp; omega), List.take_take, Nat.min_self,
        List.drop_eq_nil_of_le (by simp; omega), List.append_nil,
        List.take_append_of_le_length hfull, Nat.sub_eq_zero_of_le (by omega),
        List.replicate_zero, List.append_nil]
    · rw [Bool.eq_iff_iff]
      simp only [Bool.or_eq_true, decide_eq_true_eq]
      omega

theorem foldl_write_after (len : Nat) (out : Bytes) (ws : List String) :
    ws.foldl write (after len out) = after len (out ++ ws.flatMap Bytes.ofString) := by
  induction ws generalizing out with
  | nil => simp
  | cons piece ws ih => rw [List.foldl_cons, write_after, ih, List.flatMap_cons, List.append_assoc]

/-- **The writing pass.** The writer after the pieces is the writer once their bytes were
    written. -/
theorem foldl_write_empty (len : Nat) (ws : List String) :
    ws.foldl write (empty len) = after len (ws.flatMap Bytes.ofString) := by
  rw [← after_nil, foldl_write_after, List.nil_append]

/-- The cursor never passes the end of the buffer, after any number of pieces. -/
theorem pos_le_length_buf (len : Nat) (ws : List String) (k : Nat) :
    ((ws.take k).foldl write (empty len)).pos ≤ ((ws.take k).foldl write (empty len)).buf.length := by
  rw [foldl_write_empty, length_buf_after]
  exact pos_after_le _ _

theorem take_pos_after {len : Nat} {out : Bytes} (h : out.length ≤ len) :
    (after len out).buf.take (after len out).pos = out := by
  simp only [after, Nat.min_eq_left h, List.take_of_length_le h]
  exact List.take_left' rfl

end SliceWriter

/-! ## 3. The outcome -/

section Outcome

variable (a : Arena) (first second : Pass)

/-- The buffer of `len` bytes once the second pass wrote to it. -/
abbrev filled (len : Nat) (second : Pass) : Bytes :=
  (SliceWriter.after len second.bytes).buf

/-- **What formatting does.** A failed first pass is a formatter error; a buffer of the measure
    refused by the arena is an allocation error; a second pass that wrote more than the measure is
    a length mismatch; a failed second pass is a formatter error; otherwise the result is what the
    second pass wrote. Once the buffer is granted it stays taken, holding what fit. -/
theorem formatIn_run :
    (formatIn first second).run a =
      if first.failed then .error (.format .formatter) a
      else match a.allocZeroedBytes first.measure with
        | .error e => .error (.alloc e) a
        | .ok (r, a') =>
          if first.measure < second.bytes.length then
            .error (.format (.lengthMismatch first.measure))
              (a'.store r.address (filled first.measure second))
          else if second.failed then
            .error (.format .formatter) (a'.store r.address (filled first.measure second))
          else .ok second.bytes (a'.store r.address (filled first.measure second)) := by
  unfold formatIn
  by_cases hfirst : first.failed
  · simp only [hfirst, if_true]
    rfl
  simp only [hfirst, Bool.false_eq_true, if_false, EStateM.run_bind, EStateM.run_get]
  have hfill : second.writes.foldl SliceWriter.write (.empty first.measure) =
      SliceWriter.after first.measure second.bytes :=
    SliceWriter.foldl_write_empty _ _
  simp only [hfill]
  cases a.allocZeroedBytes first.measure with
  | error e => rfl
  | ok p =>
    obtain ⟨r, a'⟩ := p
    by_cases hover : first.measure < second.bytes.length
    · simp only [SliceWriter.overflowed_after, hover, decide_true, if_true]
      rfl
    · have hout := SliceWriter.take_pos_after (Nat.le_of_not_lt hover)
      simp only [SliceWriter.overflowed_after, hover, decide_false, Bool.false_eq_true, if_false, hout]
      cases second.failed <;> rfl

/-- **What formatting can answer**, each with what it needs: a formatter error from a failed
    first pass and an allocation error, both leaving the arena as it was; a length mismatch when
    the second pass wrote more than the measure; a formatter error from a failed second pass; and
    what the second pass wrote. -/
theorem formatIn_run_cases :
    (first.failed = true ∧ (formatIn first second).run a = .error (.format .formatter) a) ∨
    (∃ e, (formatIn first second).run a = .error (.alloc e) a) ∨
    (first.measure < second.bytes.length ∧
      ∃ s, (formatIn first second).run a = .error (.format (.lengthMismatch first.measure)) s) ∨
    (second.failed = true ∧ ∃ s, (formatIn first second).run a = .error (.format .formatter) s) ∨
    (first.failed = false ∧ second.failed = false ∧ second.bytes.length ≤ first.measure ∧
      ∃ s, (formatIn first second).run a = .ok second.bytes s) := by
  rw [formatIn_run]
  by_cases hfirst : first.failed = true
  · exact .inl ⟨hfirst, if_pos hfirst⟩
  rw [if_neg hfirst]
  cases a.allocZeroedBytes first.measure with
  | error e => exact .inr (.inl ⟨e, rfl⟩)
  | ok p =>
    obtain ⟨r, a'⟩ := p
    by_cases hover : first.measure < second.bytes.length
    · exact .inr (.inr (.inl ⟨hover, _, if_pos hover⟩))
    by_cases hsecond : second.failed = true
    · exact .inr (.inr (.inr (.inl ⟨hsecond, _, (if_neg hover).trans (if_pos hsecond)⟩)))
    · exact .inr (.inr (.inr (.inr ⟨Bool.eq_false_iff.mpr hfirst, Bool.eq_false_iff.mpr hsecond,
        Nat.le_of_not_lt hover, _, (if_neg hover).trans (if_neg hsecond)⟩)))

/-- **Nothing is cut off.** A result is exactly what the second pass wrote: neither pass failed
    and the second wrote no more than was measured. -/
theorem formatIn_eq_ok {out : Bytes} {a'' : Arena} (h : (formatIn first second).run a = .ok out a'') :
    out = second.bytes ∧ first.failed = false ∧ second.failed = false ∧
      second.bytes.length ≤ first.measure := by
  rcases formatIn_run_cases a first second with
    ⟨-, hrun⟩ | ⟨e, hrun⟩ | ⟨-, s, hrun⟩ | ⟨-, s, hrun⟩ | ⟨hfirst, hsecond, hle, s, hrun⟩
  -- every other answer is an error
  · rw [hrun] at h; cases h
  · rw [hrun] at h; cases h
  · rw [hrun] at h; cases h
  · rw [hrun] at h; cases h
  · rw [hrun] at h
    cases h
    exact ⟨rfl, hfirst, hsecond, hle⟩

/-- A formatter error comes from a pass that failed, never from the count alone. -/
theorem formatIn_eq_formatter {a'' : Arena}
    (h : (formatIn first second).run a = .error (.format .formatter) a'') :
    first.failed = true ∨ second.failed = true := by
  rcases formatIn_run_cases a first second with
    ⟨hfirst, -⟩ | ⟨e, hrun⟩ | ⟨-, s, hrun⟩ | ⟨hsecond, -⟩ | ⟨-, -, -, s, hrun⟩
  · exact .inl hfirst
  · rw [hrun] at h; cases h
  · rw [hrun] at h; cases h
  · exact .inr hsecond
  · rw [hrun] at h; cases h

/-- **A swallowed overflow is an allocation error.** A first pass that wrote 2^64 bytes or more
    and still ended well, because a formatting step swallowed the counter's refusal, leaves a
    count past any block layout when its pieces are shorter than 2^63 bytes, as every `str` is.
    An arena whose blocks all have a layout, as every arena a program builds does
    (`Arena.History.size_le_layoutLimit_run`), refuses a buffer of that size whatever the second
    pass, and stays as it was: the answer is an allocation error, not a formatter error. -/
theorem formatIn_of_swallowed_overflow (hfirst : first.failed = false)
    (hpieces : ∀ piece ∈ first.writes, (Bytes.ofString piece).length < 2 ^ 63)
    (hlen : wordBound ≤ first.bytes.length)
    (hblocks : ∀ b ∈ a.blocks, b.size ≤ Arena.layoutLimit) :
    ∃ e, (formatIn first second).run a = .error (.alloc e) a := by
  have hbig := Pass.layoutLimit_lt_measure hpieces hlen
  obtain ⟨e, he⟩ := Arena.allocAligned_of_oversize Arena.defaultAlignment
    (fun b hb => Nat.lt_of_le_of_lt (hblocks b hb) hbig) hbig
  have halloc : a.allocZeroedBytes first.measure = .error e := he
  refine ⟨e, ?_⟩
  rw [formatIn_run]
  simp only [hfirst, Bool.false_eq_true, if_false, halloc]

/-- **The formatting of `Frond.Text.Format`.** When the first pass wrote fewer than 2^64 bytes
    and the arena grants their buffer, formatting into the arena answers what `format` answers. -/
theorem formatIn_of_granted {r : Region} {a' : Arena} (hfirst : first.failed = false)
    (hlen : first.bytes.length < wordBound)
    (halloc : a.allocZeroedBytes first.bytes.length = .ok (r, a')) :
    (formatIn first second).run a =
      match format first second with
      | .ok out => .ok out (a'.store r.address (filled first.bytes.length second))
      | .error e => .error (.format e) (a'.store r.address (filled first.bytes.length second)) := by
  rw [formatIn_run, Pass.measure_eq_length hlen]
  simp only [hfirst, Bool.false_eq_true, if_false, halloc, format]
  by_cases hover : first.bytes.length < second.bytes.length
  · simp [hover]
  · cases second.failed <;> simp [hover]

end Outcome

end Frond
