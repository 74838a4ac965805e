import Frond.Proofs.Lexer.Step

/-!
# Saving and restoring

`save` keeps only the cursor, and `restore` puts it back while keeping the interpolation
counters the lexer has at that moment. Going back to an earlier lexer of the same run therefore
replays its tokens exactly when the counters it keeps are the ones the earlier lexer had.

* `Nesting.Settled`: outside every interpolation no brace is counted. Every lexeme keeps it
  (`settled_scan`), so it holds all along a run (`settled_after`): the brace counter is `0`
  whenever the depth is.
* `restore_save`: restoring a position saved earlier in the run gives back the earlier lexer,
  with the counters of the one restored.
* `restore_replays`: when the depth is the same and, inside an interpolation, the brace counter
  too, the restored lexer is the earlier one, so every later call of `next` returns what it
  returned there.
-/

namespace Frond

open Scan

attribute [ext] Scan.Nesting

/-! ## 1. The brace counter is dead outside interpolations -/

namespace Scan

/-- Outside every interpolation no brace is counted. -/
def Nesting.Settled (n : Nesting) : Prop := n.depth = 0 → n.braces = 0

theorem settled_segment {opens closes : TokenKind} {n : Nesting} (h : n.Settled) (r : Bytes) :
    (segment opens closes n r).2.Settled := by
  rcases segment_cases opens closes n r with ⟨-, he⟩ | ⟨q, -, he⟩ | ⟨q, -, he⟩ <;>
    rw [he]
  · exact h
  · -- an interpolation that opens starts with no brace
    intro _
    rfl
  · exact h

theorem settled_countBrace {n : Nesting} (h : n.Settled) (b : UInt8) :
    (countBrace n b).Settled := by
  intro hd
  rw [countBrace_depth] at hd
  -- outside interpolations braces are not counted at all
  have hn : countBrace n b = n := by simp [countBrace, hd]
  rw [hn]
  exact h hd

/-- **Every lexeme keeps the brace counter at `0` outside interpolations.** -/
theorem settled_scan {n : Nesting} (h : n.Settled) (b : UInt8) (r : Bytes) :
    (scan n b r).2.Settled := by
  rcases scan_cases n b r with ⟨-, -, -, hs⟩ | ⟨-, hs⟩ | ⟨-, -, hs⟩ <;> rw [hs]
  · exact settled_segment (fun _ => rfl) r
  · exact settled_segment h r
  · exact settled_countBrace h b

end Scan

namespace Lexer

theorem settled_next {l : Lexer} (h : l.nesting.Settled) : l.next.2.nesting.Settled := by
  show l.skipBlanks.read.2.nesting.Settled
  cases hr : l.skipBlanks.rest with
  | nil => rw [read_nil hr]; exact h
  | cons b r =>
    rw [read_cons hr]
    exact settled_scan h b r

theorem settled_after {l : Lexer} (h : l.nesting.Settled) (i : Nat) :
    (l.after i).nesting.Settled := by
  induction i generalizing l with
  | zero => exact h
  | succ i ih => exact ih (settled_next h)

theorem settled_ofSource (source : Bytes) : (ofSource source).nesting.Settled := fun _ => rfl

/-! ## 2. What `next` keeps -/

theorem next_source_filename (l : Lexer) :
    l.next.2.source = l.source ∧ l.next.2.filename = l.filename := by
  show l.skipBlanks.read.2.source = l.source ∧ l.skipBlanks.read.2.filename = l.filename
  cases hr : l.skipBlanks.rest with
  | nil => rw [read_nil hr]; exact ⟨rfl, rfl⟩
  | cons b r => rw [read_cons hr]; exact ⟨rfl, rfl⟩

theorem after_source_filename (l : Lexer) (j : Nat) :
    (l.after j).source = l.source ∧ (l.after j).filename = l.filename := by
  induction j generalizing l with
  | zero => exact ⟨rfl, rfl⟩
  | succ j ih =>
    obtain ⟨hs, hf⟩ := next_source_filename l
    obtain ⟨hs', hf'⟩ := ih l.next.2
    exact ⟨hs'.trans hs, hf'.trans hf⟩

/-! ## 3. Restoring a saved position -/

/-- Restoring a position saved on a lexer of the same source and name, with its cursor in the
    input, gives back that lexer with the counters of the one restored: the clamp changes
    nothing, and the bytes ahead are the input from the saved offset on. -/
theorem restore_save {l m : Lexer} (hsource : m.source = l.source)
    (hname : m.filename = l.filename) (h : l.InInput) :
    m.restore l.save = { l with nesting := m.nesting } := by
  obtain ⟨source, filename, here, rest, hrest, nesting⟩ := l
  obtain ⟨source', filename', here', rest', hrest', nesting'⟩ := m
  obtain rfl : source' = source := hsource
  obtain rfl : filename' = filename := hname
  have hclamp : min here.pos source'.beforeNul.length = here.pos := Nat.min_eq_left h
  simp only [restore, save, input, hclamp, hrest]

/-- **Save and restore replay.** Take lexers `l`, reached from the start of a source by `next`
    calls, and `l'`, reached from `l` by more of them. When `l'` has the depth of `l` and, if
    that depth is not `0`, its brace counter too, then restoring in `l'` the position saved in
    `l` gives back `l` itself: every run of `next` from there returns the tokens (kind, text,
    location and span) it returned from `l`. At depth `0` the brace counter is `0` in both, so
    a restore across whole interpolated strings always replays them. -/
theorem restore_replays (source : Bytes) (i j : Nat) :
    let l := (ofSource source).after i
    let l' := l.after j
    l'.nesting.depth = l.nesting.depth →
    (l.nesting.depth = 0 ∨ l'.nesting.braces = l.nesting.braces) →
    l'.restore l.save = l ∧ ∀ k, ((l'.restore l.save).after k).next = (l.after k).next := by
  intro l l' hdepth hbraces
  have hsettled : l.nesting.Settled := settled_after (settled_ofSource source) i
  have hsettled' : l'.nesting.Settled := settled_after hsettled j
  -- the counters agree: at depth `0` both brace counters are `0`
  have hnesting : l'.nesting = l.nesting := by
    refine Nesting.ext hdepth ?_
    rcases hbraces with h0 | hb
    · rw [hsettled h0, hsettled' (hdepth.trans h0)]
    · exact hb
  obtain ⟨hsource, hname⟩ := after_source_filename l j
  have hl : l'.restore l.save = l := by
    rw [restore_save hsource hname (inInput_after (inInput_ofSource source) i), hnesting]
  exact ⟨hl, fun k => by rw [hl]⟩

/-- Going back to the start after reading a whole source with interpolations and braces in
    them replays it. -/
theorem restore_replays_interpolated :
    let l := (ofSource (Bytes.ofString "let s = \"a\x7bb\x7dc\x7b \x7bd\x7d \x7de\" + 1")).after 0
    let l' := l.after 13
    (l'.nesting.depth = l.nesting.depth ∧
      (l.nesting.depth = 0 ∨ l'.nesting.braces = l.nesting.braces)) ∧
    (l'.restore l.save = l ∧ ∀ k, ((l'.restore l.save).after k).next = (l.after k).next) :=
  ⟨⟨by decide +kernel, .inl (by decide +kernel)⟩,
    restore_replays _ 0 13 (by decide +kernel) (.inl (by decide +kernel))⟩

end Lexer

end Frond
