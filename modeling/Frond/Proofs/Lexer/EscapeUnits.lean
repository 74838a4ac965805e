import Frond.Lexer.Escapes
import Frond.Lexer.Scan
import Mathlib.Logic.Relation

/-!
# Escape units

The raw text of a string segment reads left to right as a sequence of units: a backslash with
the byte after it, a backslash that ends the text, or a single other byte. The scanner skips
string text unit by unit, and `unescape` decodes it unit by unit: a recognised escape becomes the
byte it stands for, and every other unit stays as it is.

The decoding loop does not read an unknown escape as one unit: it copies the backslash alone and
reads the byte after it again. It agrees with the units all the same, because a byte that makes
no escape after a backslash is no backslash itself and starts no pair
(`ne_backslash_of_escaped_none`).

* `units`, `decodeUnits`: the unit split of a raw text, and the text decoded unit by unit.
* `Decoder.Bounded`: the loop's invariant, `out ≤ i ≤ |raw|` with a buffer as long as the raw
  text; every turn keeps it (`Decoder.Bounded.step`).
* `Decoder.run_eq_finish`: from a bounded state the loop ends, with no index panic, having
  decoded the rest of the raw text into the buffer from `out` on.
* `units_segment`: the scanner ends a string segment between two units.
* `unescape_decodes_units`: the loop stays in bounds, its result is the raw text decoded unit
  by unit, one byte shorter for each recognised escape, and the units are the scanner's.
* `unescapeIn_eq`, `unescapeIn_reads_back`: with its buffer in an arena the decoder fails only
  when the arena refuses the buffer, and otherwise answers a region that reads back the decoded
  text.
-/

namespace Frond

namespace Escapes

open Bytes (ascii)

/-! ## 1. Units -/

/-- A unit of raw string text. -/
inductive RawUnit where
  /-- A backslash and the byte after it. -/
  | pair (c : UInt8)
  /-- A backslash that ends the text. -/
  | lone
  /-- Any other single byte. -/
  | byte (b : UInt8)
  deriving DecidableEq, Repr

namespace RawUnit

/-- The raw bytes of a unit. -/
def raw : RawUnit → Bytes
  | pair c => [ascii '\\', c]
  | lone => [ascii '\\']
  | byte b => [b]

/-- A backslash and a byte that make a recognised escape. -/
def recognised : RawUnit → Bool
  | pair c => (escaped c).isSome
  | _ => false

/-- What a unit decodes to: a recognised escape the byte it stands for, any other unit its own
    bytes. -/
def decode : RawUnit → Bytes
  | pair c =>
    match escaped c with
    | some d => [d]
    | none => [ascii '\\', c]
  | u => u.raw

/-- Decoding takes one byte off a recognised escape and keeps every other unit as long. -/
theorem length_decode_add (u : RawUnit) :
    u.decode.length + (if u.recognised then 1 else 0) = u.raw.length := by
  cases u with
  | pair c => cases h : escaped c <;> simp [decode, recognised, raw, h]
  | lone => rfl
  | byte b => rfl

end RawUnit

/-- The raw text cut left to right into units. -/
def units : Bytes → List RawUnit
  | [] => []
  | b :: r =>
    if b == ascii '\\' then
      match r with
      | [] => [.lone]
      | c :: r' => .pair c :: units r'
    else .byte b :: units r

/-- The raw text decoded unit by unit. -/
def decodeUnits (raw : Bytes) : Bytes := (units raw).flatMap RawUnit.decode

@[simp] theorem units_nil : units [] = [] := rfl

@[simp] theorem units_backslash : units [ascii '\\'] = [.lone] := rfl

@[simp] theorem units_backslash_cons (c : UInt8) (r : Bytes) :
    units (ascii '\\' :: c :: r) = .pair c :: units r := rfl

theorem units_cons_of_ne {b : UInt8} (hb : b ≠ ascii '\\') (r : Bytes) :
    units (b :: r) = .byte b :: units r := by
  cases r <;> simp [units, hb]

/-- The units put back together are the raw text. -/
theorem flatMap_raw_units (r : Bytes) : (units r).flatMap RawUnit.raw = r := by
  fun_induction units r <;> simp_all [RawUnit.raw]

theorem length_flatMap_decode_add (us : List RawUnit) :
    (us.flatMap RawUnit.decode).length + us.countP RawUnit.recognised =
      (us.flatMap RawUnit.raw).length := by
  induction us with
  | nil => rfl
  | cons u us ih =>
    have hu := u.length_decode_add
    simp only [List.flatMap_cons, List.length_append, List.countP_cons]
    omega

/-- Each recognised escape makes the decoded text one byte shorter than the raw text. -/
theorem length_decodeUnits_add (r : Bytes) :
    (decodeUnits r).length + (units r).countP RawUnit.recognised = r.length := by
  have h := length_flatMap_decode_add (units r)
  rwa [flatMap_raw_units] at h

theorem length_decodeUnits (r : Bytes) :
    (decodeUnits r).length = r.length - (units r).countP RawUnit.recognised := by
  have := length_decodeUnits_add r
  omega

theorem length_decodeUnits_le (r : Bytes) : (decodeUnits r).length ≤ r.length := by
  have := length_decodeUnits_add r
  omega

/-! ## 2. Decoding a byte at a time -/

/-- A byte that makes no escape after a backslash is no backslash itself, so the byte after an
    unknown escape starts no pair. -/
theorem ne_backslash_of_escaped_none {c : UInt8} (h : escaped c = none) : c ≠ ascii '\\' := by
  rintro rfl
  exact absurd h (by decide)

@[simp] theorem decodeUnits_nil : decodeUnits [] = [] := rfl

theorem decodeUnits_cons_of_ne {b : UInt8} (hb : b ≠ ascii '\\') (r : Bytes) :
    decodeUnits (b :: r) = b :: decodeUnits r := by
  simp [decodeUnits, units_cons_of_ne hb, RawUnit.decode, RawUnit.raw]

theorem decodeUnits_pair {c d : UInt8} (h : escaped c = some d) (r : Bytes) :
    decodeUnits (ascii '\\' :: c :: r) = d :: decodeUnits r := by
  simp [decodeUnits, RawUnit.decode, h]

/-- An unknown escape decodes as its backslash followed by the decoding from the byte after
    it, which is that byte as it stands. -/
theorem decodeUnits_unknown {c : UInt8} (h : escaped c = none) (r : Bytes) :
    decodeUnits (ascii '\\' :: c :: r) = ascii '\\' :: decodeUnits (c :: r) := by
  rw [decodeUnits_cons_of_ne (ne_backslash_of_escaped_none h)]
  simp [decodeUnits, RawUnit.decode, h]

/-- What the loop writes for a recognised escape heads the decoding, and the rest decodes
    from past the escape. -/
theorem decodeUnits_of_decoded_some {b d : UInt8} {r : Bytes}
    (h : decoded b r.head? = some d) : decodeUnits (b :: r) = d :: decodeUnits r.tail := by
  unfold decoded at h
  split at h
  · rename_i hb
    obtain ⟨c, r', rfl⟩ : ∃ c r', r = c :: r' := by
      cases r with
      | nil => simp at h
      | cons c r' => exact ⟨c, r', rfl⟩
    rw [beq_iff_eq.1 hb]
    exact decodeUnits_pair h r'
  · cases h

/-- Any other byte the loop copies heads the decoding, and the rest decodes from the next byte:
    this holds for a backslash before an unknown byte too. -/
theorem decodeUnits_of_decoded_none {b : UInt8} {r : Bytes} (h : decoded b r.head? = none) :
    decodeUnits (b :: r) = b :: decodeUnits r := by
  unfold decoded at h
  split at h
  · rename_i hb
    rw [beq_iff_eq.1 hb]
    cases r with
    | nil => rfl
    | cons c r' => exact decodeUnits_unknown (by simpa using h) r'
  · rename_i hb
    exact decodeUnits_cons_of_ne (by simpa using hb) r

/-! ## 3. The loop -/

/-- Writing at `i` and reading the first `i + 1` bytes gives the first `i` bytes and the byte
    written. -/
theorem take_succ_set {l : Bytes} {i : Nat} (h : i < l.length) (a : UInt8) :
    (l.set i a).take (i + 1) = l.take i ++ [a] := by
  have hi : (l.take i).length = i := by simp; omega
  rw [List.set_eq_take_append_cons_drop, if_pos h, List.take_append, hi, List.take_take,
    Nat.min_eq_right (Nat.le_succ i)]
  simp

namespace Decoder

variable {raw : Bytes} {d d' : Decoder}

/-- The loop's invariant: the write position never passes the read position, which never passes
    the end of the raw text, and the buffer is as long as the raw text. -/
structure Bounded (raw : Bytes) (d : Decoder) : Prop where
  out_le_i : d.out ≤ d.i
  i_le_length : d.i ≤ raw.length
  length_buf : d.buf.length = raw.length

theorem Bounded.start (raw : Bytes) : (start raw).Bounded raw :=
  ⟨Nat.le_refl 0, Nat.zero_le _, List.length_replicate⟩

/-- While the loop turns, the write position is inside the buffer. -/
theorem write_of_bounded (hb : d.Bounded raw) (h : d.i < raw.length) (byte : UInt8) :
    d.write byte = some (d.buf.set d.out byte) := by
  have : d.out < d.buf.length := by
    have := hb.out_le_i
    rw [hb.length_buf]
    omega
  simp [write, this]

/-- **One turn from a bounded state**: it writes at `out` the byte that heads the decoding of
    the bytes not yet read, and reads on by one or two bytes, not past the end. -/
theorem step_of_bounded (hb : d.Bounded raw) (h : d.i < raw.length) :
    ∃ byte w, d.step raw h = some ⟨d.i + w, d.out + 1, d.buf.set d.out byte⟩ ∧
      0 < w ∧ d.i + w ≤ raw.length ∧
      decodeUnits (raw.drop d.i) = byte :: decodeUnits (raw.drop (d.i + w)) := by
  have hw := write_of_bounded hb h
  have hdrop : raw.drop d.i = raw[d.i] :: raw.drop (d.i + 1) := List.drop_eq_getElem_cons h
  have hnext : (raw.drop (d.i + 1)).head? = raw[d.i + 1]? := by simp [List.head?_drop]
  unfold step
  split
  · rename_i byte hdec
    -- a recognised escape needs the byte after the backslash
    have hlt : d.i + 1 < raw.length := by
      apply Nat.lt_of_not_le
      intro hge
      rw [List.getElem?_eq_none hge] at hdec
      simp [decoded] at hdec
    refine ⟨byte, 2, by simp [hw], by omega, by omega, ?_⟩
    rw [hdrop, decodeUnits_of_decoded_some (hnext ▸ hdec), List.tail_drop]
  · rename_i hdec
    refine ⟨raw[d.i], 1, by simp [hw], by omega, by omega, ?_⟩
    rw [hdrop, decodeUnits_of_decoded_none (hnext ▸ hdec)]

/-- Every turn keeps the invariant. -/
theorem Bounded.step {h : d.i < raw.length} (hb : d.Bounded raw)
    (hs : d.step raw h = some d') : d'.Bounded raw := by
  obtain ⟨byte, w, hstep, hw, hle, -⟩ := step_of_bounded hb h
  rw [hstep, Option.some.injEq] at hs
  subst hs
  have := hb.out_le_i
  exact ⟨by simp only; omega, hle, by simp [hb.length_buf]⟩

/-- Where the loop ends from `d`: read to the end, with the rest of the raw text decoded into the
    buffer from `out` on. -/
def finish (raw : Bytes) (d : Decoder) : Decoder :=
  let rest := decodeUnits (raw.drop d.i)
  ⟨raw.length, d.out + rest.length, d.buf.take d.out ++ rest ++ d.buf.drop (d.out + rest.length)⟩

/-- A turn from a bounded state does not move where the loop ends. -/
theorem finish_step {h : d.i < raw.length} (hb : d.Bounded raw)
    (hs : d.step raw h = some d') : d'.finish raw = d.finish raw := by
  obtain ⟨byte, w, hstep, -, -, hdec⟩ := step_of_bounded hb h
  rw [hstep, Option.some.injEq] at hs
  subst hs
  have hout : d.out < d.buf.length := by
    have := hb.out_le_i
    rw [hb.length_buf]
    omega
  simp only [finish]
  rw [hdec]
  generalize decodeUnits (raw.drop (d.i + w)) = rest
  have hidx : d.out + (rest.length + 1) = d.out + 1 + rest.length := by omega
  simp only [List.length_cons, hidx, take_succ_set hout,
    List.drop_set_of_lt (by omega : d.out < d.out + 1 + rest.length),
    List.append_assoc, List.singleton_append]

/-- **The loop from a bounded state** ends, with no index panic, where `finish` says. -/
theorem run_eq_finish (hb : d.Bounded raw) : d.run raw = some (d.finish raw) := by
  fun_induction run raw d with
  | case1 d h d' hs _ ih => rw [ih (hb.step hs), finish_step hb hs]
  | case2 d h hs =>
    obtain ⟨_, _, hstep, -⟩ := step_of_bounded hb h
    rw [hstep] at hs
    cases hs
  | case3 d h =>
    obtain ⟨i, out, buf⟩ := d
    have hi : i = raw.length := Nat.le_antisymm hb.i_le_length (Nat.not_lt.1 h)
    subst hi
    simp [finish]

/-- One turn of the loop: the read position is inside the raw text and the write inside the
    buffer. -/
def Turn (raw : Bytes) (d d' : Decoder) : Prop := ∃ h : d.i < raw.length, d.step raw h = some d'

/-- Every state the loop reaches from its start is bounded. -/
theorem Bounded.of_reaches (h : Relation.ReflTransGen (Turn raw) (Decoder.start raw) d) :
    d.Bounded raw := by
  induction h with
  | refl => exact Bounded.start raw
  | tail _ hturn ih =>
    obtain ⟨_, hs⟩ := hturn
    exact ih.step hs

end Decoder

/-- The checked decoder never panics and gives the raw text decoded unit by unit. -/
theorem unescapeChecked_eq (raw : Bytes) : unescapeChecked raw = some (decodeUnits raw) := by
  have hle := length_decodeUnits_le raw
  rw [unescapeChecked, Decoder.run_eq_finish (Decoder.Bounded.start raw)]
  simp [Decoder.finish, Decoder.start, Decoder.result]

theorem unescape_eq_decodeUnits (raw : Bytes) : unescape raw = decodeUnits raw := by
  simp [unescape, unescapeChecked_eq]

@[simp] theorem unescape_nil : unescape [] = [] := unescape_eq_decodeUnits []

/-! ## 4. The scanner's units -/

/-- **The scanner ends a string segment between two units**: the units of the segment's text
    are the first units of the bytes after its opening byte. -/
theorem units_segment (r : Bytes) :
    units r = units (r.take (Scan.segmentLength r)) ++ units (r.drop (Scan.segmentLength r)) := by
  fun_induction Scan.segmentLength r <;> simp_all [units, units_cons_of_ne]

/-- **Unescaping stays in bounds and decodes the scanner's units.** Every state the loop reaches
    keeps `out ≤ i ≤ |raw|` with a buffer as long as the raw text, so every write is inside the
    buffer; the loop ends with no index panic, and its result is the raw text cut into units and
    decoded unit by unit, one byte shorter than the raw text for each recognised escape. The
    units put together are the raw text, and the scanner ends a segment between two of them. -/
theorem unescape_decodes_units (raw : Bytes) :
    (∀ d, Relation.ReflTransGen (Decoder.Turn raw) (Decoder.start raw) d →
      d.out ≤ d.i ∧ d.i ≤ raw.length ∧ d.buf.length = raw.length) ∧
    unescapeChecked raw = some ((units raw).flatMap RawUnit.decode) ∧
    (unescape raw).length = raw.length - (units raw).countP RawUnit.recognised ∧
    (units raw).flatMap RawUnit.raw = raw ∧
    units raw = units (raw.take (Scan.segmentLength raw)) ++
      units (raw.drop (Scan.segmentLength raw)) := by
  refine ⟨fun d hd => ?_, unescapeChecked_eq raw, ?_, flatMap_raw_units raw, units_segment raw⟩
  · have hb := Decoder.Bounded.of_reaches hd
    exact ⟨hb.out_le_i, hb.i_le_length, hb.length_buf⟩
  · rw [unescape_eq_decodeUnits, length_decodeUnits]

/-! ## 5. The buffer in an arena -/

/-- **The decoder in an arena** fails exactly when the arena refuses a region as long as the raw
    text; otherwise it does not panic, answers the region cut at the decoded length, and leaves
    in the region the decoded text followed by zeros. -/
theorem unescapeIn_eq (a : Arena) (raw : Bytes) :
    unescapeIn a raw = (a.allocZeroedBytes raw.length).map fun (r, a') =>
      some ({ r with size := (unescape raw).length }, a'.store r.address
        (unescape raw ++ List.replicate (raw.length - (unescape raw).length) 0)) := by
  have hle := length_decodeUnits_le raw
  unfold unescapeIn
  rw [Decoder.run_eq_finish (Decoder.Bounded.start raw), unescape_eq_decodeUnits]
  simp [Decoder.finish, Decoder.start, Decoder.result, List.drop_replicate]

theorem unescapeIn_reads_back {a a' : Arena} {raw : Bytes} {r : Region}
    (h : unescapeIn a raw = .ok (some (r, a'))) : a'.mem.read r.address r.size = unescape raw := by
  rw [unescapeIn_eq] at h
  cases halloc : a.allocZeroedBytes raw.length with
  | error e => simp [halloc, Except.map] at h
  | ok res =>
    obtain ⟨r₀, a₀⟩ := res
    simp only [halloc, Except.map, Except.ok.injEq, Option.some.injEq, Prod.mk.injEq] at h
    obtain ⟨rfl, rfl⟩ := h
    -- the decoded text is the head of what the loop left in the region
    have hread := Memory.read_write_inside a₀.mem r₀.address (show 0 + (unescape raw).length ≤
      (unescape raw ++ List.replicate (raw.length - (unescape raw).length) 0).length by simp)
    simpa [Arena.store] using hread

end Escapes

end Frond
