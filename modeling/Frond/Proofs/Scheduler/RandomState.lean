import Frond.Proofs.Scheduler.Session
import Mathlib.Data.FinEnum

/-!
# The random state is never zero

A xorshift state of 0 is a fixed point: every later draw would be 0 and every tie would be
broken the same way. The scheduler keeps away from it. A seed of 0 is replaced by a non-zero
seed, and each of the three xor-shifts of a draw is a bijection of 64-bit words that fixes 0, so
a draw sends a non-zero state to a non-zero state.

* `xor_ushiftRight_injective`, `xor_shiftLeft_injective`: a word xored with itself shifted by a
  positive amount gives the word back, bit by bit from the top or from the bottom.
* `mix_bijective`, `mix_ne_zero`: the update of a draw permutes the 64-bit words and keeps
  every non-zero word away from 0.
* `choose_rng_ne_zero`, `step_rng_ne_zero`: the draws of a step's reservoir choice keep the
  state non-zero.
* `random_state_ne_zero`: from any seed, after any sequence of calls, the state is not zero.
-/

namespace Frond

open Function

namespace Random

/-! ## 1. One xor-shift loses nothing -/

section Bits

variable {w k : Nat}

/-- Xoring a word with its right shift by `k > 0` is injective: bit `i` of the word is bit `i`
    of the result xored with bit `i + k` of the word, which is settled first going down. -/
theorem xor_ushiftRight_injective (hk : 0 < k) :
    Injective fun x : BitVec w => x ^^^ (x >>> k) := by
  intro x y h
  -- descending induction on the bit index, counted as the distance `w - i` to the top
  have bits : ∀ n i, w - i = n → x.getLsbD i = y.getLsbD i := by
    intro n
    induction n using Nat.strong_induction_on with
    | _ n ih =>
      intro i hi
      by_cases hw : i < w
      · have hb := congrArg (·.getLsbD i) h
        simp only [BitVec.getLsbD_xor, BitVec.getLsbD_ushiftRight] at hb
        rw [ih (w - (k + i)) (by omega) (k + i) rfl] at hb
        exact Bool.xor_left_inj.mp hb
      · simp [BitVec.getLsbD_of_ge, show w ≤ i by omega]
  exact BitVec.eq_of_getLsbD_eq fun i _ => bits _ i rfl

/-- Xoring a word with its left shift by `k > 0` is injective: bit `i` of the word is bit `i`
    of the result xored with bit `i - k` of the word, which is settled first going up. -/
theorem xor_shiftLeft_injective (hk : 0 < k) :
    Injective fun x : BitVec w => x ^^^ (x <<< k) := by
  intro x y h
  have bits : ∀ i, x.getLsbD i = y.getLsbD i := by
    intro i
    induction i using Nat.strong_induction_on with
    | _ i ih =>
      have hb := congrArg (·.getLsbD i) h
      simp only [BitVec.getLsbD_xor, BitVec.getLsbD_shiftLeft] at hb
      by_cases hi : i < k
      · simpa [hi] using hb
      · rw [ih (i - k) (by omega)] at hb
        exact Bool.xor_left_inj.mp hb
  exact BitVec.eq_of_getLsbD_eq fun i _ => bits i

end Bits

/-- On 64-bit words the shift amount is taken modulo 64; one that is not a multiple of 64
    makes the right xor-shift injective. -/
theorem uint64_xor_shiftRight_injective {k : UInt64} (hk : 0 < k.toNat % 64) :
    Injective fun x : UInt64 => x ^^^ (x >>> k) := by
  intro x y h
  apply UInt64.toBitVec_inj.mp
  have hb := congrArg UInt64.toBitVec h
  simp only [UInt64.toBitVec_xor, UInt64.toBitVec_shiftRight, BitVec.ushiftRight_eq',
    BitVec.toNat_umod, UInt64.toNat_toBitVec] at hb
  exact xor_ushiftRight_injective hk hb

theorem uint64_xor_shiftLeft_injective {k : UInt64} (hk : 0 < k.toNat % 64) :
    Injective fun x : UInt64 => x ^^^ (x <<< k) := by
  intro x y h
  apply UInt64.toBitVec_inj.mp
  have hb := congrArg UInt64.toBitVec h
  simp only [UInt64.toBitVec_xor, UInt64.toBitVec_shiftLeft, BitVec.shiftLeft_eq',
    BitVec.toNat_umod, UInt64.toNat_toBitVec] at hb
  exact xor_shiftLeft_injective hk hb

/-! ## 2. A draw permutes the states -/

/-- **The update of a draw is a bijection.** It is three injective xor-shifts in a row, and an
    injective map of the finitely many 64-bit words onto themselves is onto. -/
theorem mix_bijective : Bijective mix := by
  refine Finite.injective_iff_bijective.mp ?_
  have h12 := @uint64_xor_shiftRight_injective 12 (by decide)
  have h25 := @uint64_xor_shiftLeft_injective 25 (by decide)
  have h27 := @uint64_xor_shiftRight_injective 27 (by decide)
  exact h27.comp (h25.comp h12)

theorem mix_zero : mix 0 = 0 := by decide

theorem mix_ne_zero {x : UInt64} (hx : x ≠ 0) : mix x ≠ 0 := fun h =>
  hx (mix_bijective.injective (h.trans mix_zero.symm))

theorem normalizeSeed_ne_zero (seed : UInt64) : normalizeSeed seed ≠ 0 := by
  by_cases h : seed = 0
  · subst h
    decide
  · simp [normalizeSeed, h]

end Random

/-! ## 3. The scheduler's draws -/

namespace Scheduler

open Frond.Random (mix_ne_zero)

/-- The reservoir choice draws only through `drawBelow`, so it keeps the state non-zero. -/
theorem choose_rng_ne_zero (es : List Event) (i : Nat) (best : UInt64) (chosen : Nat)
    (ties : UInt32) (rng : UInt64) : rng ≠ 0 → (choose es i best chosen ties rng).2 ≠ 0 := by
  fun_induction choose es i best chosen ties rng with
  | case1 => exact id
  | case2 _ _ _ _ _ _ _ _ ih => exact ih
  | case3 _ _ _ _ _ _ rng _ _ _ _ rng' hdraw ih =>
    -- a tie costs one draw, whose new state is the update of the old one
    intro h
    have hrng : rng' = Random.mix rng := (congrArg Prod.snd hdraw).symm
    exact ih (hrng ▸ mix_ne_zero h)
  | case4 _ _ _ _ _ _ _ _ _ ih => exact ih

/-- A step takes its new state from the reservoir choice. -/
theorem step_rng_ne_zero {s s' : Scheduler} {e : Event} (h : s.step = some (e, s'))
    (hs : s.rng ≠ 0) : s'.rng ≠ 0 := by
  unfold step at h
  split at h
  · cases h
  · rename_i e₀ es hq
    dsimp only at h
    split at h
    · simp only [Option.some.injEq, Prod.mk.injEq] at h
      obtain ⟨-, rfl⟩ := h
      exact choose_rng_ne_zero _ _ _ _ _ _ hs
    · cases h

end Scheduler

/-! ## 4. Over whole sessions -/

namespace Session

open Scheduler (Call)

theorem rng_ne_zero_step {t : Session} (h : t.sched.rng ≠ 0) : (t.call .step).sched.rng ≠ 0 :=
  step_keeps (P := fun t => t.sched.rng ≠ 0) h fun _ _ hs => Scheduler.step_rng_ne_zero hs h

/-- Every call keeps the state non-zero: scheduling and moving the clock leave it alone, a
    draw applies the update, and a drain is a run of steps. -/
theorem rng_ne_zero_call {t : Session} (h : t.sched.rng ≠ 0) (c : Call) :
    (t.call c).sched.rng ≠ 0 := by
  cases c with
  | schedule a d =>
    simp only [Session.call]
    split
    · rename_i e s hs
      rw [(Scheduler.schedule_eq_ok hs).2.2.2]
      exact h
    · exact h
  | advance d =>
    simp only [Session.call]
    split
    · rename_i s hs
      rw [(Scheduler.advance_eq_ok hs).2]
      exact h
    · exact h
  | nextU64 => exact Random.mix_ne_zero h
  | nextBelow k => exact Random.mix_ne_zero h
  | step => exact rng_ne_zero_step h
  | runUntilIdle => exact drain_induction (fun t => t.sched.rng ≠ 0) (fun _ => rng_ne_zero_step) h

/-- **The random state is never zero.** A seed of 0 is replaced by the non-zero default seed and
    every other seed is kept; the update of a draw is a bijection of the 64-bit words that fixes
    0; so from any seed, after any sequence of calls (draws, steps, drains, scheduling, moving
    the clock), the state is not zero. -/
theorem random_state_ne_zero :
    Random.normalizeSeed 0 = Random.defaultSeed ∧ Random.defaultSeed ≠ 0 ∧
    (∀ seed, seed ≠ 0 → Random.normalizeSeed seed = seed) ∧
    Bijective Random.mix ∧ Random.mix 0 = 0 ∧
    ∀ (seed : UInt64) (calls : List Call), (run seed calls).sched.rng ≠ 0 := by
  refine ⟨rfl, by decide, fun seed h => by simp [Random.normalizeSeed, h],
    Random.mix_bijective, Random.mix_zero, fun seed calls => ?_⟩
  exact call_invariant (fun t c (h : t.sched.rng ≠ 0) => rng_ne_zero_call h c) calls _
    (Random.normalizeSeed_ne_zero seed)

end Session

end Frond
