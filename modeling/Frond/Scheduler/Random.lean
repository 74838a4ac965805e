/-!
# The scheduler's random numbers

A xorshift64* generator: the state is a non-zero 64-bit word, each draw applies three
xor-shifts to it (right 12, left 25, right 27) and hands out the new state times a fixed odd
multiplier, all modulo 2^64. The xor-shift step is invertible and sends 0 to 0, so a non-zero
state never becomes 0; a seed of 0 is therefore replaced by a fixed non-zero seed.
-/

namespace Frond

namespace Random

/-- The seed used in place of 0. -/
def defaultSeed : UInt64 := 0x9E3779B97F4A7C15

/-- The multiplier applied to the state to give a draw. -/
def multiplier : UInt64 := 2685821657736338717

/-- A usable seed: 0 becomes `defaultSeed`, any other seed stays. -/
def normalizeSeed (seed : UInt64) : UInt64 := if seed == 0 then defaultSeed else seed

/-- The state after one draw. -/
def mix (x : UInt64) : UInt64 :=
  let x := x ^^^ (x >>> 12)
  let x := x ^^^ (x <<< 25)
  x ^^^ (x >>> 27)

/-- One draw: the value handed out and the next state. -/
def draw (state : UInt64) : UInt64 × UInt64 :=
  let x := mix state
  (x * multiplier, x)

/-- A draw below `limit`: the value modulo the limit, or 0 for a limit of 0. The state moves on
    in both cases. -/
def drawBelow (state : UInt64) (limit : UInt32) : UInt32 × UInt64 :=
  let (v, s) := draw state
  (if limit == 0 then 0 else (v % limit.toUInt64).toUInt32, s)

example : normalizeSeed 0 = 11400714819323198485 := by decide
example : (draw 1).1 = 5180492295206395165 := by decide

end Random

end Frond
