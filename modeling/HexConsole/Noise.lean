/-! # Noise

The bytes that programs draw come from a generator of random numbers that is started from a
seed.
-/

namespace HexConsole

/-- A generator of random bytes. -/
structure Noise where
  generator : StdGen

namespace Noise

/-- The generator that a seed starts. -/
def ofSeed (seed : Nat) : Noise := ⟨mkStdGen seed⟩

/-- The next byte and the generator after it. -/
def next (noise : Noise) : UInt8 × Noise :=
  let (value, generator) := randNat noise.generator 0 255
  (UInt8.ofNat value, ⟨generator⟩)

end Noise

end HexConsole
