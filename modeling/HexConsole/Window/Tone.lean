/-! # Tones

A beep is a square wave: the first half of every period is high and the second half low.
The phase is the part of the period that has passed, in single precision. A phase that grows
beyond all numbers is lost and stays no number.
-/

namespace HexConsole.Window

/-- A square wave and the part of a period that one sample takes. -/
structure Tone where
  increment : Float32
  phase : Float32

namespace Tone

/-- The height of the wave. -/
def volume : Float32 := Float32.ofBits 0x3E4CCCCD

/-- The number of periods a second. -/
def frequency : Float32 := 440.0

/-- The wave at its start, for a number of samples a second. -/
def ofSampleRate (samples : Nat) : Tone := ⟨frequency / Float32.ofNat samples, 0.0⟩

/-- The part of a phase that exceeds its whole periods. -/
def fraction (phase : Float32) : Float32 := phase - phase.floor

/-- The bits that stand for no number: the quiet ones with the sign set. -/
def noNumberBits : UInt32 := 0xFFC00000

/-- The bits that stand for a sample or a phase. -/
def bits (x : Float32) : UInt32 := if x.isNaN then noNumberBits else x.toBits

/-- The next sample and the wave after it. -/
def next (tone : Tone) : Float32 × Tone :=
  let sample := if tone.phase < 0.5 then volume else -volume
  (sample, { tone with phase := fraction (tone.phase + tone.increment) })

/-- The next samples and the wave after them. -/
def take (tone : Tone) : Nat → List Float32 × Tone
  | 0 => ([], tone)
  | count + 1 =>
    let (sample, tone) := tone.next
    let (samples, tone) := tone.take count
    (sample :: samples, tone)

end Tone

end HexConsole.Window
