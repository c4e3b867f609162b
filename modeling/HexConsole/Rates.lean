import HexConsole.Fault
import HexConsole.Layout

/-! # Rates

The processor, the display and the timers each work at a rate of their own. A rate of zero
has no period, so all three must be above zero. A period is the whole number of nanoseconds
that a rate leaves to each turn.
-/

namespace HexConsole

/-- How often a second the processor, the display and the timers work. -/
structure Rates where
  cpu : UInt32
  display : UInt32
  timers : UInt32
  deriving DecidableEq, Repr

namespace Rates

/-- The rates of a console that is told no others. -/
def standard : Rates := ⟨defaultCpuRate, defaultDisplayRate, defaultTimerRate⟩

/-- The fault of a rate that is zero. -/
def zeroFault (name : String) : Fault :=
  .invalidRates (name ++ " frequency must be above 0 Hz")

/-- Rates are valid if none is zero; the first that is zero is reported. -/
def validate (r : Rates) : Except Fault Unit :=
  if r.cpu = 0 then .error (zeroFault "cpu")
  else if r.display = 0 then .error (zeroFault "display")
  else if r.timers = 0 then .error (zeroFault "timer")
  else .ok ()

/-- The rates of three numbers, if they are valid. -/
def ofNumbers (cpu display timers : UInt32) : Except Fault Rates :=
  let rates : Rates := ⟨cpu, display, timers⟩
  rates.validate.map fun _ => rates

/-- The nanoseconds between two turns at a rate. -/
def period (rate : UInt32) : Nat := 1000000000 / rate.toNat

/-- The text that names the rates in the log. -/
def text (r : Rates) : String :=
  "Settings \x7b cpu_hz: " ++ toString r.cpu.toNat
    ++ ", display_hz: " ++ toString r.display.toNat
    ++ ", timer_hz: " ++ toString r.timers.toNat ++ " \x7d"

end Rates

end HexConsole
