import HexConsole.Rates

/-! # Tickers

A ticker holds a timeline to its period. At the end of a turn the timeline pauses until it is due
again. One that is late goes on at once and is due a period later, so that the turns it missed are
not made up for. Times are nanoseconds of a clock that never goes back.
-/

namespace HexConsole

/-- A period, and the time at which its timeline is due next. -/
structure Ticker where
  period : Nat
  next : Nat
  deriving DecidableEq, Repr

namespace Ticker

/-- The ticker of a timeline that starts now. -/
def start (period now : Nat) : Ticker := ⟨period, now + period⟩

/-- How long a timeline pauses that waits now, and its ticker from then on. -/
def wait (t : Ticker) (now : Nat) : Nat × Ticker :=
  if now < t.next then (t.next - now, { t with next := t.next + t.period })
  else (0, { t with next := now + t.period })

/-- The pauses of a timeline after turns of given lengths. The first turn counts from a given time,
and each other one from the time at which the pause before it was to end. -/
def pauses (t : Ticker) (since : Nat) : List Nat → List Nat
  | [] => []
  | turn :: turns =>
    let now := since + turn
    let (pause, t) := t.wait now
    pause :: t.pauses (now + pause) turns

end Ticker

end HexConsole
