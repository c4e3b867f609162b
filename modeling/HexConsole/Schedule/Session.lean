import HexConsole.Log
import HexConsole.Noise
import HexConsole.Schedule.Timelines

/-! # Sessions

A session is a run that gets its threads and in which the timelines take turns by the clock.
Each timeline is due once in every period of its own, the earliest goes first, and a turn is
the row of actions from one look at the stop flag to the next. A session is one of the many
interleavings that the actions allow.
-/

namespace HexConsole

/-- A run, its generator of random bytes, and the nanosecond at which each timeline is due. -/
structure Session (P : Type) where
  timelines : Timelines P
  noise : Noise
  cpuDue : Nat
  timersDue : Nat
  displayDue : Nat

namespace Session

variable {P : Type} [Presentation P]

/-- The least number of nanoseconds between two turns of a timeline. -/
def shortestPeriod : Nat := 1000

/-- The nanoseconds from one turn of a timeline to the next. -/
def turnPeriod (rate : UInt32) : Nat := max shortestPeriod (Rates.period rate)

/-- A session starts with all timelines due at once, unless a rate is zero. -/
def start (console : Console) (presentation : P) (noise : Noise) : Except Fault (Session P) :=
  (Timelines.launch .started console presentation).map fun timelines => ⟨timelines, noise, 0, 0, 0⟩

/-- The processor's turn: it looks at the stop flag, executes an instruction, and stops the
others if that failed. -/
def cpuTurn (s : Session P) : Session P :=
  let (byte, noise) := s.noise.next
  let timelines := s.timelines.actUntil (·.cpu.rests) (.cpu byte) 3
  { s with timelines, noise, cpuDue := s.cpuDue + turnPeriod timelines.console.rates.cpu }

/-- The timers' turn: they look at the stop flag, tick, and tell the display of a beep. -/
def timersTurn (s : Session P) : Session P :=
  let timelines := s.timelines.actUntil (·.timers.rests) .timers 3
  { s with timelines, timersDue := s.timersDue + turnPeriod timelines.console.rates.timers }

/-- The display's turn: it reads the keypad, shows the frame and plays the queued beeps. -/
def displayTurn (s : Session P) : Session P :=
  let count := 2 * s.timelines.queued + 5
  let timelines := s.timelines.actUntil (·.display.rests) .display count
  { s with timelines, displayDue := s.displayDue + turnPeriod timelines.console.rates.display }

/-- The time at which a timeline is due, as long as it is not done. -/
def cpuDue? (s : Session P) : Option Nat :=
  match s.timelines.cpu with
  | .done _ => none
  | _ => some s.cpuDue

/-- The time at which the timers are due, as long as they are not done. -/
def timersDue? (s : Session P) : Option Nat :=
  match s.timelines.timers with
  | .done _ => none
  | _ => some s.timersDue

/-- The time at which the display is due, as long as it is not done. -/
def displayDue? (s : Session P) : Option Nat :=
  match s.timelines.display with
  | .done _ => none
  | _ => some s.displayDue

/-- The earliest of the times at which a timeline is due. -/
def due? (s : Session P) : Option Nat :=
  [s.cpuDue?, s.timersDue?, s.displayDue?].filterMap id |>.min?

/-- The turn of the timeline that is due first; at the same time the processor goes before
the timers and these before the display. -/
def turn (s : Session P) : Session P :=
  if s.cpuDue? = s.due? then s.cpuTurn
  else if s.timersDue? = s.due? then s.timersTurn
  else s.displayTurn

/-- Turns until all timelines are done, at most so many of them. -/
def run (s : Session P) : Nat → Session P
  | 0 => s
  | count + 1 =>
    match s.timelines.result? with
    | some _ => s
    | none => s.turn.run count

/-- The entry with which a run begins. -/
def startEntry (rates : Rates) : Entry :=
  ⟨.debug, "starting scheduler with " ++ rates.text⟩

/-- The entry for a fault of the processor. -/
def failureEntry (fault : Fault) : Entry := ⟨.error, "stopping: " ++ fault.message⟩

/-- The entry with which a run ends. -/
def endEntry : Entry := ⟨.debug, "scheduler stopped"⟩

/-- What a run that has ended has logged. -/
def log (s : Session P) : List Entry :=
  let failure := match s.timelines.cpu with
    | .done (.error fault) => [failureEntry fault]
    | _ => []
  startEntry s.timelines.console.rates :: failure ++ [endEntry]

end Session

end HexConsole
