import HexConsole.Keypad
import HexConsole.Screen.Basic

/-! # Presentations

A presentation is what the console shows its frames on, beeps with and reads its keypad
from. It may close, and then the console stops.
-/

namespace HexConsole

/-- What the console asks of a presentation. -/
class Presentation (P : Type) where
  render : P → Screen → P
  beep : P → P
  pollKey : P → Key × P
  closed : P → Bool

namespace Presentation

/-- A use that the console makes of a presentation and that may change it. -/
inductive Call where
  | render (frame : Screen)
  | beep
  | poll
  deriving DecidableEq

/-- The frame of a call that shows one. -/
def Call.frame? : Call → Option Screen
  | render frame => some frame
  | beep | poll => none

variable {P : Type} [Presentation P]

/-- The presentation after a call. -/
def call (p : P) : Call → P
  | .render frame => render p frame
  | .beep => beep p
  | .poll => (pollKey p).2

/-- The presentation after a row of calls. -/
def after (p : P) (calls : List Call) : P := calls.foldl call p

end Presentation

end HexConsole
