/-! # Log entries

Every message of the console has a level. A reader chooses the least level that it wants
to see.
-/

namespace HexConsole

/-- The importance of a message, from the least to the most. -/
inductive Level where
  | trace
  | debug
  | info
  | warn
  | error
  deriving DecidableEq, Repr

/-- The place of a level in the order of importance. -/
def Level.rank : Level → Nat
  | .trace => 0
  | .debug => 1
  | .info => 2
  | .warn => 3
  | .error => 4

/-- The word that stands for a level. -/
def Level.label : Level → String
  | .trace => "TRACE"
  | .debug => "DEBUG"
  | .info => "INFO"
  | .warn => "WARN"
  | .error => "ERROR"

/-- A message with its level. -/
structure Entry where
  level : Level
  text : String
  deriving DecidableEq, Repr

/-- The messages that are at least as important as a level. -/
def Entry.atLeast (least : Level) (entries : List Entry) : List Entry :=
  entries.filter fun entry => least.rank ≤ entry.level.rank

end HexConsole
