import HexConsole.Layout

/-! # Options

The command line chooses a program, by its place in the catalog or by its file, and says how
to run it. A line that makes no sense is refused with the kind of its mistake; a question for
help or for the version ends the reading of the line in the same way.
-/

namespace HexConsole.Launcher

/-- What a command line asks for. -/
structure Options where
  game : Option Nat
  file : Option String
  gameDir : String
  listGames : Bool
  cpuRate : UInt32
  displayRate : UInt32
  timerRate : UInt32
  scale : UInt32
  headless : Bool
  deriving DecidableEq, Repr

/-- Why a command line is not followed. -/
inductive Refusal where
  /-- Nothing says which program to run. -/
  | missingProgram
  /-- An argument that is not known, or one argument too many. -/
  | unknownArgument
  /-- Arguments that exclude each other, or one that is given twice. -/
  | conflict
  /-- A value that is not a number or out of range. -/
  | badNumber
  /-- A value that is missing or empty. -/
  | missingValue
  /-- A value for a switch. -/
  | unexpectedValue
  | helpRequested
  | versionRequested
  deriving DecidableEq, Repr

/-- What a command line has said so far. -/
structure Draft where
  game : Option Nat := none
  file : Option String := none
  gameDir : Option String := none
  cpuRate : Option UInt32 := none
  displayRate : Option UInt32 := none
  timerRate : Option UInt32 := none
  scale : Option UInt32 := none
  listGames : Bool := false
  headless : Bool := false
  deriving DecidableEq, Repr

/-- The options of a finished line: at most one program, and at least one unless the games
are to be listed. -/
def Draft.finish (d : Draft) : Except Refusal Options :=
  if d.game.isSome && d.file.isSome then .error .conflict
  else if d.game.isNone && d.file.isNone && !d.listGames then .error .missingProgram
  else .ok {
    game := d.game
    file := d.file
    gameDir := d.gameDir.getD "roms"
    listGames := d.listGames
    cpuRate := d.cpuRate.getD defaultCpuRate
    displayRate := d.displayRate.getD defaultDisplayRate
    timerRate := d.timerRate.getD defaultTimerRate
    scale := d.scale.getD 10
    headless := d.headless }

end HexConsole.Launcher
