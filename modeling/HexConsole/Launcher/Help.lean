import HexConsole.Launcher.Options

/-! # Help

The help tells what the command line understands. A refused command line is answered with
one sentence for its mistake.
-/

namespace HexConsole.Launcher

/-- The text for a request for help. -/
def helpText : String := "\n".intercalate [
  "Runs a CHIP-8 program, picked from the bundled catalog or from a file.",
  "",
  "Usage: chip8 [OPTIONS] [GAME]",
  "",
  "  GAME                 catalog number of the game to run (see --list)",
  "  --rom ROM            run this file instead of a catalog game",
  "  --rom-dir DIR        directory holding the catalog games [default: roms]",
  "  --list               print the catalog and exit",
  "  --cpu-hz N           instructions per second [default: 540]",
  "  --display-hz N       frames per second [default: 60]",
  "  --timer-hz N         delay and sound timer ticks per second [default: 60]",
  "  --scale N            window pixels per pixel of the screen [default: 10]",
  "  --headless           run without a window, sound or keyboard",
  "  -h, --help           print help",
  "  -V, --version        print version"]

/-- The sentence for a refused command line. -/
def Refusal.sentence : Refusal → String
  | missingProgram => "a game number, --rom or --list is needed"
  | unknownArgument => "there is an unknown or superfluous argument"
  | conflict => "two arguments exclude each other"
  | badNumber => "a value is not a number in range"
  | missingValue => "a value is missing"
  | unexpectedValue => "a switch takes no value"
  | helpRequested => "help was asked for"
  | versionRequested => "the version was asked for"

end HexConsole.Launcher
