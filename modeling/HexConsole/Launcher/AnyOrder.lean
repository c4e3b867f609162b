import HexConsole.Launcher.Start
import HexConsole.Schedule.Reach

/-! # Starts in any order of the timelines

Until the console runs, a start depends only on its options and on what opening the program's
path gives. From there on it depends on the order in which the timelines act, and it returns
when they are done. A start whose timelines take turns by the clock is one of these starts.
-/

namespace HexConsole.Launcher

/-- The console that is ready to run the program of a source. -/
def Plan.console (p : Plan) (source : Source) : Except Failure Console :=
  match Machine.initial.load source with
  | (.error fault, _) => .error (.unreadable p.path fault)
  | (.ok _, machine) => .ok (.ofMachine machine p.rates)

/-- What opening the paths of a tree gives. -/
def FileTree.opening (files : FileTree) (path : String) : Except FileError Source :=
  (files.open? path).map Node.source

end HexConsole.Launcher
