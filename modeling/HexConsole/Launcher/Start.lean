import HexConsole.Launcher.Arguments
import HexConsole.Launcher.Catalog
import HexConsole.Launcher.Files
import HexConsole.Recorder
import HexConsole.Schedule.Session
import HexConsole.Window.Basic

/-! # Starting the console

A command line that is followed either lists the games or runs a program. The program is
found, the rates are checked, the file is opened and read, and only then does the console
run. Whatever goes wrong on the way ends the start with one sentence.
-/

namespace HexConsole.Launcher

/-- Why a start ends without success. -/
inductive Failure where
  | unknownGame (place : Nat)
  | noProgram
  | unopened (path : String) (error : FileError)
  | unreadable (path : String) (fault : Fault)
  | fault (fault : Fault)
  /-- The run was broken off before it ended. -/
  | unfinished
  deriving DecidableEq, Repr

/-- The sentence for a failure; a broken source is named with its fault and once more. -/
def Failure.message : Failure → String
  | unknownGame place => unknownGameText place
  | noProgram => "expected a game number or --rom"
  | unopened path error => "unable to open " ++ path ++ ": " ++ error.text
  | unreadable path f =>
    let cause := match f with
      | .unreadable reason => ": " ++ reason
      | _ => ""
    "unable to load " ++ path ++ ": " ++ f.message ++ cause
  | fault f => f.message
  | unfinished => "the run was broken off"

/-- What a start prints and logs, and how it ends. -/
structure Report where
  stdout : String
  log : List Entry
  result : Except Failure Unit

/-- What is to be run: a file at some rates, in a window unless there shall be none. -/
structure Plan where
  path : String
  rates : Rates
  window : Option Nat

namespace Options

/-- The path of the program: the file that was named, or else the game. -/
def programPath (o : Options) : Except Failure String :=
  match o.file, o.game with
  | some path, _ => .ok path
  | none, some place =>
    match gamePath? o.gameDir place with
    | some path => .ok path
    | none => .error (.unknownGame place)
  | none, none => .error .noProgram

/-- The plan of options that do not ask for the list of games. -/
def plan (o : Options) : Except Failure Plan := do
  let path ← o.programPath
  let rates ← (Rates.ofNumbers o.cpuRate o.displayRate o.timerRate).mapError .fault
  return ⟨path, rates, if o.headless then none else some o.scale.toNat⟩

end Options

/-- The entry for a program that was loaded. -/
def loadedEntry (path : String) (size : Nat) : Entry :=
  ⟨.info, "loaded " ++ path ++ " (" ++ toString size ++ " bytes)"⟩

/-- The entry for a run that ended without a fault. -/
def stoppedEntry : Entry := ⟨.info, "stopped"⟩

/-- What loading from an opened path logs, and the console that is ready to run. -/
def Plan.load (p : Plan) (node : Node) : List Entry × Except Failure Console :=
  let source := node.source
  match Machine.initial.load source with
  | (.error fault, _) => (source.log, .error (.unreadable p.path fault))
  | (.ok size, machine) =>
    (source.log ++ [loadedEntry p.path size], .ok (.ofMachine machine p.rates))

/-- What is logged after a run, and how it counts. -/
def outcomeOf {P : Type} [Presentation P] (s : Session P) : List Entry × Except Failure Unit :=
  match s.timelines.result? with
  | none => ([], .error .unfinished)
  | some (.error fault) => (s.log, .error (.fault fault))
  | some (.ok ()) => (s.log ++ [stoppedEntry], .ok ())

/-- A console runs with a presentation for at most so many turns. -/
def drive {P : Type} [Presentation P] (console : Console) (presentation : P) (noise : Noise)
    (turns : Nat) : List Entry × Except Failure Unit :=
  match Session.start console presentation noise with
  | .error fault => ([], .error (.fault fault))
  | .ok session => outcomeOf (session.run turns)

/-- A program is loaded from an opened path and run; the events wait at the window. -/
def Plan.run (p : Plan) (node : Node) (events : List Window.Event) (noise : Noise)
    (turns : Nat) : Report :=
  match p.load node with
  | (log, .error failure) => ⟨"", log, .error failure⟩
  | (log, .ok console) =>
    let (rest, result) := match p.window with
      | none => drive console Recorder.empty noise turns
      | some scale => drive console { Window.ofScale scale with queue := events } noise turns
    ⟨"", log ++ rest, result⟩

/-- Options are followed in a tree of files, with what happens at the window given. -/
def Options.start (o : Options) (files : FileTree) (events : List Window.Event)
    (noise : Noise) (turns : Nat) : Report :=
  if o.listGames then ⟨catalogLine ++ "\n", [], .ok ()⟩
  else
    match o.plan with
    | .error failure => ⟨"", [], .error failure⟩
    | .ok plan =>
      match files.open? plan.path with
      | .error error => ⟨"", [], .error (.unopened plan.path error)⟩
      | .ok node => plan.run node events noise turns

/-- The line that tells the version. -/
def versionLine : String := "chip8 0.1.0\n"

/-- How a process ends: its status, what it prints unless that is a text of help, and its
log. -/
structure Ending where
  status : Nat
  stdout : Option String
  log : List Entry

/-- The ending for a command line that is not followed. -/
def Refusal.ending : Refusal → Ending
  | .versionRequested => ⟨0, some versionLine, []⟩
  | .helpRequested => ⟨0, none, []⟩
  | _ => ⟨2, none, []⟩

/-- The ending for a start: a failure is logged and gives status one. -/
def Report.ending (r : Report) : Ending :=
  match r.result with
  | .ok () => ⟨0, some r.stdout, r.log⟩
  | .error failure => ⟨1, some r.stdout, r.log ++ [⟨.error, failure.message⟩]⟩

/-- The console as a process of its own. -/
def process (arguments : List String) (files : FileTree) (events : List Window.Event)
    (noise : Noise) (turns : Nat) : Ending :=
  match Options.ofArguments arguments with
  | .error refusal => refusal.ending
  | .ok options => (options.start files events noise turns).ending

end HexConsole.Launcher
