import HexConsole.Launcher.Help
import HexConsole.Launcher.Start

/-! # The program

The program follows its command line: it reads the file, lets the console run in real time
and writes the log to standard error. Its window is kept in memory and has no keyboard, so
it never closes.
-/

open HexConsole Launcher

/-- Messages go to standard error, from the level of information up. -/
def writeLog (entries : List Entry) : IO Unit := do
  for entry in Entry.atLeast .info entries do
    IO.eprintln ("[" ++ entry.level.label ++ "] " ++ entry.text)

/-- What opening and reading a path gives. -/
def readNode (path : String) : IO (Except FileError Node) := do
  if let some error := pathError? path then return .error error
  try
    let bytes ← IO.FS.readBinFile path
    return .ok (.file bytes.toList)
  catch
    | .noFileOrDirectory .. => return .error .notFound
    | .inappropriateType _ 21 _ => return .ok .directory
    | .inappropriateType .. => return .error .notDirectory
    | .permissionDenied .. => return .error ⟨"Permission denied", some 13⟩
    | .invalidArgument _ 36 _ => return .error .nameTooLong
    | e => return .error ⟨toString e, none⟩

/-- The console takes its turns when they are due, until it has come to its end. -/
partial def play {P : Type} [Presentation P] (origin : Nat) (s : Session P) :
    IO (Session P) := do
  match s.timelines.result?, s.due? with
  | none, some due =>
    let elapsed := (← IO.monoNanosNow) - origin
    if elapsed < due then IO.sleep (UInt32.ofNat ((due - elapsed) / 1000000 + 1))
    play origin s.turn
  | _, _ => return s

/-- A console runs in real time with a presentation. -/
def runConsole {P : Type} [Presentation P] (console : Console) (presentation : P) :
    IO (List Entry × Except Failure Unit) := do
  let noise := Noise.ofSeed (← IO.monoNanosNow)
  match Session.start console presentation noise with
  | .error fault => return ([], .error (.fault fault))
  | .ok session => return outcomeOf (← play (← IO.monoNanosNow) session)

/-- A plan is carried out. -/
def carryOut (plan : Plan) : IO (Except Failure Unit) := do
  match ← readNode plan.path with
  | .error error => return .error (.unopened plan.path error)
  | .ok node =>
    let (log, loaded) := plan.load node
    writeLog log
    match loaded with
    | .error failure => return .error failure
    | .ok console =>
      let (log, result) ← match plan.window with
        | none => runConsole console Recorder.empty
        | some scale => runConsole console (Window.ofScale scale)
      writeLog log
      return result

/-- Options are followed. -/
def follow (options : Options) : IO (Except Failure Unit) := do
  if options.listGames then
    IO.println catalogLine
    return .ok ()
  match options.plan with
  | .error failure => return .error failure
  | .ok plan => carryOut plan

/-- The program; its status tells refused command lines from failures and success. -/
def main (arguments : List String) : IO UInt32 := do
  match Options.ofArguments arguments with
  | .error .helpRequested =>
    IO.println helpText
    return 0
  | .error .versionRequested =>
    IO.print versionLine
    return 0
  | .error refusal =>
    IO.eprintln ("error: " ++ refusal.sentence)
    return 2
  | .ok options =>
    match ← follow options with
    | .ok () => return 0
    | .error failure =>
      writeLog [⟨.error, failure.message⟩]
      return 1
