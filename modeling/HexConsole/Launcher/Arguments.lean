import HexConsole.Launcher.Options

/-! # Arguments

The arguments of a command line are read from left to right. Some take a value, which
follows an equals sign or is the next argument. Such a next argument is looked into only when
another known argument begins or the line ends, so a mistake in it can be overtaken by an
unknown argument behind it; a value behind an equals sign is looked into at once.
-/

namespace HexConsole.Launcher

/-- The arguments that take a value; only the place in the catalog has no name. -/
inductive Slot where
  | game
  | file
  | gameDir
  | cpuRate
  | displayRate
  | timerRate
  | scale
  deriving DecidableEq, Repr

/-- The arguments that take no value. -/
inductive Switch where
  | listGames
  | headless
  | help
  | version
  deriving DecidableEq, Repr

/-- The slot of a name. -/
def Slot.ofName? : String → Option Slot
  | "rom" => some file
  | "rom-dir" => some gameDir
  | "cpu-hz" => some cpuRate
  | "display-hz" => some displayRate
  | "timer-hz" => some timerRate
  | "scale" => some scale
  | _ => none

/-- The switch of a name. -/
def Switch.ofName? : String → Option Switch
  | "list" => some listGames
  | "headless" => some headless
  | "help" => some help
  | "version" => some version
  | _ => none

/-- The switch of a letter. -/
def Switch.ofLetter? : Char → Option Switch
  | 'h' => some help
  | 'V' => some version
  | _ => none

/-- The number that a row of decimal digits writes; there must be at least one. -/
def digits? (cs : List Char) : Option Nat :=
  if cs.isEmpty || !cs.all Char.isDigit then none
  else some (cs.foldl (fun n c => 10 * n + (c.toNat - 48)) 0)

/-- A number below a bound, with an optional plus sign. -/
def readBelow? (bound : Nat) (text : List Char) : Option Nat :=
  let cs := match text with
    | '+' :: cs => cs
    | cs => cs
  (digits? cs).filter (· < bound)

/-- A place in the catalog; it may be as large as a word of 64 bits. -/
def readGame (text : String) : Except Refusal Nat :=
  match readBelow? UInt64.size text.toList with
  | some n => .ok n
  | none => .error .badNumber

/-- A rate or a scale; a minus sign is accepted before zero. -/
def readSize (text : String) : Except Refusal UInt32 :=
  let n? := match text.toList with
    | '-' :: cs => (digits? cs).filter (· = 0)
    | cs => readBelow? UInt32.size cs
  match n? with
  | some n => .ok (UInt32.ofNat n)
  | none => .error .badNumber

/-- A path; it must not be empty. -/
def readPath (text : String) : Except Refusal String :=
  if text.isEmpty then .error .missingValue else .ok text

/-- A value goes where none has been before. -/
def fillOnce {α : Type} (old : Option α) (read : Except Refusal α) :
    Except Refusal (Option α) :=
  match old with
  | some _ => .error .conflict
  | none => read.map some

/-- A slot is filled with a value, which must be there and make sense. -/
def Draft.fill (d : Draft) (slot : Slot) : Option String → Except Refusal Draft
  | none => .error .missingValue
  | some text =>
    match slot with
    | .game => do return { d with game := ← fillOnce d.game (readGame text) }
    | .file => do return { d with file := ← fillOnce d.file (readPath text) }
    | .gameDir => do return { d with gameDir := ← fillOnce d.gameDir (readPath text) }
    | .cpuRate => do return { d with cpuRate := ← fillOnce d.cpuRate (readSize text) }
    | .displayRate => do
      return { d with displayRate := ← fillOnce d.displayRate (readSize text) }
    | .timerRate => do return { d with timerRate := ← fillOnce d.timerRate (readSize text) }
    | .scale => do return { d with scale := ← fillOnce d.scale (readSize text) }

/-- A switch is turned on, once at most. -/
def Draft.turnOn (d : Draft) : Switch → Except Refusal Draft
  | .listGames => if d.listGames then .error .conflict else .ok { d with listGames := true }
  | .headless => if d.headless then .error .conflict else .ok { d with headless := true }
  | .help => .error .helpRequested
  | .version => .error .versionRequested

/-- The state of the reading of a line: what was said, a slot whose value is still to be
looked into or still to come, whether the place in the catalog was given, and whether the
rest of the line has no names. -/
structure Reading where
  draft : Draft := {}
  pending : Option (Slot × Option String) := none
  gameGiven : Bool := false
  nameless : Bool := false

namespace Reading

/-- The pending value is looked into. -/
def settle (r : Reading) : Except Refusal Reading :=
  match r.pending with
  | none => .ok r
  | some (slot, text) => do return { r with draft := ← r.draft.fill slot text, pending := none }

/-- A switch takes effect after the pending value. -/
def switch (r : Reading) (s : Switch) : Except Refusal Reading := do
  let r ← r.settle
  return { r with draft := ← r.draft.turnOn s }

/-- An argument that begins with two dashes, from its name on. -/
def named (r : Reading) (cs : List Char) : Except Refusal Reading :=
  let name := String.ofList (cs.takeWhile (· != '='))
  let value := match cs.dropWhile (· != '=') with
    | [] => none
    | _ :: value => some (String.ofList value)
  match Slot.ofName? name, Switch.ofName? name, value with
  | some slot, _, some text => do
    let r ← r.settle
    return { r with draft := ← r.draft.fill slot (some text) }
  | some slot, _, none => do return { ← r.settle with pending := some (slot, none) }
  | none, some _, some _ => .error .unexpectedValue
  | none, some s, none => r.switch s
  | none, none, _ => .error .unknownArgument

/-- An argument that begins with one dash, from its first letter on. -/
def lettered (r : Reading) (c : Char) : Except Refusal Reading :=
  match Switch.ofLetter? c with
  | some s => r.switch s
  | none => .error .unknownArgument

/-- An argument that is neither a name nor the value of one. -/
def plain (r : Reading) (text : String) : Except Refusal Reading :=
  if r.gameGiven then .error .unknownArgument
  else do return { ← r.settle with pending := some (.game, some text), gameGiven := true }

/-- The next argument is read. -/
def next (r : Reading) (text : String) : Except Refusal Reading :=
  if r.nameless then r.plain text
  else
    match text.toList with
    | ['-', '-'] => .ok { r with nameless := true }
    | '-' :: '-' :: cs => r.named cs
    | '-' :: c :: _ => r.lettered c
    | _ =>
      match r.pending with
      | some (slot, none) => .ok { r with pending := some (slot, some text) }
      | _ => r.plain text

end Reading

/-- The options of a command line. -/
def Options.ofArguments (arguments : List String) : Except Refusal Options := do
  let r ← arguments.foldlM Reading.next {}
  (← r.settle).draft.finish

end HexConsole.Launcher
