import HexConsole.Machine.Program
import HexConsole.Machine.Step
import HexConsole.Noise

/-! # Histories

A history is a list of things that happen to a running machine. Each of them has an answer,
and the machine lives through them in order, whether or not some of the steps fail.
-/

namespace HexConsole.Machine

/-- What can happen to a running machine. -/
inductive Event where
  | step (byte : UInt8)
  | tick
  | key (key : Key)
  deriving DecidableEq, Repr

/-- What the machine answers to an event. -/
inductive Answer where
  | stepped (result : Except Fault Unit)
  | ticked (beep : Bool)
  | noted

/-- The machine's answer to an event, and the machine after it. -/
def react (m : Machine) : Event → Answer × Machine
  | .step byte => let (result, m) := m.step byte; (.stepped result, m)
  | .tick => let (beep, m) := m.tick; (.ticked beep, m)
  | .key key => (.noted, m.setKey key)

/-- The machine after a history. -/
def after (m : Machine) (events : List Event) : Machine :=
  events.foldl (fun m event => (m.react event).2) m

/-- The answers of a machine during a history. -/
def answers (m : Machine) : List Event → List Answer
  | [] => []
  | event :: events =>
    let (answer, m) := m.react event
    answer :: m.answers events

/-- What became of a row of steps that ends with the first that fails. -/
structure Stretch where
  succeeded : Nat
  fault : Option Fault
  machine : Machine
  noise : Noise

/-- The stretch goes on for at most so many steps, up to the first that fails. -/
def Stretch.extend (s : Stretch) : Nat → Stretch
  | 0 => s
  | count + 1 =>
    let (byte, noise) := s.noise.next
    match s.machine.step byte with
    | (.error fault, machine) => { s with fault := some fault, machine, noise }
    | (.ok (), machine) =>
      Stretch.extend { s with succeeded := s.succeeded + 1, machine, noise } count

/-- At most so many steps, up to the first that fails. -/
def stretch (m : Machine) (noise : Noise) (count : Nat) : Stretch :=
  Stretch.extend ⟨0, none, m, noise⟩ count

/-- What a stretch logs, the latest entry first, on top of what was logged before. -/
def stretchLog (m : Machine) (noise : Noise) (log : List Entry) : Nat → List Entry
  | 0 => log
  | count + 1 =>
    let log := m.stepLog ++ log
    let (byte, noise) := noise.next
    match m.step byte with
    | (.error _, _) => log
    | (.ok (), m) => m.stretchLog noise log count

end HexConsole.Machine
