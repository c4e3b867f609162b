import HexConsole.Presentation

/-! # The recorder

A recorder is a presentation without a window. It counts frames and beeps, keeps the last
frame, and reports the keys of a script, of which the last repeats for ever. It can be told
to close after some number of frames.
-/

namespace HexConsole

/-- A presentation that shows nothing and remembers what it was given. -/
structure Recorder where
  frames : Nat
  beeps : Nat
  lastFrame : Option Screen
  script : List Key
  limit : Option Nat
  deriving DecidableEq

namespace Recorder

/-- A recorder that has seen nothing, with a script of keys and a limit of frames. -/
def ofScript (script : List Key) (limit : Option Nat) : Recorder :=
  ⟨0, 0, none, script, limit⟩

/-- A recorder without a script that never closes. -/
def empty : Recorder := ofScript [] none

/-- A frame is counted and kept. -/
def render (r : Recorder) (frame : Screen) : Recorder :=
  { r with frames := r.frames + 1, lastFrame := some frame }

/-- A beep is counted. -/
def beep (r : Recorder) : Recorder := { r with beeps := r.beeps + 1 }

/-- The next key of the script is reported; the last is kept. -/
def pollKey (r : Recorder) : Key × Recorder :=
  match r.script with
  | [] => (.released, r)
  | [key] => (key, r)
  | key :: script => (key, { r with script })

/-- A recorder is closed once it has as many frames as its limit. -/
def closed (r : Recorder) : Bool :=
  match r.limit with
  | none => false
  | some limit => limit ≤ r.frames

instance : Presentation Recorder := ⟨render, beep, pollKey, closed⟩

end Recorder

end HexConsole
