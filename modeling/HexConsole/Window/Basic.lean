import HexConsole.Presentation
import HexConsole.Window.Keymap

/-! # The window

A window shows frames enlarged, beeps, and turns the keyboard into a keypad. What happens at
the keyboard waits in a queue until the keypad is read. Of the keys that are held down, the
lowest is reported. A beep lasts for a fixed time and ends with the first frame after it.
-/

namespace HexConsole

namespace Window

/-- What can happen at a window; a key may lack a code. -/
inductive Event where
  | down (code : Option Nat)
  | up (code : Option Nat)
  | quit
  deriving DecidableEq, Repr

/-- The milliseconds that a beep lasts. -/
def beepLength : Nat := 120

end Window

/-- A window and what it has seen and shown. -/
structure Window where
  scale : Nat
  queue : List Window.Event
  held : Vector Bool 16
  closed : Bool
  picture : Screen
  clock : Nat
  beepEnd : Option Nat
  deriving DecidableEq

namespace Window

/-- A new window, whose pixels are squares of a given size. -/
def ofScale (scale : Nat) : Window where
  scale := scale
  queue := []
  held := Vector.replicate _ false
  closed := false
  picture := .dark
  clock := 0
  beepEnd := none

/-- The size of the window across. -/
def width (w : Window) : Nat := screenWidth * w.scale

/-- The size of the window from top to bottom. -/
def height (w : Window) : Nat := screenHeight * w.scale

/-- Something happens at the window. -/
def post (w : Window) (event : Event) : Window := { w with queue := w.queue ++ [event] }

/-- Milliseconds pass. -/
def elapse (w : Window) (time : Nat) : Window := { w with clock := w.clock + time }

/-- A key of the keyboard goes down or up. -/
def hold (w : Window) (code : Nat) (down : Bool) : Window :=
  match keypadKey? code with
  | some key => { w with held := .ofFn fun k => if k = key then down else w.held.get k }
  | none => w

/-- The effect of an event of the queue. -/
def handle (w : Window) : Event → Window
  | .quit => { w with closed := true }
  | .down (some code) =>
    if code = escapeCode then { w with closed := true } else w.hold code true
  | .up (some code) => w.hold code false
  | .down none | .up none => w

/-- The events of the queue take effect in order. -/
def handleQueue (w : Window) : Window :=
  w.queue.foldl handle { w with queue := [] }

/-- The lowest key of the keypad that is held down. -/
def lowestHeld? (w : Window) : Option (Fin 16) :=
  (List.finRange 16).find? fun key => w.held.get key

/-- The keypad is read after all events have taken effect. -/
def pollKey (w : Window) : Key × Window :=
  let w := w.handleQueue
  match w.lowestHeld? with
  | some key => (.press (UInt8.ofNat key.val), w)
  | none => (.released, w)

/-- A frame is shown; a beep that has lasted long enough ends. -/
def render (w : Window) (frame : Screen) : Window :=
  let ended := w.beepEnd.any fun time => time ≤ w.clock
  { w with picture := frame, beepEnd := if ended then none else w.beepEnd }

/-- A beep starts, or starts again. -/
def beep (w : Window) : Window := { w with beepEnd := some (w.clock + beepLength) }

/-- Whether a beep can be heard. -/
def playing (w : Window) : Bool := w.beepEnd.isSome

instance : Presentation Window := ⟨render, beep, pollKey, closed⟩

end Window

end HexConsole
