import HexConsole.Keypad
import HexConsole.Layout

/-! # The keyboard as a keypad

The keypad lies on the left four columns of a QWERTY keyboard. A key of the keyboard is
known by its code, which for a printable key is the code of its character without shift.
-/

namespace HexConsole.Window

/-- The keys of the keyboard that stand for keys of the keypad, row by row. -/
def keyboard : List (Char × Fin 16) := [
  ('1', 0x1), ('2', 0x2), ('3', 0x3), ('4', 0xC),
  ('q', 0x4), ('w', 0x5), ('e', 0x6), ('r', 0xD),
  ('a', 0x7), ('s', 0x8), ('d', 0x9), ('f', 0xE),
  ('z', 0xA), ('x', 0x0), ('c', 0xB), ('v', 0xF)]

/-- The code of the key that closes the window. -/
def escapeCode : Nat := 27

/-- The key of the keypad that a key of the keyboard stands for. -/
def keypadKey? (code : Nat) : Option (Fin 16) :=
  (keyboard.find? fun entry => entry.1.toNat == code).map (·.2)

theorem keypadKey?_escapeCode : keypadKey? escapeCode = none := by decide

/-- Every key of the keypad has exactly one key of the keyboard. -/
theorem keyboard_perm : (keyboard.map (·.2)).Perm (List.finRange 16) := by decide

end HexConsole.Window
