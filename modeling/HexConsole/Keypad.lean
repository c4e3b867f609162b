/-! # Keypad

The keypad has sixteen keys, numbered from 0 to F. The machine knows only the key that was
reported last; its number means something only while the key is down.
-/

namespace HexConsole

/-- The latest report on the keypad. -/
structure Key where
  code : UInt8
  pressed : Bool
  deriving DecidableEq, Repr

namespace Key

/-- No key is down. -/
def released : Key := ⟨0, false⟩

/-- The key of the code's low half is down. -/
def press (code : UInt8) : Key := ⟨code &&& 0xF, true⟩

/-- A key is down for a byte if it is pressed and is the key of the byte's low half. -/
def isDown (key : Key) (byte : UInt8) : Bool :=
  key.pressed && key.code == byte &&& 0xF

end Key

end HexConsole
