import HexConsole.Screen.Basic

/-! # Sprites

A sprite is a column of bytes, each a row of eight pixels with the most significant bit on
the left. Drawing inverts the pixels under its set bits one after another, and each of them
wraps around on its own. A collision is the inversion of a lit pixel.
-/

namespace HexConsole.Screen

/-- Whether the pixel of a row at a place counted from the left is set. -/
def spriteBit (byte : UInt8) (k : Nat) : Bool := byte.toNat.testBit (7 - k)

/-- The points under the set bits of one row. -/
def rowPoints (x y : Nat) (byte : UInt8) : List (Nat × Nat) :=
  ((List.range 8).filter (spriteBit byte)).map fun k => (x + k, y)

/-- The points under the set bits of a sprite whose top left corner is given. -/
def spritePoints (x y : Nat) : List UInt8 → List (Nat × Nat)
  | [] => []
  | byte :: sprite => rowPoints x y byte ++ spritePoints x (y + 1) sprite

/-- A point is inverted after others; the answer is whether any of them was lit then. -/
def toggleNext (drawn : Bool × Screen) (point : Nat × Nat) : Bool × Screen :=
  let (hit, s) := drawn
  let (lit, s) := s.toggle point.1 point.2
  (hit || lit, s)

/-- The points are inverted in order; the answer is whether one of them was lit then. -/
def toggleAll (s : Screen) (points : List (Nat × Nat)) : Bool × Screen :=
  points.foldl toggleNext (false, s)

/-- The rows of a sprite are drawn below others, from a point downward. -/
def drawRows (drawn : Bool × Screen) (x y : Nat) : List UInt8 → Bool × Screen
  | [] => drawn
  | byte :: sprite => drawRows ((rowPoints x y byte).foldl toggleNext drawn) x (y + 1) sprite

/-- A sprite is drawn with its top left corner at a point; the answer is whether it hit. -/
def drawSprite (s : Screen) (x y : Nat) (sprite : List UInt8) : Bool × Screen :=
  drawRows (false, s) x y sprite

theorem drawRows_eq_foldl (drawn : Bool × Screen) (x y : Nat) (sprite : List UInt8) :
    drawRows drawn x y sprite = (spritePoints x y sprite).foldl toggleNext drawn := by
  induction sprite generalizing drawn y with
  | nil => rfl
  | cons byte sprite ih => rw [drawRows, spritePoints, List.foldl_append, ih]

theorem drawSprite_eq_toggleAll (s : Screen) (x y : Nat) (sprite : List UInt8) :
    s.drawSprite x y sprite = s.toggleAll (spritePoints x y sprite) :=
  drawRows_eq_foldl _ x y sprite

end HexConsole.Screen
