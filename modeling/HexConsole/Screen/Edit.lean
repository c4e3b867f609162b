import HexConsole.Screen.Sprite

/-! # Edits

An edit clears the screen, sets or inverts one pixel, or draws a sprite. Programs and
presentations change screens in no other way.
-/

namespace HexConsole.Screen

/-- A change of a screen. -/
inductive Edit where
  | clear
  | set (x y : Nat) (on : Bool)
  | toggle (x y : Nat)
  | draw (x y : Nat) (sprite : List UInt8)
  deriving DecidableEq, Repr

/-- The screen after an edit. -/
def edit (s : Screen) : Edit → Screen
  | .clear => dark
  | .set x y on => s.set x y on
  | .toggle x y => (s.toggle x y).2
  | .draw x y sprite => (s.drawSprite x y sprite).2

/-- The screen that edits make of a dark one, one after another. -/
def ofEdits (edits : List Edit) : Screen := edits.foldl edit dark

end HexConsole.Screen
