import HexConsole.Guarded.Basic
import HexConsole.Window.Texture

/-! # Guarded textures

The picture of a frame once more, with a guard before the product that makes a colour of a level.
-/

namespace HexConsole.Guarded

/-- The bytes of a pixel, whose three colours are equal. -/
def pixelBytes (level : UInt8) : Guarded (List UInt8) := do
  let colour ← product UInt8.size level.toNat 255
  return List.replicate 3 (UInt8.ofNat colour)

/-- The bytes of a frame, pixel by pixel. -/
def texture (frame : Screen) : Guarded (List UInt8) := do
  return (← frame.rows.flatten.mapM pixelBytes).flatten

end HexConsole.Guarded
