import HexConsole.Screen.Basic

/-! # Textures

A texture is the picture of a frame in three colours a pixel. Pixel follows pixel and row
follows row; a lit pixel is white and a dark one is black.
-/

namespace HexConsole.Window

/-- The bytes of a pixel: red, green and blue are equal. -/
def pixelBytes (level : UInt8) : List UInt8 := List.replicate 3 (level * 255)

/-- The bytes of a frame. -/
def texture (frame : Screen) : List UInt8 :=
  frame.rows.flatMap fun row => row.flatMap pixelBytes

/-- The bytes of one row of a texture. -/
def textureRowSize : Nat := 3 * screenWidth

end HexConsole.Window
