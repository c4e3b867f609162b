import HexConsole.Layout

/-! # Font

Each hexadecimal digit has a glyph four pixels wide and five rows high. A row of a glyph is
one byte whose high half holds the pixels.
-/

namespace HexConsole

/-- The glyphs of the digits from 0 to F, one after another. -/
def font : List UInt8 := [
  0xF0, 0x90, 0x90, 0x90, 0xF0, -- 0
  0x20, 0x60, 0x20, 0x20, 0x70, -- 1
  0xF0, 0x10, 0xF0, 0x80, 0xF0, -- 2
  0xF0, 0x10, 0xF0, 0x10, 0xF0, -- 3
  0x90, 0x90, 0xF0, 0x10, 0x10, -- 4
  0xF0, 0x80, 0xF0, 0x10, 0xF0, -- 5
  0xF0, 0x80, 0xF0, 0x90, 0xF0, -- 6
  0xF0, 0x10, 0x20, 0x40, 0x40, -- 7
  0xF0, 0x90, 0xF0, 0x90, 0xF0, -- 8
  0xF0, 0x90, 0xF0, 0x10, 0xF0, -- 9
  0xF0, 0x90, 0xF0, 0x90, 0x90, -- A
  0xE0, 0x90, 0xE0, 0x90, 0xE0, -- B
  0xF0, 0x80, 0x80, 0x80, 0xF0, -- C
  0xE0, 0x90, 0x90, 0x90, 0xE0, -- D
  0xF0, 0x80, 0xF0, 0x80, 0xF0, -- E
  0xF0, 0x80, 0xF0, 0x80, 0x80] -- F

theorem length_font : font.length = 16 * glyphSize := rfl

/-- The rows of the glyph of a digit. -/
def glyph (digit : Fin 16) : List UInt8 :=
  (font.drop (glyphSize * digit)).take glyphSize

end HexConsole
