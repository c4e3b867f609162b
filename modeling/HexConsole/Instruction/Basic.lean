import HexConsole.Layout

/-! # Instructions

An instruction names the registers it uses and carries its other operands. Twelve-bit
addresses, immediate bytes and the height of a sprite are operands too. A word that encodes
no instruction is kept as `unknown`.
-/

namespace HexConsole

/-- The instructions of the console. -/
inductive Instruction where
  /-- A call of native code, which this console passes over. -/
  | native (addr : UInt16)
  | clearScreen
  | leave
  | jump (addr : UInt16)
  | call (addr : UInt16)
  | skipEqByte (x : Register) (byte : UInt8)
  | skipNeByte (x : Register) (byte : UInt8)
  | skipEq (x y : Register)
  | setByte (x : Register) (byte : UInt8)
  | addByte (x : Register) (byte : UInt8)
  | copy (x y : Register)
  | or (x y : Register)
  | and (x y : Register)
  | xor (x y : Register)
  | add (x y : Register)
  | sub (x y : Register)
  | shiftRight (x : Register)
  | subFrom (x y : Register)
  | shiftLeft (x : Register)
  | skipNe (x y : Register)
  | setIndex (addr : UInt16)
  /-- A jump to an address plus register zero. -/
  | jumpOffset (addr : UInt16)
  | random (x : Register) (mask : UInt8)
  | draw (x y : Register) (height : Fin 16)
  | skipKeyDown (x : Register)
  | skipKeyUp (x : Register)
  | readDelay (x : Register)
  | awaitKey (x : Register)
  | setDelay (x : Register)
  | setSound (x : Register)
  | addIndex (x : Register)
  /-- The index register is set to the glyph of a digit. -/
  | pointGlyph (x : Register)
  /-- The three decimal digits of a register go to memory. -/
  | storeDecimal (x : Register)
  /-- The registers up to `x` go to memory. -/
  | store (x : Register)
  /-- The registers up to `x` come from memory. -/
  | load (x : Register)
  | unknown (word : UInt16)
  deriving DecidableEq, Repr

end HexConsole
