import HexConsole.Instruction.Basic
import HexConsole.Instruction.Opcode

/-! # Decoding

Every word is decoded. The family decides alone for most of the set; the eighth family is
told apart by its last digit, and the last two families by their last two. What fits no
instruction is decoded as `unknown`.
-/

namespace HexConsole.Instruction

open Opcode

/-- Decoding of the family of register arithmetic. -/
def decodeArithmetic (w : UInt16) : Instruction :=
  match n w with
  | 0x0 => copy (x w) (y w)
  | 0x1 => or (x w) (y w)
  | 0x2 => and (x w) (y w)
  | 0x3 => xor (x w) (y w)
  | 0x4 => add (x w) (y w)
  | 0x5 => sub (x w) (y w)
  | 0x6 => shiftRight (x w)
  | 0x7 => subFrom (x w) (y w)
  | 0xE => shiftLeft (x w)
  | _ => unknown w

/-- Decoding of the family of key tests. -/
def decodeKeyTest (w : UInt16) : Instruction :=
  match (kk w).toNat with
  | 0x9E => skipKeyDown (x w)
  | 0xA1 => skipKeyUp (x w)
  | _ => unknown w

/-- Decoding of the family of timers, keys and memory. -/
def decodeTransfer (w : UInt16) : Instruction :=
  match (kk w).toNat with
  | 0x07 => readDelay (x w)
  | 0x0A => awaitKey (x w)
  | 0x15 => setDelay (x w)
  | 0x18 => setSound (x w)
  | 0x1E => addIndex (x w)
  | 0x29 => pointGlyph (x w)
  | 0x33 => storeDecimal (x w)
  | 0x55 => store (x w)
  | 0x65 => load (x w)
  | _ => unknown w

/-- The instruction that a word encodes. -/
def decode (w : UInt16) : Instruction :=
  match family w with
  | 0x0 => if w = 0x00E0 then clearScreen else if w = 0x00EE then leave else native (addr w)
  | 0x1 => jump (addr w)
  | 0x2 => call (addr w)
  | 0x3 => skipEqByte (x w) (kk w)
  | 0x4 => skipNeByte (x w) (kk w)
  | 0x5 => if n w = 0 then skipEq (x w) (y w) else unknown w
  | 0x6 => setByte (x w) (kk w)
  | 0x7 => addByte (x w) (kk w)
  | 0x8 => decodeArithmetic w
  | 0x9 => if n w = 0 then skipNe (x w) (y w) else unknown w
  | 0xA => setIndex (addr w)
  | 0xB => jumpOffset (addr w)
  | 0xC => random (x w) (kk w)
  | 0xD => draw (x w) (y w) (Fin.ofNat 16 (n w))
  | 0xE => decodeKeyTest w
  | _ => decodeTransfer w

end HexConsole.Instruction
