import HexConsole.Instruction.Decode

/-! # Encoding

Every instruction has a word. The shifts ignore the third digit of their word and are
written with a zero there. An instruction that some word encodes is well formed: its address
has twelve bits, it is no call of native code in the place of another instruction, and
`unknown` holds a word outside the instruction set.
-/

namespace HexConsole

/-- The words outside the instruction set. -/
def Opcode.Unassigned (w : UInt16) : Prop :=
  (family w = 0x5 ∨ family w = 0x9) ∧ n w ≠ 0 ∨
  family w = 0x8 ∧ n w ∉ [0x0, 0x1, 0x2, 0x3, 0x4, 0x5, 0x6, 0x7, 0xE] ∨
  family w = 0xE ∧ (kk w).toNat ∉ [0x9E, 0xA1] ∨
  family w = 0xF ∧ (kk w).toNat ∉ [0x07, 0x0A, 0x15, 0x18, 0x1E, 0x29, 0x33, 0x55, 0x65]

instance : DecidablePred Opcode.Unassigned := fun _ =>
  inferInstanceAs (Decidable ((_ ∨ _) ∧ _ ∨ _ ∧ _ ∨ _ ∧ _ ∨ _ ∧ _))

namespace Instruction

open Opcode

/-- The word that encodes an instruction. -/
def encode : Instruction → UInt16
  | native addr => ofAddr 0x0 addr
  | clearScreen => 0x00E0
  | leave => 0x00EE
  | jump addr => ofAddr 0x1 addr
  | call addr => ofAddr 0x2 addr
  | skipEqByte x byte => ofByte 0x3 x byte
  | skipNeByte x byte => ofByte 0x4 x byte
  | skipEq x y => ofDigits 0x5 x y 0x0
  | setByte x byte => ofByte 0x6 x byte
  | addByte x byte => ofByte 0x7 x byte
  | copy x y => ofDigits 0x8 x y 0x0
  | or x y => ofDigits 0x8 x y 0x1
  | and x y => ofDigits 0x8 x y 0x2
  | xor x y => ofDigits 0x8 x y 0x3
  | add x y => ofDigits 0x8 x y 0x4
  | sub x y => ofDigits 0x8 x y 0x5
  | shiftRight x => ofDigits 0x8 x 0x0 0x6
  | subFrom x y => ofDigits 0x8 x y 0x7
  | shiftLeft x => ofDigits 0x8 x 0x0 0xE
  | skipNe x y => ofDigits 0x9 x y 0x0
  | setIndex addr => ofAddr 0xA addr
  | jumpOffset addr => ofAddr 0xB addr
  | random x mask => ofByte 0xC x mask
  | draw x y height => ofDigits 0xD x y height.val
  | skipKeyDown x => ofByte 0xE x 0x9E
  | skipKeyUp x => ofByte 0xE x 0xA1
  | readDelay x => ofByte 0xF x 0x07
  | awaitKey x => ofByte 0xF x 0x0A
  | setDelay x => ofByte 0xF x 0x15
  | setSound x => ofByte 0xF x 0x18
  | addIndex x => ofByte 0xF x 0x1E
  | pointGlyph x => ofByte 0xF x 0x29
  | storeDecimal x => ofByte 0xF x 0x33
  | store x => ofByte 0xF x 0x55
  | load x => ofByte 0xF x 0x65
  | unknown word => word

/-- The instructions that some word encodes. -/
def WellFormed : Instruction → Prop
  | native addr => addr < 4096 ∧ addr ≠ 0x0E0 ∧ addr ≠ 0x0EE
  | jump addr | call addr | setIndex addr | jumpOffset addr => addr < 4096
  | unknown word => Unassigned word
  | _ => True

end Instruction

end HexConsole
