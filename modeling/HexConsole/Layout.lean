/-! # Layout of the console

The console has 4096 bytes of memory, a 64 by 32 screen, a stack sixteen deep and sixteen
registers. Programs start at address 512; the memory below it belongs to the console and
holds the font. The rates are those at which the console runs unless told otherwise.
-/

namespace HexConsole

/-- Bytes of addressable memory. -/
abbrev memorySize : Nat := 4096

/-- The address at which programs are loaded and started. -/
abbrev programStart : Nat := 0x200

/-- The address of the first byte of the font. -/
abbrev fontStart : Nat := 0

/-- Bytes of one glyph of the font. -/
abbrev glyphSize : Nat := 5

/-- Pixels in a row of the screen. -/
abbrev screenWidth : Nat := 64

/-- Rows of the screen. -/
abbrev screenHeight : Nat := 32

/-- Subroutine calls that can be open at once. -/
abbrev stackDepth : Nat := 16

/-- Bytes of one instruction. -/
abbrev instructionSize : Nat := 2

/-- Bytes of a program that fit between its start and the end of memory. -/
abbrev programRoom : Nat := memorySize - programStart

-- The zero is that of core, so that modules without the algebra find the same instance.
instance neZero_sixteen : @NeZero Nat (@Zero.ofOfNat0 Nat (instOfNatNat 0)) 16 := ⟨by decide⟩

/-- The index of one of the sixteen registers. -/
abbrev Register := Fin 16

/-- The register that receives carries, borrows, shifted bits and collisions. -/
abbrev flagRegister : Register := 15

/-- Instructions a second unless told otherwise. -/
def defaultCpuRate : UInt32 := 540

/-- Frames a second unless told otherwise. -/
def defaultDisplayRate : UInt32 := 60

/-- Timer ticks a second unless told otherwise. -/
def defaultTimerRate : UInt32 := 60

end HexConsole
