import HexConsole.Layout

/-! # Opcodes

An opcode is a word of four hexadecimal digits. The first digit is its family; the others
are a twelve-bit address, or two registers and a last digit, or a register and a byte.
-/

namespace HexConsole.Opcode

/-- The first of the four digits. -/
def family (w : UInt16) : Nat := w.toNat / 4096

/-- The second digit, as a register. -/
def x (w : UInt16) : Register := Fin.ofNat 16 (w.toNat / 256)

/-- The third digit, as a register. -/
def y (w : UInt16) : Register := Fin.ofNat 16 (w.toNat / 16)

/-- The last digit. -/
def n (w : UInt16) : Nat := w.toNat % 16

/-- The last two digits. -/
def kk (w : UInt16) : UInt8 := w.toUInt8

/-- The last three digits. -/
def addr (w : UInt16) : UInt16 := w % 4096

/-- The word of two bytes in memory, the high one first. -/
def ofBytes (high low : UInt8) : UInt16 := high.toUInt16 * 256 + low.toUInt16

/-- The word of four digits. -/
def ofDigits (family : Nat) (x y : Fin 16) (n : Nat) : UInt16 :=
  UInt16.ofNat (4096 * family + 256 * x + 16 * y + n)

/-- The word of a family and a twelve-bit address. -/
def ofAddr (family : Nat) (addr : UInt16) : UInt16 :=
  UInt16.ofNat (4096 * family + addr.toNat)

/-- The word of a family, a register and a byte. -/
def ofByte (family : Nat) (x : Fin 16) (byte : UInt8) : UInt16 :=
  UInt16.ofNat (4096 * family + 256 * x + byte.toNat)

theorem toNat_ofBytes (high low : UInt8) :
    (ofBytes high low).toNat = 256 * high.toNat + low.toNat := by
  have h := high.toNat_lt
  have l := low.toNat_lt
  simp only [ofBytes, UInt16.toNat_add, UInt16.toNat_mul, UInt8.toNat_toUInt16,
    UInt16.reduceToNat]
  omega

theorem toNat_kk (w : UInt16) : (kk w).toNat = w.toNat % 256 := UInt16.toNat_toUInt8 w

theorem toNat_addr (w : UInt16) : (addr w).toNat = w.toNat % 4096 := UInt16.toNat_mod w 4096

theorem toNat_digits (w : UInt16) :
    w.toNat = 4096 * family w + 256 * (x w).val + 16 * (y w).val + n w := by
  simp only [family, x, y, n, Fin.ofNat]
  omega

end HexConsole.Opcode
