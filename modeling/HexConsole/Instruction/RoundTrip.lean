import HexConsole.Instruction.Encode

/-! # Decoding what was encoded

The fields of an encoded word are the operands it was encoded from. Decoding gives a
well-formed instruction back, and whatever is decoded is well formed. The third digit of a shift
does not count.
-/

namespace HexConsole

namespace Opcode

theorem addr_lt (w : UInt16) : addr w < 4096 := by
  rw [UInt16.lt_iff_toNat_lt, toNat_addr]
  exact Nat.mod_lt _ (by decide)

theorem family_lt (w : UInt16) : family w < 16 := by
  have := w.toNat_lt
  simp only [family]
  omega

theorem addr_eq_self {w : UInt16} (h : family w = 0) : addr w = w := by
  apply UInt16.toNat.inj
  rw [toNat_addr]
  simp only [family] at h
  omega

variable {f : Nat}

theorem toNat_ofDigits {k : Nat} (hf : f < 16) (hk : k < 16) (a b : Fin 16) :
    (ofDigits f a b k).toNat = 4096 * f + 256 * a.val + 16 * b.val + k := by
  have := a.isLt
  have := b.isLt
  rw [ofDigits, UInt16.toNat_ofNat']
  omega

theorem toNat_ofAddr (hf : f < 16) {a : UInt16} (ha : a < 4096) :
    (ofAddr f a).toNat = 4096 * f + a.toNat := by
  have : a.toNat < 4096 := by simpa [UInt16.lt_iff_toNat_lt] using ha
  rw [ofAddr, UInt16.toNat_ofNat']
  omega

theorem toNat_ofByte (hf : f < 16) (a : Fin 16) (b : UInt8) :
    (ofByte f a b).toNat = 4096 * f + 256 * a.val + b.toNat := by
  have := a.isLt
  have := b.toNat_lt
  rw [ofByte, UInt16.toNat_ofNat']
  omega

theorem fields_ofDigits {k : Nat} (hf : f < 16) (hk : k < 16) (a b : Fin 16) :
    family (ofDigits f a b k) = f ∧ x (ofDigits f a b k) = a ∧ y (ofDigits f a b k) = b ∧
      n (ofDigits f a b k) = k := by
  have := a.isLt
  have := b.isLt
  refine ⟨?_, Fin.ext ?_, Fin.ext ?_, ?_⟩ <;>
    simp only [family, x, y, n, Fin.ofNat, toNat_ofDigits hf hk] <;> omega

theorem fields_ofAddr (hf : f < 16) {a : UInt16} (ha : a < 4096) :
    family (ofAddr f a) = f ∧ addr (ofAddr f a) = a := by
  have h : a.toNat < 4096 := by simpa [UInt16.lt_iff_toNat_lt] using ha
  refine ⟨?_, UInt16.toNat.inj ?_⟩
  · simp only [family, toNat_ofAddr hf ha]
    omega
  · rw [toNat_addr, toNat_ofAddr hf ha]
    omega

theorem fields_ofByte (hf : f < 16) (a : Fin 16) (b : UInt8) :
    family (ofByte f a b) = f ∧ x (ofByte f a b) = a ∧ kk (ofByte f a b) = b := by
  have := a.isLt
  have := b.toNat_lt
  refine ⟨?_, Fin.ext ?_, UInt8.toNat.inj ?_⟩
  · simp only [family, toNat_ofByte hf]
    omega
  · simp only [x, Fin.ofNat, toNat_ofByte hf]
    omega
  · rw [toNat_kk, toNat_ofByte hf]
    omega

end Opcode

namespace Instruction

open Opcode

theorem decode_encode (i : Instruction) (h : i.WellFormed) : decode i.encode = i := by
  cases i with
  | clearScreen => rfl
  | leave => rfl
  | native a =>
    obtain ⟨ha, h0, h1⟩ := h
    have e : ofAddr 0 a = a := by
      apply UInt16.toNat.inj
      rw [toNat_ofAddr (by decide) ha]
      omega
    have hf : family a = 0 := e ▸ (fields_ofAddr (by decide) ha).1
    simp [encode, decode, e, hf, h0, h1, addr_eq_self hf]
  | unknown w =>
    rcases h with ⟨h | h, hn⟩ | ⟨h, hn⟩ | ⟨h, hn⟩ | ⟨h, hn⟩
    · simp [encode, decode, h, hn]
    · simp [encode, decode, h, hn]
    · simp only [encode, decode, h, decodeArithmetic]
      split <;> simp_all
    · simp only [encode, decode, h, decodeKeyTest]
      split <;> simp_all
    · simp only [encode, decode, h, decodeTransfer]
      split <;> simp_all
  | draw a b height =>
    have h := fields_ofDigits (f := 0xD) (by decide) height.isLt a b
    have hn : Fin.ofNat 16 height.val = height := Fin.ext (Nat.mod_eq_of_lt height.isLt)
    simp only [encode, decode, h, hn]
  | _ =>
    simp_all [encode, decode, decodeArithmetic, decodeKeyTest, decodeTransfer, fields_ofDigits,
      fields_ofByte, fields_ofAddr, WellFormed]

theorem decode_shiftRight (x y : Register) :
    decode (ofDigits 0x8 x y 0x6) = shiftRight x := by
  obtain ⟨hf, hx, -, hn⟩ := fields_ofDigits (f := 0x8) (k := 0x6) (by decide) (by decide) x y
  simp only [decode, hf, decodeArithmetic, hn, hx]

theorem decode_shiftLeft (x y : Register) : decode (ofDigits 0x8 x y 0xE) = shiftLeft x := by
  obtain ⟨hf, hx, -, hn⟩ := fields_ofDigits (f := 0x8) (k := 0xE) (by decide) (by decide) x y
  simp only [decode, hf, decodeArithmetic, hn, hx]

theorem wellFormed_decodeArithmetic {w : UInt16} (h : family w = 0x8) :
    (decodeArithmetic w).WellFormed := by
  unfold decodeArithmetic
  split <;> simp_all [WellFormed, Unassigned]

theorem wellFormed_decodeKeyTest {w : UInt16} (h : family w = 0xE) :
    (decodeKeyTest w).WellFormed := by
  unfold decodeKeyTest
  split <;> simp_all [WellFormed, Unassigned]

theorem wellFormed_decodeTransfer {w : UInt16} (h : family w = 0xF) :
    (decodeTransfer w).WellFormed := by
  unfold decodeTransfer
  split <;> simp_all [WellFormed, Unassigned]

theorem wellFormed_decode (w : UInt16) : (decode w).WellFormed := by
  have ha := addr_lt w
  have hf := family_lt w
  unfold decode
  split
  case h_1 h =>
    have hw := addr_eq_self h
    split
    · trivial
    · split
      · trivial
      · exact ⟨ha, by rwa [hw], by rwa [hw]⟩
  case h_6 h => split <;> simp_all [WellFormed, Unassigned]
  case h_9 h => exact wellFormed_decodeArithmetic h
  case h_10 h => split <;> simp_all [WellFormed, Unassigned]
  case h_15 h => exact wellFormed_decodeKeyTest h
  case h_16 =>
    apply wellFormed_decodeTransfer
    simp only [imp_false] at *
    omega
  all_goals simp_all [WellFormed]

end Instruction

end HexConsole
