import HexConsole.Instruction.RoundTrip

/-! # Words of instructions

Encoding what was decoded gives the word back, except for the shifts, whose words have a
digit that does not count. So an instruction that was decoded tells the word it came from.
-/

namespace HexConsole

namespace Opcode

variable {w : UInt16} {f k : Nat}

theorem ofAddr_addr (h : family w = f) : ofAddr f (addr w) = w := by
  have := w.toNat_lt
  simp only [family] at h
  apply UInt16.toNat.inj
  rw [ofAddr, UInt16.toNat_ofNat', toNat_addr]
  omega

theorem ofByte_x (h : family w = f) {b : UInt8} (hb : (kk w).toNat = b.toNat) :
    ofByte f (x w) b = w := by
  have := w.toNat_lt
  have hd := toNat_digits w
  rw [toNat_kk] at hb
  simp only [family, x, y, n, Fin.ofNat] at h hd
  apply UInt16.toNat.inj
  rw [ofByte, UInt16.toNat_ofNat', ← hb]
  simp only [x, Fin.ofNat]
  omega

theorem ofDigits_x_y (h : family w = f) (hn : n w = k) : ofDigits f (x w) (y w) k = w := by
  have := w.toNat_lt
  have hd := toNat_digits w
  rw [h, hn] at hd
  apply UInt16.toNat.inj
  rw [ofDigits, UInt16.toNat_ofNat']
  omega

theorem eq_ofAddr_iff (hf : f < 16) {a : UInt16} (ha : a < 4096) :
    w = ofAddr f a ↔ family w = f ∧ addr w = a := by
  constructor
  · rintro rfl
    exact fields_ofAddr hf ha
  · rintro ⟨h, rfl⟩
    exact (ofAddr_addr h).symm

theorem eq_ofByte_iff (hf : f < 16) {a : Register} {b : UInt8} :
    w = ofByte f a b ↔ family w = f ∧ x w = a ∧ kk w = b := by
  constructor
  · rintro rfl
    exact fields_ofByte hf a b
  · rintro ⟨h, rfl, rfl⟩
    exact (ofByte_x h rfl).symm

theorem eq_ofDigits_iff (hf : f < 16) (hk : k < 16) {a b : Register} :
    w = ofDigits f a b k ↔ family w = f ∧ x w = a ∧ y w = b ∧ n w = k := by
  constructor
  · rintro rfl
    exact fields_ofDigits hf hk a b
  · rintro ⟨h, rfl, rfl, hn⟩
    exact (ofDigits_x_y h hn).symm

end Opcode

namespace Instruction

open Opcode

variable {w : UInt16}

/-- The shifts are the only instructions that do not tell their words. -/
def IsShift : Instruction → Prop
  | shiftRight _ | shiftLeft _ => True
  | _ => False

theorem encode_decodeArithmetic (h : family w = 0x8) :
    (decodeArithmetic w).IsShift ∨ (decodeArithmetic w).encode = w := by
  unfold decodeArithmetic
  split
  case h_7 | h_9 => exact .inl trivial
  case h_10 => exact .inr rfl
  all_goals exact .inr (ofDigits_x_y h ‹_›)

theorem encode_decodeKeyTest (h : family w = 0xE) : (decodeKeyTest w).encode = w := by
  unfold decodeKeyTest
  split
  case h_3 => rfl
  all_goals exact ofByte_x h ‹_›

theorem encode_decodeTransfer (h : family w = 0xF) : (decodeTransfer w).encode = w := by
  unfold decodeTransfer
  split
  case h_10 => rfl
  all_goals exact ofByte_x h ‹_›

/-- Encoding inverts decoding, except for the shifts. -/
theorem encode_decode (w : UInt16) : (decode w).IsShift ∨ (decode w).encode = w := by
  have hf := family_lt w
  unfold decode
  split
  case h_1 h =>
    right
    split
    · exact Eq.symm ‹_›
    · split
      · exact Eq.symm ‹_›
      · exact ofAddr_addr h
  case h_6 h | h_10 h =>
    right
    split
    · exact ofDigits_x_y h ‹_›
    · rfl
  case h_9 h => exact encode_decodeArithmetic h
  case h_14 h =>
    have hn : n w % 16 = n w := Nat.mod_mod _ _
    exact .inr (ofDigits_x_y h hn.symm)
  case h_15 h => exact .inr (encode_decodeKeyTest h)
  case h_16 =>
    refine .inr (encode_decodeTransfer ?_)
    simp only [imp_false] at *
    omega
  case h_2 h | h_3 h | h_11 h | h_12 h => exact .inr (ofAddr_addr h)
  all_goals exact .inr (ofByte_x ‹_› rfl)

/-- Unless it is a shift, an instruction is decoded from the word that encodes it alone. -/
theorem decode_eq_iff {i : Instruction} (hs : ¬i.IsShift) :
    decode w = i ↔ i.WellFormed ∧ w = i.encode := by
  constructor
  · rintro rfl
    exact ⟨wellFormed_decode w, ((encode_decode w).resolve_left hs).symm⟩
  · rintro ⟨hi, rfl⟩
    exact decode_encode i hi

theorem decode_unknown_iff {v : UInt16} : decode w = unknown v ↔ Unassigned w ∧ v = w := by
  rw [decode_eq_iff id]
  constructor
  · rintro ⟨h, rfl⟩
    exact ⟨h, rfl⟩
  · rintro ⟨h, rfl⟩
    exact ⟨h, rfl⟩

theorem decode_leave_iff : decode w = leave ↔ w = 0x00EE :=
  (decode_eq_iff id).trans (and_iff_right trivial)

theorem decode_call_iff {a : UInt16} : decode w = call a ↔ family w = 0x2 ∧ addr w = a := by
  rw [decode_eq_iff id]
  constructor
  · rintro ⟨ha, h⟩
    exact (eq_ofAddr_iff (by decide) ha).mp h
  · rintro ⟨h, rfl⟩
    exact ⟨addr_lt w, (eq_ofAddr_iff (by decide) (addr_lt w)).mpr ⟨h, rfl⟩⟩

theorem decode_draw_iff {a b : Register} {height : Fin 16} :
    decode w = draw a b height ↔ family w = 0xD ∧ x w = a ∧ y w = b ∧ n w = height.val := by
  rw [decode_eq_iff id, ← eq_ofDigits_iff (by decide) height.isLt]
  exact and_iff_right trivial

/-- An instruction of the last family is told by its register and the last two digits. -/
theorem decode_transfer_iff (i : Instruction) {a : Register} {k : UInt8} (hs : ¬i.IsShift)
    (hi : i.WellFormed) (he : i.encode = ofByte 0xF a k) :
    decode w = i ↔ family w = 0xF ∧ x w = a ∧ kk w = k := by
  rw [decode_eq_iff hs, he, ← eq_ofByte_iff (by decide)]
  exact and_iff_right hi

/-- The digits that a word has if it is decoded to an instruction, the shifts included. -/
def Fits (w : UInt16) : Instruction → Prop
  | native _ => family w = 0x0
  | clearScreen => w = 0x00E0
  | leave => w = 0x00EE
  | jump _ => family w = 0x1
  | call _ => family w = 0x2
  | skipEqByte a _ => family w = 0x3 ∧ x w = a
  | skipNeByte a _ => family w = 0x4 ∧ x w = a
  | skipEq a _ => family w = 0x5 ∧ x w = a
  | setByte a _ => family w = 0x6 ∧ x w = a
  | addByte a _ => family w = 0x7 ∧ x w = a
  | copy a _ => family w = 0x8 ∧ x w = a ∧ n w = 0x0
  | or a _ => family w = 0x8 ∧ x w = a ∧ n w = 0x1
  | and a _ => family w = 0x8 ∧ x w = a ∧ n w = 0x2
  | xor a _ => family w = 0x8 ∧ x w = a ∧ n w = 0x3
  | add a _ => family w = 0x8 ∧ x w = a ∧ n w = 0x4
  | sub a _ => family w = 0x8 ∧ x w = a ∧ n w = 0x5
  | shiftRight a => family w = 0x8 ∧ x w = a ∧ n w = 0x6
  | subFrom a _ => family w = 0x8 ∧ x w = a ∧ n w = 0x7
  | shiftLeft a => family w = 0x8 ∧ x w = a ∧ n w = 0xE
  | skipNe a _ => family w = 0x9 ∧ x w = a
  | setIndex _ => family w = 0xA
  | jumpOffset _ => family w = 0xB
  | random a _ => family w = 0xC ∧ x w = a
  | draw a _ _ => family w = 0xD ∧ x w = a
  | skipKeyDown a => family w = 0xE ∧ x w = a ∧ kk w = 0x9E
  | skipKeyUp a => family w = 0xE ∧ x w = a ∧ kk w = 0xA1
  | readDelay a => family w = 0xF ∧ x w = a ∧ kk w = 0x07
  | awaitKey a => family w = 0xF ∧ x w = a ∧ kk w = 0x0A
  | setDelay a => family w = 0xF ∧ x w = a ∧ kk w = 0x15
  | setSound a => family w = 0xF ∧ x w = a ∧ kk w = 0x18
  | addIndex a => family w = 0xF ∧ x w = a ∧ kk w = 0x1E
  | pointGlyph a => family w = 0xF ∧ x w = a ∧ kk w = 0x29
  | storeDecimal a => family w = 0xF ∧ x w = a ∧ kk w = 0x33
  | store a => family w = 0xF ∧ x w = a ∧ kk w = 0x55
  | load a => family w = 0xF ∧ x w = a ∧ kk w = 0x65
  | unknown v => w = v

theorem fits_decodeArithmetic (h : family w = 0x8) : (decodeArithmetic w).Fits w := by
  unfold decodeArithmetic
  split
  case h_10 => rfl
  all_goals exact ⟨h, rfl, ‹_›⟩

theorem fits_decodeKeyTest (h : family w = 0xE) : (decodeKeyTest w).Fits w := by
  unfold decodeKeyTest
  split
  case h_3 => rfl
  all_goals exact ⟨h, rfl, UInt8.toNat.inj ‹_›⟩

theorem fits_decodeTransfer (h : family w = 0xF) : (decodeTransfer w).Fits w := by
  unfold decodeTransfer
  split
  case h_10 => rfl
  all_goals exact ⟨h, rfl, UInt8.toNat.inj ‹_›⟩

theorem fits_decode (w : UInt16) : (decode w).Fits w := by
  have hf := family_lt w
  unfold decode
  split
  case h_1 h =>
    split
    · assumption
    · split <;> assumption
  case h_6 h | h_10 h =>
    split
    · exact ⟨h, rfl⟩
    · rfl
  case h_9 h => exact fits_decodeArithmetic h
  case h_15 h => exact fits_decodeKeyTest h
  case h_16 =>
    apply fits_decodeTransfer
    simp only [imp_false] at *
    omega
  case h_2 h | h_3 h | h_11 h | h_12 h => exact h
  all_goals exact ⟨‹_›, rfl⟩

end Instruction

end HexConsole
