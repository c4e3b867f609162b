import HexConsole.Instruction.RoundTrip

/-! # Raw instructions

Masks and shifts take numbers out of a word, and nothing says yet that a number is the number of
a register. A raw instruction carries such numbers. Decoding to raw instructions and decoding to
instructions differ only in that.
-/

namespace HexConsole

/-- The instructions of the console with plain numbers in the place of registers. -/
inductive RawInstruction where
  | native (addr : UInt16)
  | clearScreen
  | leave
  | jump (addr : UInt16)
  | call (addr : UInt16)
  | skipEqByte (x : Nat) (byte : UInt8)
  | skipNeByte (x : Nat) (byte : UInt8)
  | skipEq (x y : Nat)
  | setByte (x : Nat) (byte : UInt8)
  | addByte (x : Nat) (byte : UInt8)
  | copy (x y : Nat)
  | or (x y : Nat)
  | and (x y : Nat)
  | xor (x y : Nat)
  | add (x y : Nat)
  | sub (x y : Nat)
  | shiftRight (x : Nat)
  | subFrom (x y : Nat)
  | shiftLeft (x : Nat)
  | skipNe (x y : Nat)
  | setIndex (addr : UInt16)
  | jumpOffset (addr : UInt16)
  | random (x : Nat) (mask : UInt8)
  | draw (x y : Nat) (height : UInt8)
  | skipKeyDown (x : Nat)
  | skipKeyUp (x : Nat)
  | readDelay (x : Nat)
  | awaitKey (x : Nat)
  | setDelay (x : Nat)
  | setSound (x : Nat)
  | addIndex (x : Nat)
  | pointGlyph (x : Nat)
  | storeDecimal (x : Nat)
  | store (x : Nat)
  | load (x : Nat)
  | unknown (word : UInt16)
  deriving DecidableEq, Repr

namespace RawInstruction

/-- The digit of a word under a mask. -/
def digit (w mask places : UInt16) : Nat := ((w &&& mask) >>> places).toNat

def family (w : UInt16) : Nat := digit w 0xF000 12

def x (w : UInt16) : Nat := digit w 0x0F00 8

def y (w : UInt16) : Nat := digit w 0x00F0 4

def n (w : UInt16) : UInt8 := (w &&& 0x000F).toUInt8

def kk (w : UInt16) : UInt8 := (w &&& 0x00FF).toUInt8

def addr (w : UInt16) : UInt16 := w &&& 0x0FFF

/-- The raw instruction that a word encodes, told from its four digits. -/
def decode (w : UInt16) : RawInstruction :=
  match family w, x w, y w, (n w).toNat with
  | 0x0, 0x0, 0xE, 0x0 => clearScreen
  | 0x0, 0x0, 0xE, 0xE => leave
  | 0x0, _, _, _ => native (addr w)
  | 0x1, _, _, _ => jump (addr w)
  | 0x2, _, _, _ => call (addr w)
  | 0x3, _, _, _ => skipEqByte (x w) (kk w)
  | 0x4, _, _, _ => skipNeByte (x w) (kk w)
  | 0x5, _, _, 0x0 => skipEq (x w) (y w)
  | 0x6, _, _, _ => setByte (x w) (kk w)
  | 0x7, _, _, _ => addByte (x w) (kk w)
  | 0x8, _, _, 0x0 => copy (x w) (y w)
  | 0x8, _, _, 0x1 => or (x w) (y w)
  | 0x8, _, _, 0x2 => and (x w) (y w)
  | 0x8, _, _, 0x3 => xor (x w) (y w)
  | 0x8, _, _, 0x4 => add (x w) (y w)
  | 0x8, _, _, 0x5 => sub (x w) (y w)
  | 0x8, _, _, 0x6 => shiftRight (x w)
  | 0x8, _, _, 0x7 => subFrom (x w) (y w)
  | 0x8, _, _, 0xE => shiftLeft (x w)
  | 0x9, _, _, 0x0 => skipNe (x w) (y w)
  | 0xA, _, _, _ => setIndex (addr w)
  | 0xB, _, _, _ => jumpOffset (addr w)
  | 0xC, _, _, _ => random (x w) (kk w)
  | 0xD, _, _, _ => draw (x w) (y w) (n w)
  | 0xE, _, 0x9, 0xE => skipKeyDown (x w)
  | 0xE, _, 0xA, 0x1 => skipKeyUp (x w)
  | 0xF, _, 0x0, 0x7 => readDelay (x w)
  | 0xF, _, 0x0, 0xA => awaitKey (x w)
  | 0xF, _, 0x1, 0x5 => setDelay (x w)
  | 0xF, _, 0x1, 0x8 => setSound (x w)
  | 0xF, _, 0x1, 0xE => addIndex (x w)
  | 0xF, _, 0x2, 0x9 => pointGlyph (x w)
  | 0xF, _, 0x3, 0x3 => storeDecimal (x w)
  | 0xF, _, 0x5, 0x5 => store (x w)
  | 0xF, _, 0x6, 0x5 => load (x w)
  | _, _, _, _ => unknown w

theorem digit_eq (w mask places : UInt16) :
    digit w mask places =
      w.toNat >>> (places.toNat % 16) &&& mask.toNat >>> (places.toNat % 16) := by
  simp only [digit, UInt16.toNat_shiftRight, UInt16.toNat_and, Nat.shiftRight_and_distrib]

theorem family_eq (w : UInt16) : family w = Opcode.family w := by
  have h := w.toNat_lt
  rw [family, digit_eq]
  change w.toNat >>> 12 &&& 2 ^ 4 - 1 = w.toNat / 4096
  rw [Nat.and_two_pow_sub_one_eq_mod, Nat.shiftRight_eq_div_pow]
  omega

theorem x_eq (w : UInt16) : x w = (Opcode.x w).val := by
  rw [x, digit_eq]
  change w.toNat >>> 8 &&& 2 ^ 4 - 1 = w.toNat / 256 % 16
  rw [Nat.and_two_pow_sub_one_eq_mod, Nat.shiftRight_eq_div_pow]

theorem y_eq (w : UInt16) : y w = (Opcode.y w).val := by
  rw [y, digit_eq]
  change w.toNat >>> 4 &&& 2 ^ 4 - 1 = w.toNat / 16 % 16
  rw [Nat.and_two_pow_sub_one_eq_mod, Nat.shiftRight_eq_div_pow]

theorem toNat_n (w : UInt16) : (n w).toNat = Opcode.n w := by
  rw [n, UInt16.toNat_toUInt8, UInt16.toNat_and]
  change (w.toNat &&& 2 ^ 4 - 1) % 256 = w.toNat % 16
  rw [Nat.and_two_pow_sub_one_eq_mod]
  omega

theorem n_eq (w : UInt16) : n w = UInt8.ofNat (Fin.ofNat 16 (Opcode.n w)).val := by
  refine UInt8.toNat_inj.1 ?_
  rw [toNat_n, UInt8.toNat_ofNat']
  simp only [Fin.ofNat, Opcode.n]
  omega

theorem kk_eq (w : UInt16) : kk w = Opcode.kk w := by
  refine UInt8.toNat_inj.1 ?_
  rw [kk, Opcode.toNat_kk, UInt16.toNat_toUInt8, UInt16.toNat_and]
  change (w.toNat &&& 2 ^ 8 - 1) % 256 = w.toNat % 256
  rw [Nat.and_two_pow_sub_one_eq_mod, Nat.mod_mod]

theorem addr_eq (w : UInt16) : addr w = Opcode.addr w := by
  refine UInt16.toNat_inj.1 ?_
  rw [addr, Opcode.toNat_addr, UInt16.toNat_and]
  exact Nat.and_two_pow_sub_one_eq_mod w.toNat 12

end RawInstruction

/-- The raw instruction with the numbers of an instruction's registers. -/
def Instruction.raw : Instruction → RawInstruction
  | native addr => .native addr
  | clearScreen => .clearScreen
  | leave => .leave
  | jump addr => .jump addr
  | call addr => .call addr
  | skipEqByte x byte => .skipEqByte x byte
  | skipNeByte x byte => .skipNeByte x byte
  | skipEq x y => .skipEq x y
  | setByte x byte => .setByte x byte
  | addByte x byte => .addByte x byte
  | copy x y => .copy x y
  | or x y => .or x y
  | and x y => .and x y
  | xor x y => .xor x y
  | add x y => .add x y
  | sub x y => .sub x y
  | shiftRight x => .shiftRight x
  | subFrom x y => .subFrom x y
  | shiftLeft x => .shiftLeft x
  | skipNe x y => .skipNe x y
  | setIndex addr => .setIndex addr
  | jumpOffset addr => .jumpOffset addr
  | random x mask => .random x mask
  | draw x y height => .draw x y (UInt8.ofNat height)
  | skipKeyDown x => .skipKeyDown x
  | skipKeyUp x => .skipKeyUp x
  | readDelay x => .readDelay x
  | awaitKey x => .awaitKey x
  | setDelay x => .setDelay x
  | setSound x => .setSound x
  | addIndex x => .addIndex x
  | pointGlyph x => .pointGlyph x
  | storeDecimal x => .storeDecimal x
  | store x => .store x
  | load x => .load x
  | unknown word => .unknown word

namespace RawInstruction

theorem digits_of_kk (w : UInt16) :
    (Opcode.y w).val = (Opcode.kk w).toNat / 16 ∧ Opcode.n w = (Opcode.kk w).toNat % 16 := by
  simp only [Opcode.toNat_kk, Opcode.y, Opcode.n, Fin.ofNat]
  omega

variable {w : UInt16}

-- Every arm of the decoder but the last asks for digits that such a word does not have.
theorem decode_of_unassigned (h : Opcode.Unassigned w) : decode w = unknown w := by
  obtain ⟨hy, hn⟩ := digits_of_kk w
  simp only [Opcode.Unassigned, List.mem_cons, List.not_mem_nil, or_false, not_or] at h
  simp only [decode, family_eq, x_eq, y_eq, toNat_n]
  split
  case h_36 => rfl
  all_goals omega

theorem decode_of_native (h : Opcode.family w = 0x0) (h0 : w ≠ 0x00E0) (h1 : w ≠ 0x00EE) :
    decode w = native (Opcode.addr w) := by
  have hw := Opcode.toNat_digits w
  have h0 : w.toNat ≠ 0xE0 := fun hw => h0 (UInt16.toNat_inj.mp hw)
  have h1 : w.toNat ≠ 0xEE := fun hw => h1 (UInt16.toNat_inj.mp hw)
  simp only [decode, family_eq, x_eq, y_eq, toNat_n, addr_eq, h]
  split
  case h_3 => rfl
  case h_36 => exact absurd rfl ‹(0 : Nat) = 0 → False›
  all_goals omega

theorem decode_of_arithmetic (h : Opcode.family w = 0x8) :
    decode w = (Instruction.decodeArithmetic w).raw := by
  unfold Instruction.decodeArithmetic
  split
  case h_10 => exact decode_of_unassigned (.inr (.inl ⟨h, by simp_all⟩))
  all_goals
    simp only [decode, family_eq, x_eq, y_eq, toNat_n, *]
    rfl

theorem decode_of_keyTest (h : Opcode.family w = 0xE) :
    decode w = (Instruction.decodeKeyTest w).raw := by
  obtain ⟨hy, hn⟩ := digits_of_kk w
  unfold Instruction.decodeKeyTest
  split
  case h_3 => exact decode_of_unassigned (.inr (.inr (.inl ⟨h, by simp_all⟩)))
  all_goals
    simp only [decode, family_eq, x_eq, y_eq, toNat_n, *]
    rfl

theorem decode_of_transfer (h : Opcode.family w = 0xF) :
    decode w = (Instruction.decodeTransfer w).raw := by
  obtain ⟨hy, hn⟩ := digits_of_kk w
  unfold Instruction.decodeTransfer
  split
  case h_10 => exact decode_of_unassigned (.inr (.inr (.inr ⟨h, by simp_all⟩)))
  all_goals
    simp only [decode, family_eq, x_eq, y_eq, toNat_n, *]
    rfl

/-- A word is decoded to numbers of registers and to a height of four bits. -/
theorem decode_eq_raw (w : UInt16) : decode w = (Instruction.decode w).raw := by
  have hf := Opcode.family_lt w
  unfold Instruction.decode
  split
  case h_1 h =>
    split
    case isTrue e => rw [e]; rfl
    case isFalse h0 =>
      split
      case isTrue e => rw [e]; rfl
      case isFalse h1 => exact decode_of_native h h0 h1
  case h_9 h => exact decode_of_arithmetic h
  case h_15 h => exact decode_of_keyTest h
  case h_16 h =>
    apply decode_of_transfer
    simp only [imp_false] at *
    omega
  case h_6 h | h_10 h =>
    split
    case isTrue hn =>
      simp only [decode, family_eq, x_eq, y_eq, toNat_n, h, hn]
      rfl
    case isFalse hn => exact decode_of_unassigned (.inl ⟨by simp [h], hn⟩)
  all_goals
    simp only [decode, family_eq, x_eq, y_eq, kk_eq, addr_eq, n_eq, *]
    rfl

end RawInstruction

end HexConsole
