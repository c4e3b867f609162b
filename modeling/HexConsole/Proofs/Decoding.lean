import HexConsole.Instruction.Raw
import HexConsole.Proofs.Steps

/-! # What decoding keeps

Words are decoded alike only if they are the words of one shift, which ignores a digit. What comes
out of decoding is told by the operands alone: numbers of registers and heights have four bits and
addresses twelve, and there are few exceptions. The word that a step decodes is read from memory
with its high byte first.
-/

namespace HexConsole

open Opcode

variable {w a b : UInt16} {r : Register}

namespace RawInstruction

/-- The numbers that stand for registers. -/
def registers : RawInstruction → List Nat
  | native _ | clearScreen | leave | jump _ | call _ | setIndex _ | jumpOffset _ | unknown _ => []
  | skipEqByte x _ | skipNeByte x _ | setByte x _ | addByte x _ | random x _ | shiftRight x
  | shiftLeft x | skipKeyDown x | skipKeyUp x | readDelay x | awaitKey x | setDelay x | setSound x
  | addIndex x | pointGlyph x | storeDecimal x | store x | load x => [x]
  | skipEq x y | copy x y | or x y | and x y | xor x y | add x y | sub x y | subFrom x y
  | skipNe x y | draw x y _ => [x, y]

/-- The height of a sprite. -/
def height? : RawInstruction → Option UInt8
  | draw _ _ height => some height
  | _ => none

/-- The operand that is an address. -/
def addr? : RawInstruction → Option UInt16
  | native addr | jump addr | call addr | setIndex addr | jumpOffset addr => some addr
  | _ => none

/-- The raw instructions that some word encodes. -/
structure WellFormed (i : RawInstruction) : Prop where
  registers : ∀ r ∈ i.registers, r < 16
  height : ∀ height ∈ i.height?, height < 16
  addr : ∀ addr ∈ i.addr?, addr < 4096
  native : i ≠ .native 0x0E0 ∧ i ≠ .native 0x0EE
  unknown : ∀ w, i = .unknown w → Unassigned w

end RawInstruction

namespace Instruction

/-- The instruction of a raw one, with register zero behind register fifteen again. -/
def ofRaw : RawInstruction → Instruction
  | .native addr => native addr
  | .clearScreen => clearScreen
  | .leave => leave
  | .jump addr => jump addr
  | .call addr => call addr
  | .skipEqByte x byte => skipEqByte (Fin.ofNat 16 x) byte
  | .skipNeByte x byte => skipNeByte (Fin.ofNat 16 x) byte
  | .skipEq x y => skipEq (Fin.ofNat 16 x) (Fin.ofNat 16 y)
  | .setByte x byte => setByte (Fin.ofNat 16 x) byte
  | .addByte x byte => addByte (Fin.ofNat 16 x) byte
  | .copy x y => copy (Fin.ofNat 16 x) (Fin.ofNat 16 y)
  | .or x y => or (Fin.ofNat 16 x) (Fin.ofNat 16 y)
  | .and x y => and (Fin.ofNat 16 x) (Fin.ofNat 16 y)
  | .xor x y => xor (Fin.ofNat 16 x) (Fin.ofNat 16 y)
  | .add x y => add (Fin.ofNat 16 x) (Fin.ofNat 16 y)
  | .sub x y => sub (Fin.ofNat 16 x) (Fin.ofNat 16 y)
  | .shiftRight x => shiftRight (Fin.ofNat 16 x)
  | .subFrom x y => subFrom (Fin.ofNat 16 x) (Fin.ofNat 16 y)
  | .shiftLeft x => shiftLeft (Fin.ofNat 16 x)
  | .skipNe x y => skipNe (Fin.ofNat 16 x) (Fin.ofNat 16 y)
  | .setIndex addr => setIndex addr
  | .jumpOffset addr => jumpOffset addr
  | .random x mask => random (Fin.ofNat 16 x) mask
  | .draw x y height => draw (Fin.ofNat 16 x) (Fin.ofNat 16 y) (Fin.ofNat 16 height.toNat)
  | .skipKeyDown x => skipKeyDown (Fin.ofNat 16 x)
  | .skipKeyUp x => skipKeyUp (Fin.ofNat 16 x)
  | .readDelay x => readDelay (Fin.ofNat 16 x)
  | .awaitKey x => awaitKey (Fin.ofNat 16 x)
  | .setDelay x => setDelay (Fin.ofNat 16 x)
  | .setSound x => setSound (Fin.ofNat 16 x)
  | .addIndex x => addIndex (Fin.ofNat 16 x)
  | .pointGlyph x => pointGlyph (Fin.ofNat 16 x)
  | .storeDecimal x => storeDecimal (Fin.ofNat 16 x)
  | .store x => store (Fin.ofNat 16 x)
  | .load x => load (Fin.ofNat 16 x)
  | .unknown word => unknown word

theorem toNat_height (height : Fin 16) : (UInt8.ofNat height.val).toNat = height.val :=
  UInt8.toNat_ofNat_of_lt' (Nat.lt_trans height.isLt (by decide))

theorem ofRaw_raw (i : Instruction) : ofRaw i.raw = i := by
  cases i with
  | draw x y height => simp only [raw, ofRaw, toNat_height, Fin.ofNat_val_eq_self]
  | _ => simp only [raw, ofRaw, Fin.ofNat_val_eq_self]

theorem raw_injective : Function.Injective raw := Function.LeftInverse.injective ofRaw_raw

theorem raw_ofRaw {i : RawInstruction} (hr : ∀ r ∈ i.registers, r < 16)
    (hh : ∀ height ∈ i.height?, height < 16) : (ofRaw i).raw = i := by
  cases i with
  | draw x y height =>
    have hh : height.toNat < 16 := UInt8.lt_iff_toNat_lt.mp (hh height rfl)
    simp_all [RawInstruction.registers, raw, ofRaw, Nat.mod_eq_of_lt]
  | _ => simp_all [RawInstruction.registers, raw, ofRaw, Nat.mod_eq_of_lt]

theorem wellFormed_ofRaw {i : RawInstruction} (h : i.WellFormed) : (ofRaw i).WellFormed := by
  obtain ⟨-, -, ha, hn, hu⟩ := h
  cases i with
  | unknown w => exact hu w rfl
  | native addr => exact ⟨ha addr rfl, by simpa using hn⟩
  | jump addr | call addr | setIndex addr | jumpOffset addr => exact ha addr rfl
  | _ => trivial

theorem wellFormed_raw {i : Instruction} (h : i.WellFormed) : i.raw.WellFormed := by
  constructor
  case registers => cases i <;> simp [raw, RawInstruction.registers, Fin.is_lt]
  case height =>
    cases i with
    | draw x y height =>
      intro _ hh
      obtain rfl := Option.some.inj hh
      rw [UInt8.lt_iff_toNat_lt, toNat_height]
      exact height.isLt
    | _ => nofun
  case addr => cases i <;> simp_all [raw, RawInstruction.addr?, WellFormed]
  case native => cases i <;> simp_all [raw, WellFormed]
  case unknown => cases i <;> simp_all [raw, WellFormed]

theorem decode_shiftRight_iff : decode w = shiftRight r ↔ ∃ y, w = ofDigits 0x8 r y 0x6 := by
  constructor
  · intro h
    have hw := fits_decode w
    rw [h] at hw
    obtain ⟨hf, rfl, hn⟩ := hw
    exact ⟨y w, (ofDigits_x_y hf hn).symm⟩
  · rintro ⟨y, rfl⟩
    exact decode_shiftRight r y

theorem decode_shiftLeft_iff : decode w = shiftLeft r ↔ ∃ y, w = ofDigits 0x8 r y 0xE := by
  constructor
  · intro h
    have hw := fits_decode w
    rw [h] at hw
    obtain ⟨hf, rfl, hn⟩ := hw
    exact ⟨y w, (ofDigits_x_y hf hn).symm⟩
  · rintro ⟨y, rfl⟩
    exact decode_shiftLeft r y

end Instruction

/-- Two words of the eighth family that end in one digit and name one register before it. -/
def Opcode.SameShift (k : Nat) (a b : UInt16) : Prop :=
  ∃ x y y' : Register, a = ofDigits 0x8 x y k ∧ b = ofDigits 0x8 x y' k

namespace Instruction

theorem IsShift.eq_or_eq {i : Instruction} (h : i.IsShift) :
    (∃ r, i = shiftRight r) ∨ ∃ r, i = shiftLeft r := by
  cases i with
  | shiftRight r => exact .inl ⟨r, rfl⟩
  | shiftLeft r => exact .inr ⟨r, rfl⟩
  | _ => exact h.elim

theorem decode_eq_decode_iff :
    decode a = decode b ↔ a = b ∨ SameShift 0x6 a b ∨ SameShift 0xE a b := by
  constructor
  · intro h
    by_cases hs : (decode a).IsShift
    · right
      rcases hs.eq_or_eq with ⟨r, hr⟩ | ⟨r, hr⟩
      · obtain ⟨y, ha⟩ := decode_shiftRight_iff.mp hr
        obtain ⟨y', hb⟩ := decode_shiftRight_iff.mp (h ▸ hr)
        exact .inl ⟨r, y, y', ha, hb⟩
      · obtain ⟨y, ha⟩ := decode_shiftLeft_iff.mp hr
        obtain ⟨y', hb⟩ := decode_shiftLeft_iff.mp (h ▸ hr)
        exact .inr ⟨r, y, y', ha, hb⟩
    · -- every other instruction tells its word
      left
      have ha := (encode_decode a).resolve_left hs
      have hb := (encode_decode b).resolve_left (h ▸ hs)
      rw [← ha, h, hb]
  · rintro (rfl | ⟨r, y, y', rfl, rfl⟩ | ⟨r, y, y', rfl, rfl⟩)
    · rfl
    · rw [decode_shiftRight, decode_shiftRight]
    · rw [decode_shiftLeft, decode_shiftLeft]

end Instruction

namespace RawInstruction

theorem decode_eq_decode_iff :
    decode a = decode b ↔ a = b ∨ SameShift 0x6 a b ∨ SameShift 0xE a b := by
  rw [decode_eq_raw, decode_eq_raw, Instruction.raw_injective.eq_iff,
    Instruction.decode_eq_decode_iff]

/-- The raw instructions that come out of decoding are told by their operands. -/
theorem exists_decode_iff {i : RawInstruction} : (∃ w, decode w = i) ↔ i.WellFormed := by
  constructor
  · rintro ⟨w, rfl⟩
    rw [decode_eq_raw]
    exact Instruction.wellFormed_raw (Instruction.wellFormed_decode w)
  · intro h
    refine ⟨(Instruction.ofRaw i).encode, ?_⟩
    rw [decode_eq_raw, Instruction.decode_encode _ (Instruction.wellFormed_ofRaw h)]
    exact Instruction.raw_ofRaw h.registers h.height

end RawInstruction

namespace Machine

/-- The machine goes on behind an instruction, unless its execution fails. -/
def carryOut (m : Machine) (byte : UInt8) (i : Instruction) : Except Fault Unit × Machine :=
  match i.execute m.key byte m.state with
  | (.error fault, state) => (.error fault, { m with state })
  | (.ok pc, state) => (.ok (), { m with state := { state with pc } })

theorem step_of_fetch {m : Machine} (h : m.state.fetch = .ok w) (byte : UInt8) :
    m.step byte = m.carryOut byte (.decode w) := by
  simp only [step, State.cycle, h, carryOut]
  rcases (Instruction.decode w).execute m.key byte m.state with ⟨fault | pc, state⟩
  · rfl
  · rfl

end Machine

namespace RawInstruction

/-- Decoding merges no words but those of one shift, and gives exactly the raw instructions that are
well formed: those that stand for an instruction, with register numbers and heights below 16 and
addresses below 4096. The word that a step decodes has its high byte where the program counter is,
for all but the last address. -/
theorem decode_lossless :
    (∀ w, decode w = (Instruction.decode w).raw) ∧ Function.Injective Instruction.raw ∧
    (∀ a b, decode a = decode b ↔ a = b ∨ SameShift 0x6 a b ∨ SameShift 0xE a b) ∧
    (∀ i, (∃ w, decode w = i) ↔ i.WellFormed) ∧
    ∀ (m : Machine), m.state.pc.toNat ≤ 4094 → ∃ w, m.state.fetch = .ok w ∧
      w.toNat / 256 = (m.state.memory.get m.state.pc.toNat).toNat ∧
      w.toNat % 256 = (m.state.memory.get (m.state.pc.toNat + 1)).toNat ∧
      ∀ byte, m.step byte = m.carryOut byte (.decode w) := by
  refine ⟨decode_eq_raw, Instruction.raw_injective, fun a b => decode_eq_decode_iff,
    fun i => exists_decode_iff, ?_⟩
  intro m hp
  have hw : m.state.fetch = .ok m.state.word :=
    State.fetch_eq_ok_iff.mpr ⟨Nat.add_le_add_right hp 2, rfl⟩
  have hn := toNat_ofBytes (m.state.memory.get m.state.pc.toNat)
    (m.state.memory.get (m.state.pc.toNat + 1))
  have hlow := (m.state.memory.get (m.state.pc.toNat + 1)).toNat_lt
  refine ⟨_, hw, ?_, ?_, Machine.step_of_fetch hw⟩
  · rw [State.word, hn]
    omega
  · rw [State.word, hn]
    omega

/-- A shift in the last two bytes of memory is carried out like the shift that ignores a digit. -/
theorem decode_lossless_last_word :
    let m : Machine := ⟨{ State.initial with
      memory := Memory.blank.write 4094 [0x8A, 0xB6], pc := 4094 }, .released⟩
    m.state.pc.toNat ≤ 4094 ∧ m.step 0 = m.carryOut 0 (.decode 0x8A06) := by
  intro m
  have h : m.state.pc.toNat ≤ 4094 := by decide
  obtain ⟨hraw, hinj, hsame, -, hfetch⟩ := decode_lossless
  obtain ⟨w, hw, hhigh, hlow, hstep⟩ := hfetch m h
  have h0 : m.state.memory.get m.state.pc.toNat = 0x8A := by decide +kernel
  have h1 : m.state.memory.get (m.state.pc.toNat + 1) = 0xB6 := by decide +kernel
  rw [h0] at hhigh
  rw [h1] at hlow
  have hn : w.toNat = 256 * 0x8A + 0xB6 := by
    rw [← Nat.div_add_mod w.toNat 256, hhigh, hlow]
    rfl
  obtain rfl : w = 0x8AB6 := UInt16.toNat.inj hn
  have hd : decode 0x8AB6 = decode 0x8A06 :=
    (hsame _ _).mpr (.inr (.inl ⟨0xA, 0xB, 0x0, by decide, by decide⟩))
  rw [hraw, hraw] at hd
  refine ⟨h, ?_⟩
  rw [hstep, hinj hd]

end RawInstruction

end HexConsole
