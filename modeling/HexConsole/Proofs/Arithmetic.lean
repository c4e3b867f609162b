import HexConsole.Instruction.RoundTrip
import HexConsole.Machine.Execute

/-! # Register arithmetic

The operations with a flag read their operands before they write anything, and they write the
flag last. So the result is that of the registers before, also where both operands are the same
register, and the flag prevails where it goes to the register of the result.
-/

namespace HexConsole

open Opcode

variable {s : State} {x y : Register} {w : UInt16} {i : Instruction} {key : Key} {byte : UInt8}

namespace State

/-- A state in which an operation on register `x` has left its result and its flag. The flag
prevails in the flag register, and nothing else has changed. -/
structure Computed (s t : State) (x : Register) (result flag : Int) : Prop where
  flag : (t.reg flagRegister).toNat = flag
  result : x ≠ flagRegister → (t.reg x).toNat = result
  others : ∀ r, r ≠ x → r ≠ flagRegister → t.reg r = s.reg r
  rest : t = { s with registers := t.registers }

/-- A word that leaves a result in register `x` and a flag. -/
def Computes (s : State) (w : UInt16) (x : Register) (result flag : Int) : Prop :=
  ∀ key byte, ∃ t,
    (Instruction.decode w).execute key byte s = (.ok (s.pc + 2), t) ∧ s.Computed t x result flag

/-- A word that leaves a value in register `x` and nothing else, so no flag unless it is `x`. -/
def Assigns (s : State) (w : UInt16) (x : Register) (value : UInt8) : Prop :=
  ∀ key byte, ∃ t, (Instruction.decode w).execute key byte s = (.ok (s.pc + 2), t) ∧
    t.reg x = value ∧ (∀ r, r ≠ x → t.reg r = s.reg r) ∧ t = { s with registers := t.registers }

theorem execute_of_perform {t : State} (hd : Instruction.decode w = i)
    (hp : i.perform key byte s = (.ok .next, t)) (hpc : t.pc = s.pc) :
    (Instruction.decode w).execute key byte s = (.ok (s.pc + 2), t) := by
  simp only [hd, Instruction.execute, hp, hpc]
  rfl

theorem computes_of_decode {value flag : UInt8} {result flag' : Int}
    (hd : Instruction.decode w = i)
    (hp : ∀ key byte, i.perform key byte s =
      (.ok .next, (s.setReg x value).setReg flagRegister flag))
    (hr : value.toNat = result) (hf : flag.toNat = flag') : s.Computes w x result flag' := by
  intro key byte
  refine ⟨_, execute_of_perform hd (hp key byte) rfl, ?_⟩
  constructor
  case flag => rwa [reg_setReg_self]
  case result =>
    intro hx
    rwa [reg_setReg_of_ne hx, reg_setReg_self]
  case others =>
    intro r hx hF
    rw [reg_setReg_of_ne hF, reg_setReg_of_ne hx]
  case rest => rfl

theorem assigns_of_decode {value : UInt8} (hd : Instruction.decode w = i)
    (hp : ∀ key byte, i.perform key byte s = (.ok .next, s.setReg x value)) :
    s.Assigns w x value := by
  intro key byte
  refine ⟨_, execute_of_perform hd (hp key byte) rfl, reg_setReg_self s x value, ?_, rfl⟩
  intro r hr
  exact reg_setReg_of_ne hr

end State

theorem toNat_add_byte (a b : UInt8) :
    ((a + b).toNat : Int) = ((a.toNat : Int) + b.toNat) % 256 := by
  rw [UInt8.toNat_add]
  omega

theorem toNat_sub_byte (a b : UInt8) :
    ((a - b).toNat : Int) = ((a.toNat : Int) - b.toNat) % 256 := by
  have := b.toNat_lt
  rw [UInt8.toNat_sub]
  omega

theorem toNat_shiftRight_one (a : UInt8) : ((a >>> 1).toNat : Int) = (a.toNat : Int) / 2 := by
  have h : (a >>> 1).toNat = a.toNat >>> 1 := UInt8.toNat_shiftRight a 1
  rw [h, Nat.shiftRight_eq_div_pow]
  omega

theorem toNat_shiftRight_seven (a : UInt8) :
    ((a >>> 7).toNat : Int) = (a.toNat : Int) / 128 := by
  have h : (a >>> 7).toNat = a.toNat >>> 7 := UInt8.toNat_shiftRight a 7
  rw [h, Nat.shiftRight_eq_div_pow]
  omega

theorem toNat_and_one (a : UInt8) : ((a &&& 1).toNat : Int) = (a.toNat : Int) % 2 := by
  have h : (a &&& 1).toNat = a.toNat &&& 1 := UInt8.toNat_and a 1
  rw [h, Nat.and_one_is_mod]
  omega

theorem toNat_shiftLeft_one (a : UInt8) :
    ((a <<< 1).toNat : Int) = 2 * (a.toNat : Int) % 256 := by
  have h : (a <<< 1).toNat = a.toNat <<< 1 % 2 ^ 8 := UInt8.toNat_shiftLeft a 1
  rw [h, Nat.shiftLeft_eq]
  omega

theorem toNat_flag {p q : Prop} [Decidable p] [Decidable q] (h : p ↔ q) :
    ((if decide p then 1 else 0 : UInt8).toNat : Int) = if q then 1 else 0 := by
  by_cases hp : p
  · simp [hp, h.mp hp]
  · simp [hp, mt h.mpr hp]

namespace State

open Instruction

theorem computes_add (s : State) (x y : Register) :
    s.Computes (ofDigits 0x8 x y 0x4) x (((s.reg x).toNat + (s.reg y).toNat : Int) % 256)
      (if ((s.reg x).toNat + (s.reg y).toNat : Int) > 255 then 1 else 0) := by
  apply computes_of_decode (decode_encode (.add x y) trivial) (fun _ _ => rfl)
  · exact toNat_add_byte _ _
  · apply toNat_flag
    omega

theorem computes_subtract {minuend subtrahend : Register} (hd : decode w = i)
    (hp : ∀ key byte, i.perform key byte s = (.ok .next, s.subtract x minuend subtrahend)) :
    s.Computes w x (((s.reg minuend).toNat - (s.reg subtrahend).toNat : Int) % 256)
      (if ((s.reg minuend).toNat : Int) > (s.reg subtrahend).toNat then 1 else 0) := by
  apply computes_of_decode hd hp
  · exact toNat_sub_byte _ _
  · apply toNat_flag
    rw [gt_iff_lt, UInt8.lt_iff_toNat_lt]
    omega

theorem computes_shiftRight (s : State) (x y : Register) :
    s.Computes (ofDigits 0x8 x y 0x6) x ((s.reg x).toNat / 2) ((s.reg x).toNat % 2) := by
  apply computes_of_decode (decode_shiftRight x y) (fun _ _ => rfl)
  · exact toNat_shiftRight_one _
  · exact toNat_and_one _

theorem computes_shiftLeft (s : State) (x y : Register) :
    s.Computes (ofDigits 0x8 x y 0xE) x (2 * (s.reg x).toNat % 256) ((s.reg x).toNat / 128) := by
  apply computes_of_decode (decode_shiftLeft x y) (fun _ _ => rfl)
  · exact toNat_shiftLeft_one _
  · exact toNat_shiftRight_seven _

/-- Sums, differences and shifts leave the result and the flag that the registers had before,
whichever registers these are; the other operations on registers leave no flag. -/
theorem computes_arithmetic (s : State) (x y : Register) :
    let a : Int := (s.reg x).toNat
    let b : Int := (s.reg y).toNat
    s.Computes (ofDigits 0x8 x y 0x4) x ((a + b) % 256) (if a + b > 255 then 1 else 0) ∧
    s.Computes (ofDigits 0x8 x y 0x5) x ((a - b) % 256) (if a > b then 1 else 0) ∧
    s.Computes (ofDigits 0x8 x y 0x7) x ((b - a) % 256) (if b > a then 1 else 0) ∧
    s.Computes (ofDigits 0x8 x y 0x6) x (a / 2) (a % 2) ∧
    s.Computes (ofDigits 0x8 x y 0xE) x (2 * a % 256) (a / 128) ∧
    (∀ value, s.Assigns (ofByte 0x7 x value) x (s.reg x + value)) ∧
    s.Assigns (ofDigits 0x8 x y 0x0) x (s.reg y) ∧
    s.Assigns (ofDigits 0x8 x y 0x1) x (s.reg x ||| s.reg y) ∧
    s.Assigns (ofDigits 0x8 x y 0x2) x (s.reg x &&& s.reg y) ∧
    s.Assigns (ofDigits 0x8 x y 0x3) x (s.reg x ^^^ s.reg y) := by
  refine ⟨s.computes_add x y, ?_, ?_, s.computes_shiftRight x y, s.computes_shiftLeft x y,
    ?_, ?_, ?_, ?_, ?_⟩
  · exact computes_subtract (decode_encode (.sub x y) trivial) fun _ _ => rfl
  · exact computes_subtract (decode_encode (.subFrom x y) trivial) fun _ _ => rfl
  · intro value
    exact assigns_of_decode (decode_encode (.addByte x value) trivial) fun _ _ => rfl
  · exact assigns_of_decode (decode_encode (.copy x y) trivial) fun _ _ => rfl
  · exact assigns_of_decode (decode_encode (.or x y) trivial) fun _ _ => rfl
  · exact assigns_of_decode (decode_encode (.and x y) trivial) fun _ _ => rfl
  · exact assigns_of_decode (decode_encode (.xor x y) trivial) fun _ _ => rfl

/-- The flag register is the second operand of a sum, both operands of a difference and the
register that is shifted. -/
theorem computes_arithmetic_flagRegister :
    let s := (State.initial.setReg 0 0x81).setReg flagRegister 0x80
    (0 : Register) ≠ flagRegister ∧
      (∃ t, (decode 0x80F4).execute .released 0 s = (.ok 0x202, t) ∧
        (t.reg 0).toNat = 1 ∧ (t.reg flagRegister).toNat = 1) ∧
      (∃ t, (decode 0x8FF5).execute .released 0 s = (.ok 0x202, t) ∧
        (t.reg flagRegister).toNat = 0 ∧ t.reg 0 = 0x81) ∧
      ∃ t, (decode 0x8FFE).execute .released 0 s = (.ok 0x202, t) ∧
        (t.reg flagRegister).toNat = 1 := by
  intro s
  have h0 : (0 : Register) ≠ flagRegister := by decide
  have hv0 : (s.reg 0).toNat = 129 := rfl
  have hvF : (s.reg flagRegister).toNat = 128 := rfl
  obtain ⟨hadd, -⟩ := computes_arithmetic s 0 flagRegister
  obtain ⟨-, hsub, -, -, hshl, -⟩ := computes_arithmetic s flagRegister flagRegister
  rw [hv0, hvF] at hadd
  rw [hvF] at hsub hshl
  obtain ⟨t, ht, hc⟩ := hadd .released 0
  obtain ⟨u, hu, hd⟩ := hsub .released 0
  obtain ⟨v, hv, he⟩ := hshl .released 0
  refine ⟨h0, ⟨t, ht, ?_, ?_⟩, ⟨u, hu, ?_, ?_⟩, v, hv, ?_⟩
  · exact Int.ofNat.inj ((hc.result h0).trans (by decide))
  · exact Int.ofNat.inj (hc.flag.trans (by decide))
  · exact Int.ofNat.inj (hd.flag.trans (by decide))
  · exact hd.others 0 h0 h0
  · exact Int.ofNat.inj (he.flag.trans (by decide))

end State

end HexConsole
