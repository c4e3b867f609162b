import HexConsole.Guarded.Machine
import HexConsole.Proofs.Steps

/-! # No step is broken off

The numbers that come out of a word are small: registers are below sixteen and heights too, so
every range of registers and rows fits its array. Ranges of memory are checked, and what is added
or multiplied has at most sixteen bits. So the guarded machine goes the way of the machine.
-/

namespace HexConsole

open Guarded

variable {key : Key} {byte : UInt8} {s : State}

namespace Guarded

/-- No sum that counts bytes, rows or columns comes near the end of its word. -/
theorem count_sum_ok {a b : Nat} (h : a + b < 0x20000) : sum countSize a b = .ok (a + b) :=
  sum_ok (Nat.lt_trans h (by decide))

end Guarded

namespace Memory

theorem ext_get {m m' : Memory} (h : ∀ a < memorySize, m.get a = m'.get a) : m = m' := by
  obtain ⟨bytes⟩ := m
  obtain ⟨bytes'⟩ := m'
  congr
  refine Vector.ext fun i hi => ?_
  simpa [get, hi] using h i hi

theorem slice_eq (m : Memory) {address len : Nat} (h : address + len ≤ memorySize) :
    (m.bytes.toList.take (address + len)).drop address = m.slice address len := by
  refine List.ext_getElem ?_ fun k hk hk' => ?_
  · rw [List.length_drop, List.length_take, Vector.length_toList, length_slice]
    omega
  · rw [length_slice] at hk'
    have ha : address + k < memorySize := by omega
    simp [slice, get, ha]

theorem overwrite_eq_write (m : Memory) {address : Nat} {bytes : List UInt8}
    (h : address + bytes.length ≤ memorySize) :
    ⟨overwrite m.bytes address bytes⟩ = m.write address bytes := by
  refine ext_get fun a ha => ?_
  rw [get_write _ _ _ h]
  simp [get, overwrite, ha]

end Memory

namespace Screen

variable {x y row : Nat}

/-- A bit is set if it is the last one after a shift. -/
theorem shifted_eq_one_iff {bit : Nat} (hb : bit < 8) :
    byte >>> UInt8.ofNat (7 - bit) &&& 1 = 1 ↔ spriteBit byte bit = true := by
  have h : (UInt8.ofNat (7 - bit)).toNat % 8 = 7 - bit := by
    rw [UInt8.toNat_ofNat']
    omega
  rw [← UInt8.toNat_inj, UInt8.toNat_and, UInt8.toNat_shiftRight, h, spriteBit, Nat.testBit,
    Nat.and_comm]
  simp

theorem guarded_toggle (s : Screen) (x y : Nat) : Guarded.toggle s x y = .ok (s.toggle x y) := by
  have hr : index screenHeight (y % screenHeight) = .ok (row y) := index_val (row y)
  have hc : index screenWidth (x % screenWidth) = .ok (column x) := index_val (column x)
  rw [Guarded.toggle, hr, ok_bind, hc, ok_bind]
  rfl

theorem guarded_drawBit (hx : x + 8 < 0x20000) (hy : y + row < 0x20000) {bit : Nat}
    (hb : bit < 8) (drawn : Bool × Screen) :
    drawBit x y row byte drawn bit =
      .ok (if spriteBit byte bit then toggleNext drawn (x + bit, y + row) else drawn) := by
  rw [drawBit, difference_ok (Nat.le_of_lt_succ hb), ok_bind, shiftedRight_ok (by omega), ok_bind]
  simp only [shifted_eq_one_iff hb]
  split
  · rw [count_sum_ok (by omega), ok_bind, count_sum_ok hy, ok_bind, guarded_toggle]
    rfl
  · rfl

theorem guarded_drawRows (hx : x + 8 < 0x20000) {sprite : List UInt8}
    (hy : y + row + sprite.length < 0x20000) (drawn : Bool × Screen) :
    Guarded.drawRows x y drawn row sprite = .ok (drawRows drawn x (y + row) sprite) := by
  -- The guarded loop counts rows from a fixed corner, the other one moves the corner down.
  induction sprite generalizing drawn row with
  | nil => rfl
  | cons byte sprite ih =>
    rw [List.length_cons] at hy
    have hr : (List.range 8).foldlM (drawBit x y row byte) drawn =
        .ok ((rowPoints x (y + row) byte).foldl toggleNext drawn) := by
      rw [foldlM_ok fun bit hb => guarded_drawBit hx (by omega) (List.mem_range.mp hb), rowPoints,
        List.foldl_map, List.foldl_filter]
    rw [Guarded.drawRows, hr, ok_bind, count_sum_ok (by omega), ok_bind, ih (by omega)]
    rfl

end Screen

namespace State

variable {x y : Register} {address len : Nat}

@[simp]
theorem guarded_reg : Guarded.reg s x.val = .ok (s.reg x) := by simp [Guarded.reg]

@[simp]
theorem guarded_setReg : Guarded.setReg s x.val byte = .ok (s.setReg x byte) := by
  simp [Guarded.setReg]

@[simp]
theorem guarded_setFlag {flag : Bool} : Guarded.setFlag s flag = .ok (s.setFlag flag) :=
  guarded_setReg

@[simp]
theorem guarded_add : Guarded.add s x.val y.val = .ok (s.add x y) := by
  simp [Guarded.add, add]

@[simp]
theorem guarded_subtract {z : Register} :
    Guarded.subtract s x.val y.val z.val = .ok (s.subtract x y z) := by
  simp [Guarded.subtract, subtract]

@[simp]
theorem guarded_shiftRight : Guarded.shiftRight s x.val = .ok (s.shiftRight x) := by
  rw [Guarded.shiftRight, guarded_reg, ok_bind, guarded_setReg, ok_bind, guarded_setReg,
    shiftRight]

@[simp]
theorem guarded_shiftLeft : Guarded.shiftLeft s x.val = .ok (s.shiftLeft x) := by
  rw [Guarded.shiftLeft, guarded_reg, ok_bind, guarded_setReg, ok_bind, guarded_setReg, shiftLeft]

@[simp]
theorem guarded_awaitKey : Guarded.awaitKey s x.val key = .ok (s.awaitKey x key) := by
  rw [Guarded.awaitKey, awaitKey]
  split <;> simp

theorem register_sum_ok (x : Register) : sum countSize x.val 1 = .ok (x.val + 1) :=
  count_sum_ok (by omega)

theorem guarded_regsUpTo : Guarded.regsUpTo s x.val = .ok (s.regsUpTo x) := by
  rw [Guarded.regsUpTo, register_sum_ok, ok_bind, slice_ok (Nat.zero_le _) x.isLt]
  rfl

theorem guarded_checkedEnd (h : address + len < 0x20000) :
    checkedEnd s address len = .ok (match s.rangeFault? address len with
      | some fault => .error fault
      | none => .ok (address + len)) := by
  rw [checkedEnd, count_sum_ok h, ok_bind, rangeFault?]
  split
  · rw [difference_ok (by omega)]
    rfl
  · rfl

theorem guarded_readBytes (h : address + len < 0x20000) :
    Guarded.readBytes s address len = .ok (s.readBytes address len) := by
  rw [Guarded.readBytes, guarded_checkedEnd h, ok_bind, readBytes]
  cases hf : s.rangeFault? address len with
  | some fault => rfl
  | none =>
    have he := rangeFault?_eq_none_iff.mp hf
    simp only [slice_ok (Nat.le_add_right address len) he, ok_bind, s.memory.slice_eq he]
    rfl

theorem guarded_store {bytes : List UInt8} (hb : bytes.length = len) (h : len ≤ 16) :
    Guarded.store s len (.ok bytes) = .ok (s.store bytes) := by
  have hi := s.index.toNat_lt
  subst hb
  rw [Guarded.store, guarded_checkedEnd (by omega), ok_bind]
  cases hf : s.rangeFault? s.index.toNat bytes.length with
  | some fault => rw [store_of_fault hf]; rfl
  | none =>
    have he := rangeFault?_eq_none_iff.mp hf
    have hs := Nat.le_add_right s.index.toNat bytes.length
    have hl := (Nat.add_sub_cancel_left s.index.toNat bytes.length).symm
    simp only [within_ok hs he, ok_bind, replace_ok hs he hl, store_of_none hf,
      s.memory.overwrite_eq_write he]
    rfl

theorem guarded_load : Guarded.load s x.val = .ok (s.load x) := by
  have hx : x.val + 1 ≤ 16 := x.isLt
  have hi := s.index.toNat_lt
  rw [Guarded.load, register_sum_ok, ok_bind, within_ok (Nat.zero_le _) hx, ok_bind,
    guarded_readBytes (by omega), ok_bind, readBytes]
  cases hf : s.rangeFault? s.index.toNat (x.val + 1) with
  | some fault => rw [load_of_fault hf]; rfl
  | none =>
    have hl := s.memory.length_slice s.index.toNat (x.val + 1)
    simp [load_of_none hf, replace_ok (Nat.zero_le _) hx hl, overwrite, setRegs]

theorem guarded_draw {height : Fin 16} :
    Guarded.draw s x.val y.val (UInt8.ofNat height) = .ok (s.draw x y height) := by
  have hh : (UInt8.ofNat height).toNat = height.val := by
    rw [UInt8.toNat_ofNat']
    omega
  have hi := s.index.toNat_lt
  have hx := (s.reg x).toNat_lt
  have hy := (s.reg y).toNat_lt
  -- The buffer has as many rows as the highest sprite.
  have hr : height.val ≤ 15 := Nat.le_of_lt_succ height.isLt
  simp only [Guarded.draw, guarded_reg, ok_bind, hh]
  rw [within_ok (Nat.zero_le _) hr, ok_bind, guarded_readBytes (by omega), ok_bind, readBytes]
  cases hf : s.rangeFault? s.index.toNat height with
  | some fault => rw [draw_of_fault hf]; rfl
  | none =>
    rw [draw_of_none hf]
    have hl := s.memory.length_slice s.index.toNat height
    simp only [replace_ok (Nat.zero_le _) hr hl, slice_overwrite (Nat.zero_le _) hr hl, ok_bind]
    rw [Screen.guarded_drawRows (by omega) (by omega)]
    simp [drawSprite, Screen.drawSprite]

theorem guarded_pointGlyph :
    Guarded.pointGlyph s x.val =
      .ok { s with index := UInt16.ofNat (fontStart + (s.reg x).toNat * glyphSize) } := by
  have hx := (s.reg x).toNat_lt
  have hp : (s.reg x).toNat * 5 < 0x10000 := by omega
  have hs : 0 + (s.reg x).toNat * 5 < 0x10000 := by omega
  rw [Guarded.pointGlyph, guarded_reg, ok_bind, product_ok hp, ok_bind, sum_ok hs]
  rfl

end State

namespace Instruction

theorem guarded_perform (i : Instruction) (key : Key) (byte : UInt8) (s : State) :
    Guarded.perform key byte s i.raw = .ok (i.perform key byte s) := by
  cases i with
  | draw => exact State.guarded_draw
  | load => exact State.guarded_load
  | store x =>
    rw [raw, Guarded.perform, State.register_sum_ok, ok_bind, State.guarded_regsUpTo]
    exact State.guarded_store (State.length_regsUpTo s x) x.isLt
  | storeDecimal x =>
    rw [raw, Guarded.perform, State.guarded_reg, ok_bind]
    exact State.guarded_store rfl (by decide : 3 ≤ 16)
  | pointGlyph x =>
    rw [raw, Guarded.perform, State.guarded_pointGlyph]
    rfl
  | jumpOffset => rfl
  | _ => simp [raw, perform, Guarded.perform]

theorem guarded_execute (w : UInt16) (key : Key) (byte : UInt8) (s : State) :
    Guarded.execute (RawInstruction.decode w) key byte s =
      .ok ((decode w).execute key byte s) := by
  rw [Guarded.execute, RawInstruction.decode_eq_raw, guarded_perform]
  rfl

end Instruction

namespace State

theorem guarded_fetch : Guarded.fetch s = .ok s.fetch := by
  have hpc := s.pc.toNat_lt
  have hp : s.pc.toNat + 2 < 0x20000 := by omega
  rw [Guarded.fetch, guarded_readBytes hp, ok_bind, fetch, readBytes]
  cases s.rangeFault? s.pc.toNat instructionSize with
  | some fault => rfl
  | none => rfl

theorem guarded_cycle (s : State) (key : Key) (byte : UInt8) :
    Guarded.cycle s key byte = .ok (s.cycle key byte) := by
  rw [Guarded.cycle, guarded_fetch, ok_bind, cycle]
  cases s.fetch with
  | error fault => rfl
  | ok word =>
    simp only [Instruction.guarded_execute, ok_bind]
    split <;> simp_all

end State

/-- No word makes the guarded execution break off, whatever the state, and no machine a guarded
step. What they come to is what execution and the step come to, a fault or not. -/
theorem Machine.step_never_broken_off :
    (∀ (w : UInt16) (key : Key) (byte : UInt8) (s : State),
      Guarded.execute (RawInstruction.decode w) key byte s =
        .ok ((Instruction.decode w).execute key byte s)) ∧
    ∀ (m : Machine) (byte : UInt8), Guarded.step m byte = .ok (m.step byte) := by
  refine ⟨Instruction.guarded_execute, fun m byte => ?_⟩
  rw [Guarded.step, State.guarded_cycle]
  rfl

-- Guards do break off raw instructions that no word encodes.
example : Guarded.execute (.setByte 16 0) .released 0 .initial = .error .index := rfl

example : Guarded.execute (.draw 0 0 16) .released 0 .initial = .error .range := rfl

end HexConsole
