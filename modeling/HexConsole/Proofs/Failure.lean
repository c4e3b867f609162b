import HexConsole.Machine.Program
import HexConsole.Proofs.Steps
import Mathlib.Tactic.SplitIfs

/-! # Which steps fail

The word at the program counter, the length of the stack and the index register say whether
a step fails, and with which fault. Sprites without rows are left aside.
-/

namespace HexConsole

open Opcode

namespace State

variable {s : State}

/-- The fault of a step, told from the word at the program counter. The conditions are looked
at from the first to the last. -/
def faultOfWord? (s : State) : Option Fault :=
  let w := s.word
  if 4094 < s.pc.toNat then some (.addressOutOfRange (s.pc.toNat + 1) s.pc)
  else if Unassigned w then some (.unknownOpcode w s.pc)
  else if w = 0x00EE ∧ s.stack = [] then some (.stackUnderflow s.pc)
  else if family w = 0x2 ∧ s.stack.length = 16 then some (.stackOverflow s.pc)
  else if family w = 0xD ∧ 1 ≤ n w ∧ 4096 < s.index.toNat + n w then
    some (.addressOutOfRange (s.index.toNat + n w - 1) s.pc)
  else if family w = 0xF ∧ kk w = 0x33 ∧ 4096 < s.index.toNat + 3 then
    some (.addressOutOfRange (s.index.toNat + 2) s.pc)
  else if family w = 0xF ∧ (kk w = 0x55 ∨ kk w = 0x65) ∧
      4096 < s.index.toNat + (x w).val + 1 then
    some (.addressOutOfRange (s.index.toNat + (x w).val) s.pc)
  else none

/-- The next step would draw a sprite without rows. -/
def DrawsNothing (s : State) : Prop :=
  s.pc.toNat ≤ 4094 ∧ family s.word = 0xD ∧ n s.word = 0

theorem rangeFault?_of_lt {address len : Nat} (h : 4096 < address + len) :
    s.rangeFault? address len = some (.addressOutOfRange (address + len - 1) s.pc) :=
  if_pos h

theorem rangeFault?_of_le {address len : Nat} (h : ¬4096 < address + len) :
    s.rangeFault? address len = none :=
  if_neg h

theorem fault?_of_lt (h : 4094 < s.pc.toNat) :
    s.fault? = some (.addressOutOfRange (s.pc.toNat + 1) s.pc) := by
  rw [fault?, rangeFault?_of_lt (show 4096 < s.pc.toNat + 2 by omega)]
  rfl

theorem fault?_of_decode {i : Instruction} (h : ¬4094 < s.pc.toNat)
    (hi : Instruction.decode s.word = i) : s.fault? = i.fault? s := by
  rw [fault?, rangeFault?_of_le (show ¬4096 < s.pc.toNat + 2 by omega), instruction, hi]
  rfl

open Instruction in
theorem fault?_eq_faultOfWord? (hz : ¬s.DrawsNothing) : s.fault? = s.faultOfWord? := by
  unfold faultOfWord?
  extract_lets w
  split_ifs with hp hu hl hc hd hb hr
  · exact fault?_of_lt hp
  · exact fault?_of_decode hp (decode_unknown_iff.mpr ⟨hu, rfl⟩)
  · rw [fault?_of_decode hp (decode_leave_iff.mpr hl.1)]
    exact if_pos hl.2
  · rw [fault?_of_decode hp (decode_call_iff.mpr ⟨hc.1, rfl⟩)]
    exact if_pos hc.2
  · have hn : n w < 16 := Nat.mod_lt _ (by decide)
    have hi : decode w = .draw (x w) (y w) ⟨n w, hn⟩ :=
      decode_draw_iff.mpr ⟨hd.1, rfl, rfl, rfl⟩
    rw [fault?_of_decode hp hi]
    exact rangeFault?_of_lt hd.2.2
  · have hi := (decode_transfer_iff (.storeDecimal _) id trivial rfl).mpr ⟨hb.1, rfl, hb.2.1⟩
    rw [fault?_of_decode hp hi]
    exact rangeFault?_of_lt hb.2.2
  · rcases hr.2.1 with hk | hk
    · have hi := (decode_transfer_iff (.store _) id trivial rfl).mpr ⟨hr.1, rfl, hk⟩
      rw [fault?_of_decode hp hi]
      exact rangeFault?_of_lt hr.2.2
    · have hi := (decode_transfer_iff (.load _) id trivial rfl).mpr ⟨hr.1, rfl, hk⟩
      rw [fault?_of_decode hp hi]
      exact rangeFault?_of_lt hr.2.2
  -- No condition holds, so every instruction that can fail has what it needs.
  · rw [fault?_of_decode hp rfl]
    cases hi : decode w with
    | leave => exact if_neg fun hs => hl ⟨decode_leave_iff.mp hi, hs⟩
    | call a => exact if_neg fun hs => hc ⟨(decode_call_iff.mp hi).1, hs⟩
    | draw a b height =>
      obtain ⟨hf, -, -, hn⟩ := decode_draw_iff.mp hi
      have hn0 : n w ≠ 0 := fun h0 => hz ⟨Nat.le_of_not_lt hp, hf, h0⟩
      exact rangeFault?_of_le fun ha => hd ⟨hf, Nat.pos_of_ne_zero hn0, hn ▸ ha⟩
    | storeDecimal a =>
      obtain ⟨hf, -, hk⟩ := (decode_transfer_iff (.storeDecimal a) id trivial rfl).mp hi
      exact rangeFault?_of_le fun ha => hb ⟨hf, hk, ha⟩
    | store a =>
      obtain ⟨hf, rfl, hk⟩ := (decode_transfer_iff (.store a) id trivial rfl).mp hi
      exact rangeFault?_of_le fun ha => hr ⟨hf, .inl hk, ha⟩
    | load a =>
      obtain ⟨hf, rfl, hk⟩ := (decode_transfer_iff (.load a) id trivial rfl).mp hi
      exact rangeFault?_of_le fun ha => hr ⟨hf, .inr hk, ha⟩
    | unknown v => exact absurd (decode_unknown_iff.mp hi).1 hu
    | _ => rfl

end State

namespace Machine

/-- The result of a step is the fault told from the word, or success where there is none. -/
theorem step_result (m : Machine) (byte : UInt8) (hz : ¬m.state.DrawsNothing) :
    (m.step byte).1 =
      match m.state.faultOfWord? with
      | some fault => .error fault
      | none => .ok () := by
  rw [← State.fault?_eq_faultOfWord? hz]
  cases h : m.state.fault? with
  | none => rw [step_of_none h]
  | some fault => rw [step_of_fault h]

/-- Seven registers do not fit into the last six bytes of memory. -/
theorem step_result_store_past_end :
    let m : Machine :=
      ⟨{ State.initial with memory := .ofProgram [0xF6, 0x55], index := 4090 }, .released⟩
    ¬m.state.DrawsNothing ∧ (m.step 0).1 = .error (.addressOutOfRange 4096 0x200) := by
  intro m
  have hw : m.state.word = 0xF655 := by
    simp only [State.word, m, Memory.get_ofProgram]
    decide
  have hz : ¬m.state.DrawsNothing := by
    rintro ⟨-, hf, -⟩
    rw [hw] at hf
    exact absurd hf (by decide)
  have hf : m.state.faultOfWord? = some (.addressOutOfRange 4096 0x200) := by
    simp only [State.faultOfWord?, hw]
    decide
  exact ⟨hz, by rw [step_result m 0 hz, hf]⟩

end Machine

end HexConsole
