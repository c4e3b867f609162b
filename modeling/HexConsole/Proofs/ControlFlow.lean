import HexConsole.Proofs.Reachability

/-! # Where steps lead

The word at the program counter and the state before a step tell where the step leads if it does
not fail: a jump or a call to an address, a return behind the call, a test past the next
instruction if it holds, a wait nowhere, and all else to the next instruction. Of two opposite
tests with the same operands one holds and the other does not.
-/

namespace HexConsole

open Opcode

variable {s : State} {key : Key} {byte : UInt8} {w : UInt16}

theorem Key.isDown_eq (key : Key) (byte : UInt8) :
    key.isDown byte = (key.pressed && key.code.toNat == byte.toNat % 16) := by
  have h : (byte &&& 0xF).toNat = byte.toNat % 16 := by
    rw [UInt8.toNat_and]
    exact Nat.and_two_pow_sub_one_eq_mod byte.toNat 4
  rw [Key.isDown, ← h]
  congr 1
  rw [Bool.eq_iff_iff, beq_iff_eq, beq_iff_eq, UInt8.toNat_inj]

namespace State

/-- Where a step leads whose word is `w`; words outside the instruction set lead nowhere, so it
does not matter what is said of them. -/
def targetOfWord (s : State) (key : Key) (w : UInt16) : Nat :=
  let pc := s.pc.toNat
  let vx := s.reg (x w)
  let vy := s.reg (y w)
  let held := key.pressed && key.code.toNat == vx.toNat % 16
  match family w with
  | 0x0 => if w = 0x00EE then (s.stack.headD 0).toNat + 2 else pc + 2
  | 0x1 | 0x2 => (addr w).toNat
  | 0x3 => if vx = kk w then pc + 4 else pc + 2
  | 0x4 => if vx ≠ kk w then pc + 4 else pc + 2
  | 0x5 => if vx = vy then pc + 4 else pc + 2
  | 0x9 => if vx ≠ vy then pc + 4 else pc + 2
  | 0xB => (addr w).toNat + (s.reg 0).toNat
  | 0xE => if kk w = 0x9E ∧ held ∨ kk w = 0xA1 ∧ ¬held then pc + 4 else pc + 2
  | 0xF => if kk w = 0x0A ∧ ¬key.pressed then pc else pc + 2
  | _ => pc + 2

theorem stride_eq_ite (condition : Bool) (pc : Nat) :
    pc + Flow.stride condition = if condition then pc + 4 else pc + 2 := by
  cases condition <;> rfl

end State

namespace Instruction

theorem destination_decodeArithmetic (key : Key) (s : State) (w : UInt16) :
    (decodeArithmetic w).destination key s = s.pc.toNat + 2 := by
  unfold decodeArithmetic
  split <;> rfl

theorem destination_decodeKeyTest (hf : family w = 0xE) (h : ¬Unassigned w) :
    (decodeKeyTest w).destination key s = s.targetOfWord key w := by
  simp only [State.targetOfWord, hf, ← Key.isDown_eq]
  unfold decodeKeyTest
  split
  case h_1 hk =>
    have hk : kk w = 0x9E := UInt8.toNat.inj hk
    simp only [destination, State.stride_eq_ite, hk]
    simp
  case h_2 hk =>
    have hk : kk w = 0xA1 := UInt8.toNat.inj hk
    simp only [destination, State.stride_eq_ite, hk]
    simp
  case h_3 h1 h2 =>
    refine absurd (.inr (.inr (.inl ⟨hf, ?_⟩))) h
    simp only [List.mem_cons, List.not_mem_nil, or_false, not_or]
    exact ⟨h1, h2⟩

theorem destination_decodeTransfer (hf : family w = 0xF) :
    (decodeTransfer w).destination key s = s.targetOfWord key w := by
  simp only [State.targetOfWord, hf]
  unfold decodeTransfer
  split
  case h_2 hk =>
    have hk : kk w = 0x0A := UInt8.toNat.inj hk
    cases hp : key.pressed <;> simp [destination, hk, hp]
  all_goals
    have hk : kk w ≠ 0x0A := fun he => by simp_all
    simp [destination, hk]

/-- An instruction that was decoded leads where its word says. -/
theorem destination_decode (key : Key) (s : State) (h : ¬Unassigned w) :
    (decode w).destination key s = s.targetOfWord key w := by
  have hl := family_lt w
  unfold decode
  split
  case h_1 hf =>
    simp only [State.targetOfWord, hf]
    split
    case isTrue he => simp [destination, he]
    case isFalse =>
      split
      · rfl
      · rfl
  case h_4 hf | h_5 hf =>
    simp only [State.targetOfWord, hf, destination, State.stride_eq_ite]
    simp
  case h_6 hf | h_10 hf =>
    -- With another last digit the word would be unassigned.
    have hn : n w = 0 := Decidable.not_not.mp fun hn => h (.inl ⟨by simp [hf], hn⟩)
    simp only [State.targetOfWord, hf, hn, if_true, destination, State.stride_eq_ite]
    simp
  case h_9 hf =>
    rw [destination_decodeArithmetic]
    simp only [State.targetOfWord, hf]
  case h_15 hf => exact destination_decodeKeyTest hf h
  case h_16 =>
    apply destination_decodeTransfer
    simp only [imp_false] at *
    omega
  all_goals simp only [State.targetOfWord, destination, *]

end Instruction

namespace State

theorem not_unassigned_of_fault? (h : s.fault? = none) : ¬Unassigned s.word := by
  intro hu
  have hd : s.instruction = .unknown s.word := Instruction.decode_unknown_iff.mpr ⟨hu, rfl⟩
  have hi := (fault?_eq_none_iff.mp h).2
  rw [hd] at hi
  cases hi

theorem Bounded.toNat_pc_next_eq (hs : s.Bounded) (h : s.fault? = none) :
    (s.next key byte).pc.toNat = s.targetOfWord key s.word := by
  rw [hs.toNat_pc_next h]
  exact Instruction.destination_decode key s (not_unassigned_of_fault? h)

theorem stack_next_of_leave (key : Key) (byte : UInt8) (h : s.fault? = none)
    (hw : s.word = 0x00EE) : ∃ caller, s.stack = caller :: (s.next key byte).stack := by
  have hi : s.instruction = .leave := Instruction.decode_leave_iff.mpr hw
  have hf := (fault?_eq_none_iff.mp h).2
  rw [hi] at hf
  have hs : s.stack ≠ [] := fun hs => by simp [Instruction.fault?, hs] at hf
  obtain ⟨caller, stack, hs⟩ := List.exists_cons_of_ne_nil hs
  refine ⟨caller, ?_⟩
  simp only [next, Instruction.effect_stack, hi, hs, List.tail_cons]

/-- Executing a word changes nothing and leads so many bytes further. -/
def Passes (s : State) (key : Key) (w : UInt16) (bytes : UInt16) : Prop :=
  ∀ byte, (Instruction.decode w).execute key byte s = (.ok (s.pc + bytes), s)

/-- Of two words exactly one skips the next instruction. -/
def OneSkips (s : State) (key : Key) (w w' : UInt16) : Prop :=
  s.Passes key w 4 ∧ s.Passes key w' 2 ∨ s.Passes key w 2 ∧ s.Passes key w' 4

theorem passes_of_perform {i : Instruction} {condition : Bool}
    (hd : Instruction.decode w = i)
    (hp : ∀ byte, i.perform key byte s = (.ok (.skipIf condition), s)) :
    s.Passes key w (if condition then 4 else 2) := by
  intro byte
  rw [hd, Instruction.execute, hp byte]
  cases condition <;> rfl

theorem oneSkips_of_perform {i j : Instruction} {v w : UInt16} {condition : Bool}
    (hi : Instruction.decode v = i) (hj : Instruction.decode w = j)
    (hpi : ∀ byte, i.perform key byte s = (.ok (.skipIf condition), s))
    (hpj : ∀ byte, j.perform key byte s = (.ok (.skipIf !condition), s)) :
    s.OneSkips key v w := by
  have hv := passes_of_perform hi hpi
  have hw := passes_of_perform hj hpj
  cases condition with
  | true => exact .inl ⟨hv, hw⟩
  | false => exact .inr ⟨hv, hw⟩

open Instruction in
theorem oneSkips_opposite (s : State) (key : Key) (x y : Register) (value : UInt8) :
    s.OneSkips key (ofByte 0x3 x value) (ofByte 0x4 x value) ∧
    s.OneSkips key (ofDigits 0x5 x y 0x0) (ofDigits 0x9 x y 0x0) ∧
    s.OneSkips key (ofByte 0xE x 0x9E) (ofByte 0xE x 0xA1) := by
  refine ⟨?_, ?_, ?_⟩
  · exact oneSkips_of_perform (decode_encode (.skipEqByte x value) trivial)
      (decode_encode (.skipNeByte x value) trivial) (fun _ => rfl) (fun _ => rfl)
  · exact oneSkips_of_perform (decode_encode (.skipEq x y) trivial)
      (decode_encode (.skipNe x y) trivial) (fun _ => rfl) (fun _ => rfl)
  · exact oneSkips_of_perform (decode_encode (.skipKeyDown x) trivial)
      (decode_encode (.skipKeyUp x) trivial) (fun _ => rfl) (fun _ => rfl)

end State

namespace Machine

variable {m : Machine}

/-- A successful step of a reachable machine leads where its word says, and a return leads behind
the call that it takes from the stack. Of two opposite tests exactly one skips, in every state. -/
theorem step_target (h : Reachable m) :
    (∀ byte m', m.step byte = (.ok (), m') →
      ∃ w, m.state.fetch = .ok w ∧ m'.state.pc.toNat = m.state.targetOfWord m.key w ∧
        (w = 0x00EE → ∃ caller, m.state.stack = caller :: m'.state.stack ∧
          m'.state.pc.toNat = caller.toNat + 2)) ∧
    ∀ (s : State) key x y value,
      s.OneSkips key (ofByte 0x3 x value) (ofByte 0x4 x value) ∧
      s.OneSkips key (ofDigits 0x5 x y 0x0) (ofDigits 0x9 x y 0x0) ∧
      s.OneSkips key (ofByte 0xE x 0x9E) (ofByte 0xE x 0xA1) := by
  refine ⟨?_, State.oneSkips_opposite⟩
  intro byte m' hm
  obtain ⟨hf, rfl⟩ := step_eq_ok_iff.mp hm
  have hw := State.fetch_eq_ok_iff.mpr ⟨(State.fault?_eq_none_iff.mp hf).1, rfl⟩
  have hpc : (m.state.next m.key byte).pc.toNat = m.state.targetOfWord m.key m.state.word :=
    h.bounded.toNat_pc_next_eq hf
  refine ⟨m.state.word, hw, hpc, ?_⟩
  intro he
  obtain ⟨caller, hs⟩ := State.stack_next_of_leave m.key byte hf he
  refine ⟨caller, hs, ?_⟩
  have ht : m.state.targetOfWord m.key 0x00EE = (m.state.stack.headD 0).toNat + 2 := rfl
  rw [hpc, he, ht, hs, List.headD_cons]

/-- A subroutine that returns at once. -/
theorem step_target_return :
    let m := ((initial.load (.whole [0x22, 0x04, 0x00, 0x00, 0x00, 0xEE])).2.react (.step 0)).2
    Reachable m ∧ ∃ m', m.step 0 = (.ok (), m') ∧ m.state.fetch = .ok 0x00EE ∧
      m.state.stack = [0x200] ∧ m'.state.pc.toNat = 0x202 ∧
      m.state.OneSkips .released (ofByte 0x3 1 7) (ofByte 0x4 1 7) := by
  intro m
  have hm : Reachable m := .react _ (.load _ .initial)
  have hf : m.state.fault? = none := by decide +kernel
  have hw : m.state.fetch = .ok 0x00EE :=
    State.fetch_eq_ok_iff.mpr ⟨(State.fault?_eq_none_iff.mp hf).1, by decide +kernel⟩
  have hs : m.state.stack = [0x200] := by decide +kernel
  obtain ⟨htarget, hskips⟩ := step_target hm
  obtain ⟨w, hw', -, hret⟩ := htarget 0 _ (step_of_none hf)
  obtain rfl : w = 0x00EE := Except.ok.inj (hw'.symm.trans hw)
  obtain ⟨caller, hc, hpc⟩ := hret rfl
  obtain ⟨rfl, -⟩ := List.cons.inj (hs.symm.trans hc)
  exact ⟨hm, _, step_of_none hf, hw, hs, hpc, (hskips m.state .released 1 2 7).1⟩

end Machine

end HexConsole
