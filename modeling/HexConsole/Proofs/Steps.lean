import HexConsole.Machine.Step
import HexConsole.Proofs.Words

/-! # What a step does

An instruction looks for its fault before it changes anything. Without a fault it has an
effect on the state and a destination, which is where the program counter goes if numbers
do not wrap around. These three together are all that a step does.
-/

namespace HexConsole

variable {key : Key} {byte : UInt8} {s t : State} {i : Instruction} {fault : Fault}

namespace Flow

theorem target_next (pc : UInt16) :
    next.target pc = UInt16.ofNat (pc.toNat + instructionSize) := by
  simp [target]

/-- How far an instruction goes that skips the next one if something holds. -/
def stride (condition : Bool) : Nat :=
  if condition then 2 * instructionSize else instructionSize

theorem stride_le (condition : Bool) : stride condition ≤ 2 * instructionSize := by
  cases condition <;> decide

theorem target_skipIf (condition : Bool) (pc : UInt16) :
    (skipIf condition).target pc = UInt16.ofNat (pc.toNat + stride condition) := by
  cases condition <;> simp [skipIf, target, stride]

theorem target_jump (addr pc : UInt16) : (jump addr).target pc = UInt16.ofNat addr.toNat := by
  simp [target]

theorem target_wait (pc : UInt16) : wait.target pc = UInt16.ofNat pc.toNat := by
  simp [target]

end Flow

namespace State

theorem rangeFault?_eq_none_iff {address len : Nat} :
    s.rangeFault? address len = none ↔ address + len ≤ memorySize := by
  simp [rangeFault?]

theorem length_regsUpTo (s : State) (x : Register) : (s.regsUpTo x).length = x.val + 1 := by
  have := x.isLt
  simp only [regsUpTo, List.length_take, Vector.length_toList]
  omega

theorem leave_of_nil (h : s.stack = []) : s.leave = (.error (.stackUnderflow s.pc), s) := by
  simp only [leave, h]

theorem leave_of_ne_nil (h : s.stack ≠ []) :
    s.leave = (.ok (.jump (s.stack.headD 0 + UInt16.ofNat instructionSize)),
      { s with stack := s.stack.tail }) := by
  obtain ⟨caller, stack, hs⟩ := List.exists_cons_of_ne_nil h
  simp only [leave, hs, List.headD_cons, List.tail_cons]

theorem draw_of_fault {x y : Register} {height : Fin 16}
    (h : s.rangeFault? s.index.toNat height = some fault) :
    s.draw x y height = (.error fault, s) := by
  simp only [draw, readBytes, h]

theorem draw_of_none {x y : Register} {height : Fin 16}
    (h : s.rangeFault? s.index.toNat height = none) :
    s.draw x y height =
      (.ok .next, s.drawSprite x y (s.memory.slice s.index.toNat height)) := by
  simp only [draw, readBytes, h]

theorem load_of_fault {x : Register}
    (h : s.rangeFault? s.index.toNat (x.val + 1) = some fault) :
    s.load x = (.error fault, s) := by
  simp only [load, readBytes, h]

theorem load_of_none {x : Register} (h : s.rangeFault? s.index.toNat (x.val + 1) = none) :
    s.load x = (.ok .next, s.setRegs (s.memory.slice s.index.toNat (x.val + 1))) := by
  simp only [load, readBytes, h]

theorem store_of_fault {bytes : List UInt8}
    (h : s.rangeFault? s.index.toNat bytes.length = some fault) :
    s.store bytes = (.error fault, s) := by
  simp only [store, writeBytes, h]

theorem store_of_none {bytes : List UInt8}
    (h : s.rangeFault? s.index.toNat bytes.length = none) :
    s.store bytes = (.ok .next, { s with memory := s.memory.write s.index.toNat bytes }) := by
  simp only [store, writeBytes, h]

end State

namespace Instruction

/-- The fault of an instruction in a state, if it has one. -/
def fault? (s : State) : Instruction → Option Fault
  | leave => if s.stack = [] then some (.stackUnderflow s.pc) else none
  | call _ => if s.stack.length = stackDepth then some (.stackOverflow s.pc) else none
  | draw _ _ height => s.rangeFault? s.index.toNat height
  | storeDecimal _ => s.rangeFault? s.index.toNat 3
  | store x | load x => s.rangeFault? s.index.toNat (x.val + 1)
  | unknown word => some (.unknownOpcode word s.pc)
  | _ => none

/-- Where an instruction without a fault goes, as a number that does not wrap around. -/
def destination (key : Key) (s : State) : Instruction → Nat
  | leave => (s.stack.headD 0).toNat + instructionSize
  | jump addr | call addr => addr.toNat
  | jumpOffset addr => addr.toNat + (s.reg 0).toNat
  | skipEqByte x value => s.pc.toNat + Flow.stride (s.reg x == value)
  | skipNeByte x value => s.pc.toNat + Flow.stride (s.reg x != value)
  | skipEq x y => s.pc.toNat + Flow.stride (s.reg x == s.reg y)
  | skipNe x y => s.pc.toNat + Flow.stride (s.reg x != s.reg y)
  | skipKeyDown x => s.pc.toNat + Flow.stride (key.isDown (s.reg x))
  | skipKeyUp x => s.pc.toNat + Flow.stride (!key.isDown (s.reg x))
  | awaitKey _ => if key.pressed then s.pc.toNat + instructionSize else s.pc.toNat
  | _ => s.pc.toNat + instructionSize

/-- The state after an instruction without a fault, before the machine goes on. -/
def effect (key : Key) (byte : UInt8) (s : State) : Instruction → State
  | clearScreen => { s with screen := .dark }
  | leave => { s with stack := s.stack.tail }
  | call _ => { s with stack := s.pc :: s.stack }
  | setByte x value => s.setReg x value
  | addByte x value => s.setReg x (s.reg x + value)
  | copy x y => s.setReg x (s.reg y)
  | or x y => s.setReg x (s.reg x ||| s.reg y)
  | and x y => s.setReg x (s.reg x &&& s.reg y)
  | xor x y => s.setReg x (s.reg x ^^^ s.reg y)
  | add x y => s.add x y
  | sub x y => s.subtract x x y
  | shiftRight x => s.shiftRight x
  | subFrom x y => s.subtract x y x
  | shiftLeft x => s.shiftLeft x
  | setIndex addr => { s with index := addr }
  | random x mask => s.setReg x (byte &&& mask)
  | draw x y height => s.drawSprite x y (s.memory.slice s.index.toNat height)
  | readDelay x => s.setReg x s.delay
  | awaitKey x => if key.pressed then s.setReg x key.code else s
  | setDelay x => { s with delay := s.reg x }
  | setSound x => { s with sound := s.reg x }
  | addIndex x => { s with index := s.index + (s.reg x).toUInt16 }
  | pointGlyph x =>
    { s with index := UInt16.ofNat (fontStart + (s.reg x).toNat * glyphSize) }
  | storeDecimal x =>
    { s with memory := s.memory.write s.index.toNat (decimalDigits (s.reg x)) }
  | store x => { s with memory := s.memory.write s.index.toNat (s.regsUpTo x) }
  | load x => s.setRegs (s.memory.slice s.index.toNat (x.val + 1))
  | _ => s

theorem perform_of_fault (h : i.fault? s = some fault) :
    i.perform key byte s = (.error fault, s) := by
  cases i with
  | leave =>
    obtain ⟨hs, hf⟩ := Option.ite_none_right_eq_some.mp h
    obtain rfl := Option.some.inj hf
    exact State.leave_of_nil hs
  | call addr =>
    obtain ⟨hs, hf⟩ := Option.ite_none_right_eq_some.mp h
    obtain rfl := Option.some.inj hf
    exact if_pos hs
  | draw x y height => exact State.draw_of_fault h
  | load x => exact State.load_of_fault h
  | storeDecimal x => exact State.store_of_fault h
  | store x => exact State.store_of_fault (by rwa [State.length_regsUpTo])
  | unknown word =>
    obtain rfl := Option.some.inj h
    rfl
  | _ => cases h

theorem perform_of_none (key : Key) (byte : UInt8) (h : i.fault? s = none) :
    ∃ flow : Flow, i.perform key byte s = (.ok flow, i.effect key byte s) ∧
      flow.target s.pc = UInt16.ofNat (i.destination key s) := by
  cases i with
  | leave =>
    have hs : s.stack ≠ [] := fun hs => by simp [fault?, hs] at h
    exact ⟨_, State.leave_of_ne_nil hs, by simp [Flow.target, destination]⟩
  | call addr =>
    have hs : s.stack.length ≠ stackDepth := fun hs => by simp [fault?, hs] at h
    exact ⟨_, if_neg hs, Flow.target_jump addr s.pc⟩
  | jump addr => exact ⟨_, rfl, Flow.target_jump addr s.pc⟩
  | jumpOffset addr => exact ⟨_, rfl, by simp [Flow.target, destination]⟩
  | draw x y height => exact ⟨_, State.draw_of_none h, Flow.target_next s.pc⟩
  | load x => exact ⟨_, State.load_of_none h, Flow.target_next s.pc⟩
  | storeDecimal x => exact ⟨_, State.store_of_none h, Flow.target_next s.pc⟩
  | store x =>
    have h : s.rangeFault? s.index.toNat (s.regsUpTo x).length = none := by
      rwa [State.length_regsUpTo]
    exact ⟨_, State.store_of_none h, Flow.target_next s.pc⟩
  | awaitKey x =>
    by_cases hk : key.pressed
    · exact ⟨.next, by simp [perform, State.awaitKey, effect, hk], by
        simp [Flow.target_next, destination, hk]⟩
    · exact ⟨.wait, by simp [perform, State.awaitKey, effect, hk], by
        simp [Flow.target_wait, destination, hk]⟩
  | skipEqByte | skipNeByte | skipEq | skipNe | skipKeyDown | skipKeyUp =>
    exact ⟨_, rfl, Flow.target_skipIf _ s.pc⟩
  | unknown word => cases h
  | _ => exact ⟨_, rfl, Flow.target_next s.pc⟩

theorem effect_pc (key : Key) (byte : UInt8) (s : State) (i : Instruction) :
    (i.effect key byte s).pc = s.pc := by
  cases i with
  | awaitKey x => simp only [effect]; split <;> rfl
  | _ => rfl

theorem effect_stack (key : Key) (byte : UInt8) (s : State) (i : Instruction) :
    (i.effect key byte s).stack =
      match i with
      | leave => s.stack.tail
      | call _ => s.pc :: s.stack
      | _ => s.stack := by
  cases i with
  | awaitKey x => simp only [effect]; split <;> rfl
  | _ => rfl

theorem effect_screen (key : Key) (byte : UInt8) (s : State) (i : Instruction) :
    (i.effect key byte s).screen =
      match i with
      | clearScreen => .dark
      | draw x y height =>
        (s.screen.drawSprite (s.reg x).toNat (s.reg y).toNat
          (s.memory.slice s.index.toNat height)).2
      | _ => s.screen := by
  cases i with
  | awaitKey x => simp only [effect]; split <;> rfl
  | _ => rfl

theorem effect_index (key : Key) (byte : UInt8) (s : State) (i : Instruction) :
    (i.effect key byte s).index =
      match i with
      | setIndex addr => addr
      | addIndex x => s.index + (s.reg x).toUInt16
      | pointGlyph x => UInt16.ofNat (fontStart + (s.reg x).toNat * glyphSize)
      | _ => s.index := by
  cases i with
  | awaitKey x => simp only [effect]; split <;> rfl
  | _ => rfl

theorem effect_memory (key : Key) (byte : UInt8) (s : State) (i : Instruction) :
    (i.effect key byte s).memory =
      match i with
      | storeDecimal x => s.memory.write s.index.toNat (decimalDigits (s.reg x))
      | store x => s.memory.write s.index.toNat (s.regsUpTo x)
      | _ => s.memory := by
  cases i with
  | awaitKey x => simp only [effect]; split <;> rfl
  | _ => rfl

theorem execute_of_fault (h : i.fault? s = some fault) :
    i.execute key byte s = (.error fault, s) := by
  simp only [execute, perform_of_fault h]
  rfl

theorem execute_of_none (h : i.fault? s = none) :
    i.execute key byte s =
      (.ok (UInt16.ofNat (i.destination key s)), i.effect key byte s) := by
  obtain ⟨flow, hp, ht⟩ := perform_of_none key byte h
  simp only [execute, hp, effect_pc, ← ht]
  rfl

theorem execute_eq_ok_iff {pc : UInt16} :
    i.execute key byte s = (.ok pc, t) ↔
      i.fault? s = none ∧ UInt16.ofNat (i.destination key s) = pc ∧ i.effect key byte s = t := by
  cases h : i.fault? s with
  | none => simp [execute_of_none h]
  | some f => simp [execute_of_fault h]

end Instruction

namespace State

/-- The word at the program counter, its high byte first. -/
def word (s : State) : UInt16 :=
  Opcode.ofBytes (s.memory.get s.pc.toNat) (s.memory.get (s.pc.toNat + 1))

/-- The instruction at the program counter. -/
def instruction (s : State) : Instruction := .decode s.word

/-- The fault of a step from a state, if it has one: that of the fetch comes first. -/
def fault? (s : State) : Option Fault :=
  (s.rangeFault? s.pc.toNat instructionSize).or (s.instruction.fault? s)

/-- The state after a step without a fault. -/
def next (key : Key) (byte : UInt8) (s : State) : State :=
  { s.instruction.effect key byte s with
    pc := UInt16.ofNat (s.instruction.destination key s) }

theorem fetch_of_fault (h : s.rangeFault? s.pc.toNat instructionSize = some fault) :
    s.fetch = .error fault := by
  simp only [fetch, readBytes, h]
  rfl

theorem fetch_of_none (h : s.rangeFault? s.pc.toNat instructionSize = none) :
    s.fetch = .ok s.word := by
  simp only [fetch, readBytes, h]
  rfl

theorem fetch_eq_ok_iff {w : UInt16} :
    s.fetch = .ok w ↔ s.pc.toNat + instructionSize ≤ memorySize ∧ s.word = w := by
  rw [← rangeFault?_eq_none_iff (s := s)]
  cases h : s.rangeFault? s.pc.toNat instructionSize with
  | none => simp [fetch_of_none h]
  | some fault => simp [fetch_of_fault h]

theorem fault?_eq_none_iff :
    s.fault? = none ↔
      s.pc.toNat + instructionSize ≤ memorySize ∧ s.instruction.fault? s = none := by
  rw [fault?, Option.or_eq_none_iff, rangeFault?_eq_none_iff]

theorem cycle_of_fault (h : s.fault? = some fault) : s.cycle key byte = (.error fault, s) := by
  rcases Option.or_eq_some_iff.mp h with hr | ⟨hr, hi⟩
  · simp only [cycle, fetch_of_fault hr]
  · have he : (Instruction.decode s.word).execute key byte s = _ :=
      Instruction.execute_of_fault hi
    simp only [cycle, fetch_of_none hr, he]

theorem cycle_of_none (h : s.fault? = none) :
    s.cycle key byte = (.ok (), s.next key byte) := by
  obtain ⟨hr, hi⟩ := Option.or_eq_none_iff.mp h
  have he : (Instruction.decode s.word).execute key byte s = _ :=
    Instruction.execute_of_none hi
  simp only [cycle, fetch_of_none hr, he]
  rfl

end State

namespace Machine

variable {m m' : Machine}

theorem step_of_fault (h : m.state.fault? = some fault) : m.step byte = (.error fault, m) := by
  simp only [step, State.cycle_of_fault h]

theorem step_of_none (h : m.state.fault? = none) :
    m.step byte = (.ok (), { m with state := m.state.next m.key byte }) := by
  simp only [step, State.cycle_of_none h]

/-- A step fails exactly if the state has a fault, and then the machine is as before. -/
theorem step_eq_error_iff :
    m.step byte = (.error fault, m') ↔ m.state.fault? = some fault ∧ m' = m := by
  cases h : m.state.fault? with
  | none => simp [step_of_none h]
  | some f => simp [step_of_fault h, eq_comm]

theorem step_eq_ok_iff :
    m.step byte = (.ok (), m') ↔
      m.state.fault? = none ∧ m' = { m with state := m.state.next m.key byte } := by
  cases h : m.state.fault? with
  | none => simp [step_of_none h, eq_comm]
  | some f => simp [step_of_fault h]

end Machine

end HexConsole
