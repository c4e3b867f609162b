import HexConsole.Keypad
import HexConsole.Memory
import HexConsole.Screen.Sprite

/-! # The machine

A state holds what programs can change: registers, the index register, the program counter,
the stack, two timers, memory and the screen. The machine is a state together with the key
that was reported last.
-/

namespace HexConsole

/-- What a program can change; the latest call is the head of the stack. -/
structure State where
  registers : Vector UInt8 16
  index : UInt16
  pc : UInt16
  stack : List UInt16
  delay : UInt8
  sound : UInt8
  memory : Memory
  screen : Screen
  deriving DecidableEq

namespace State

/-- The state of a console without a program. -/
def initial : State where
  registers := Vector.replicate _ 0
  index := 0
  pc := UInt16.ofNat programStart
  stack := []
  delay := 0
  sound := 0
  memory := .initial
  screen := .dark

/-- The value of a register. -/
def reg (s : State) (x : Register) : UInt8 := s.registers[x]

/-- A register is given a value. -/
def setReg (s : State) (x : Register) (byte : UInt8) : State :=
  { s with registers := s.registers.set x byte }

/-- The flag register says whether something holds. -/
def setFlag (s : State) (flag : Bool) : State :=
  s.setReg flagRegister (if flag then 1 else 0)

/-- The first registers are given the values of a list, as far as both go. -/
def setRegs (s : State) (bytes : List UInt8) : State :=
  { s with registers := Vector.ofFn fun r => bytes.getD r.val s.registers[r] }

/-- The values of the registers up to `x`. -/
def regsUpTo (s : State) (x : Register) : List UInt8 :=
  s.registers.toList.take (x.val + 1)

theorem reg_setReg (s : State) (x y : Register) (byte : UInt8) :
    (s.setReg x byte).reg y = if y = x then byte else s.reg y := by
  by_cases h : y = x
  · simp [reg, setReg, h]
  · have h' : x.val ≠ y.val := fun e => h (Fin.ext e.symm)
    simp [reg, setReg, h, Vector.getElem_set_ne, h']

theorem reg_setReg_self (s : State) (x : Register) (byte : UInt8) :
    (s.setReg x byte).reg x = byte :=
  (reg_setReg s x x byte).trans (if_pos rfl)

theorem reg_setReg_of_ne {s : State} {x r : Register} {byte : UInt8} (h : r ≠ x) :
    (s.setReg x byte).reg r = s.reg r :=
  (reg_setReg s x r byte).trans (if_neg h)

end State

/-- A state and the key that was reported last. -/
structure Machine where
  state : State
  key : Key
  deriving DecidableEq

namespace Machine

/-- A machine without a program. -/
def initial : Machine := ⟨.initial, .released⟩

/-- The key that instructions see from now on is reported. -/
def setKey (m : Machine) (key : Key) : Machine := { m with key }

end Machine

end HexConsole
