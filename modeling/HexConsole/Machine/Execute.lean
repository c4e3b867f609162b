import HexConsole.Fault
import HexConsole.Instruction.Basic
import HexConsole.Machine.Basic
import HexConsole.Machine.Flow

/-! # Execution

Executing an instruction changes the state and says where the machine goes on. It can fail:
on an unknown word, on the end of the stack and on memory that is not there. The state at
the failure is part of the outcome, so that it can be compared with the state before.
-/

namespace HexConsole

/-- A value or a fault, and the state then. -/
abbrev Outcome (α : Type) := Except Fault α × State

namespace State

/-- The fault of a range that does not end at or below the end of memory. -/
def rangeFault? (s : State) (address len : Nat) : Option Fault :=
  if address + len > memorySize then some (.addressOutOfRange (address + len - 1) s.pc)
  else none

/-- The bytes of a range of memory. -/
def readBytes (s : State) (address len : Nat) : Except Fault (List UInt8) :=
  match s.rangeFault? address len with
  | some fault => .error fault
  | none => .ok (s.memory.slice address len)

/-- The bytes of a range of memory are replaced. -/
def writeBytes (s : State) (address : Nat) (bytes : List UInt8) : Outcome Unit :=
  match s.rangeFault? address bytes.length with
  | some fault => (.error fault, s)
  | none => (.ok (), { s with memory := s.memory.write address bytes })

/-- The latest call is left; the machine goes on behind it. -/
def leave (s : State) : Outcome Flow :=
  match s.stack with
  | [] => (.error (.stackUnderflow s.pc), s)
  | caller :: stack =>
    (.ok (.jump (caller + UInt16.ofNat instructionSize)), { s with stack })

/-- The machine goes on in a subroutine and remembers where it was called. -/
def call (s : State) (addr : UInt16) : Outcome Flow :=
  if s.stack.length = stackDepth then (.error (.stackOverflow s.pc), s)
  else (.ok (.jump addr), { s with stack := s.pc :: s.stack })

/-- The sum of two registers goes to the first, its carry to the flag. -/
def add (s : State) (x y : Register) : State :=
  (s.setReg x (s.reg x + s.reg y)).setFlag ((s.reg x).toNat + (s.reg y).toNat > 255)

/-- A difference goes to a register; the flag says whether it is above zero. -/
def subtract (s : State) (x minuend subtrahend : Register) : State :=
  (s.setReg x (s.reg minuend - s.reg subtrahend)).setFlag (s.reg minuend > s.reg subtrahend)

/-- Half of a register, with the lost bit in the flag. -/
def shiftRight (s : State) (x : Register) : State :=
  (s.setReg x (s.reg x >>> 1)).setReg flagRegister (s.reg x &&& 1)

/-- Twice a register, with the lost bit in the flag. -/
def shiftLeft (s : State) (x : Register) : State :=
  (s.setReg x (s.reg x <<< 1)).setReg flagRegister (s.reg x >>> 7)

/-- A sprite is drawn; the flag says whether it hit a lit pixel. -/
def drawSprite (s : State) (x y : Register) (sprite : List UInt8) : State :=
  let (hit, screen) := s.screen.drawSprite (s.reg x).toNat (s.reg y).toNat sprite
  { s with screen }.setFlag hit

/-- The sprite at the index register is drawn. -/
def draw (s : State) (x y : Register) (height : Fin 16) : Outcome Flow :=
  match s.readBytes s.index.toNat height with
  | .error fault => (.error fault, s)
  | .ok sprite => (.ok .next, s.drawSprite x y sprite)

/-- The code of the pressed key goes to a register; without one the machine waits. -/
def awaitKey (s : State) (x : Register) (key : Key) : Outcome Flow :=
  if key.pressed then (.ok .next, s.setReg x key.code) else (.ok .wait, s)

/-- Bytes go to memory at the index register. -/
def store (s : State) (bytes : List UInt8) : Outcome Flow :=
  match s.writeBytes s.index.toNat bytes with
  | (.error fault, s) => (.error fault, s)
  | (.ok (), s) => (.ok .next, s)

/-- The registers up to `x` come from memory at the index register. -/
def load (s : State) (x : Register) : Outcome Flow :=
  match s.readBytes s.index.toNat (x.val + 1) with
  | .error fault => (.error fault, s)
  | .ok bytes => (.ok .next, s.setRegs bytes)

end State

/-- The decimal digits of a byte. -/
def decimalDigits (byte : UInt8) : List UInt8 := [byte / 100, byte / 10 % 10, byte % 10]

namespace Instruction

/-- The effect of an instruction, given the key it sees and the byte it would draw. -/
def perform (key : Key) (byte : UInt8) (s : State) : Instruction → Outcome Flow
  | native _ => (.ok .next, s)
  | clearScreen => (.ok .next, { s with screen := .dark })
  | leave => s.leave
  | jump addr => (.ok (.jump addr), s)
  | call addr => s.call addr
  | skipEqByte x value => (.ok (.skipIf (s.reg x == value)), s)
  | skipNeByte x value => (.ok (.skipIf (s.reg x != value)), s)
  | skipEq x y => (.ok (.skipIf (s.reg x == s.reg y)), s)
  | setByte x value => (.ok .next, s.setReg x value)
  | addByte x value => (.ok .next, s.setReg x (s.reg x + value))
  | copy x y => (.ok .next, s.setReg x (s.reg y))
  | or x y => (.ok .next, s.setReg x (s.reg x ||| s.reg y))
  | and x y => (.ok .next, s.setReg x (s.reg x &&& s.reg y))
  | xor x y => (.ok .next, s.setReg x (s.reg x ^^^ s.reg y))
  | add x y => (.ok .next, s.add x y)
  | sub x y => (.ok .next, s.subtract x x y)
  | shiftRight x => (.ok .next, s.shiftRight x)
  | subFrom x y => (.ok .next, s.subtract x y x)
  | shiftLeft x => (.ok .next, s.shiftLeft x)
  | skipNe x y => (.ok (.skipIf (s.reg x != s.reg y)), s)
  | setIndex addr => (.ok .next, { s with index := addr })
  | jumpOffset addr => (.ok (.jump (addr + (s.reg 0).toUInt16)), s)
  | random x mask => (.ok .next, s.setReg x (byte &&& mask))
  | draw x y height => s.draw x y height
  | skipKeyDown x => (.ok (.skipIf (key.isDown (s.reg x))), s)
  | skipKeyUp x => (.ok (.skipIf (!key.isDown (s.reg x))), s)
  | readDelay x => (.ok .next, s.setReg x s.delay)
  | awaitKey x => s.awaitKey x key
  | setDelay x => (.ok .next, { s with delay := s.reg x })
  | setSound x => (.ok .next, { s with sound := s.reg x })
  | addIndex x => (.ok .next, { s with index := s.index + (s.reg x).toUInt16 })
  | pointGlyph x =>
    (.ok .next, { s with index := UInt16.ofNat (fontStart + (s.reg x).toNat * glyphSize) })
  | storeDecimal x => s.store (decimalDigits (s.reg x))
  | store x => s.store (s.regsUpTo x)
  | load x => s.load x
  | unknown word => (.error (.unknownOpcode word s.pc), s)

/-- The program counter that follows the execution of an instruction; it is not stored. -/
def execute (i : Instruction) (key : Key) (byte : UInt8) (s : State) : Outcome UInt16 :=
  let (flow, s) := i.perform key byte s
  (flow.map fun flow => flow.target s.pc, s)

end Instruction

end HexConsole
