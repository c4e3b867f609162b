import HexConsole.Guarded.Basic
import HexConsole.Instruction.Raw
import HexConsole.Machine.Step

/-! # The guarded machine

The machine once more, on raw instructions and with a guard before everything that can go wrong:
the look-up of a register, of a pixel and of a byte, every range of memory, of the registers and
of the buffer that sprites are copied to, every copy, and every number that does not wrap around.
A fault is a result here like any other.
-/

namespace HexConsole.Guarded

/-- The size of the words that count bytes, rows and columns; no console has smaller ones. -/
abbrev countSize : Nat := UInt32.size

/-- Rows of the buffer that a sprite is copied to before it is drawn. -/
abbrev spriteRoom : Nat := 15

def reg (s : State) (x : Nat) : Guarded UInt8 := do
  return s.reg (← index 16 x)

def setReg (s : State) (x : Nat) (byte : UInt8) : Guarded State := do
  return s.setReg (← index 16 x) byte

def setFlag (s : State) (flag : Bool) : Guarded State :=
  setReg s flagRegister.val (if flag then 1 else 0)

/-- The values of the registers up to `x`. -/
def regsUpTo (s : State) (x : Nat) : Guarded (List UInt8) := do
  slice s.registers 0 (← sum countSize x 1)

def toggle (s : Screen) (x y : Nat) : Guarded (Bool × Screen) := do
  let row ← index screenHeight (y % screenHeight)
  let column ← index screenWidth (x % screenWidth)
  let pixel := s.cells[row][column]
  return (pixel == 1, ⟨s.cells.set row (s.cells[row].set column (pixel ^^^ 1))⟩)

/-- The pixel under one bit of a row is inverted if the bit is set. -/
def drawBit (x y row : Nat) (byte : UInt8) (drawn : Bool × Screen) (bit : Nat) :
    Guarded (Bool × Screen) := do
  let shifted ← shiftedRight byte (← difference 7 bit)
  if shifted &&& 1 = 1 then
    let (lit, s) ← toggle drawn.2 (← sum countSize x bit) (← sum countSize y row)
    return (drawn.1 || lit, s)
  else return drawn

/-- The rows of a sprite are drawn, the first of them at a distance below the corner. -/
def drawRows (x y : Nat) (drawn : Bool × Screen) (row : Nat) :
    List UInt8 → Guarded (Bool × Screen)
  | [] => return drawn
  | byte :: sprite => do
    let drawn ← (List.range 8).foldlM (drawBit x y row byte) drawn
    drawRows x y drawn (← sum countSize row 1) sprite

/-- The end of a range, which is a fault beyond the end of memory. -/
def checkedEnd (s : State) (address len : Nat) : Guarded (Except Fault Nat) := do
  let stop ← sum countSize address len
  if stop > memorySize then return .error (.addressOutOfRange (← difference stop 1) s.pc)
  else return .ok stop

def readBytes (s : State) (address len : Nat) : Guarded (Except Fault (List UInt8)) := do
  match ← checkedEnd s address len with
  | .error fault => return .error fault
  | .ok stop => return .ok (← slice s.memory.bytes address stop)

def add (s : State) (x y : Nat) : Guarded State := do
  let a ← reg s x
  let b ← reg s y
  setFlag (← setReg s x (a + b)) (a.toNat + b.toNat > 255)

def subtract (s : State) (x minuend subtrahend : Nat) : Guarded State := do
  let a ← reg s minuend
  let b ← reg s subtrahend
  setFlag (← setReg s x (a - b)) (a > b)

def shiftRight (s : State) (x : Nat) : Guarded State := do
  let old ← reg s x
  setReg (← setReg s x (old >>> 1)) flagRegister.val (old &&& 1)

def shiftLeft (s : State) (x : Nat) : Guarded State := do
  let old ← reg s x
  setReg (← setReg s x (old <<< 1)) flagRegister.val (old >>> 7)

/-- The index register is set to the glyph of a digit, without wrapping around. -/
def pointGlyph (s : State) (x : Nat) : Guarded State := do
  let address ← sum UInt16.size fontStart (← product UInt16.size (← reg s x).toNat glyphSize)
  return { s with index := UInt16.ofNat address }

def draw (s : State) (x y : Nat) (height : UInt8) : Guarded (Outcome Flow) := do
  let column ← reg s x
  let row ← reg s y
  let len := height.toNat
  within spriteRoom 0 len
  match ← readBytes s s.index.toNat len with
  | .error fault => return (.error fault, s)
  | .ok bytes =>
    let buffer ← replace (.replicate spriteRoom 0) 0 len bytes
    let (hit, screen) ←
      drawRows column.toNat row.toNat (false, s.screen) 0 (← slice buffer 0 len)
    return (.ok .next, ← setFlag { s with screen } hit)

def awaitKey (s : State) (x : Nat) (key : Key) : Guarded (Outcome Flow) := do
  if key.pressed then return (.ok .next, ← setReg s x key.code) else return (.ok .wait, s)

/-- So many bytes go to memory at the index register. -/
def store (s : State) (len : Nat) (bytes : Guarded (List UInt8)) : Guarded (Outcome Flow) := do
  let start := s.index.toNat
  match ← checkedEnd s start len with
  | .error fault => return (.error fault, s)
  | .ok stop =>
    within memorySize start stop
    let written ← replace s.memory.bytes start stop (← bytes)
    return (.ok .next, { s with memory := ⟨written⟩ })

def load (s : State) (x : Nat) : Guarded (Outcome Flow) := do
  let count ← sum countSize x 1
  within 16 0 count
  match ← readBytes s s.index.toNat count with
  | .error fault => return (.error fault, s)
  | .ok bytes => return (.ok .next, { s with registers := ← replace s.registers 0 count bytes })

/-- The effect of a raw instruction, given the key it sees and the byte it would draw. -/
def perform (key : Key) (byte : UInt8) (s : State) : RawInstruction → Guarded (Outcome Flow)
  | .native _ => return (.ok .next, s)
  | .clearScreen => return (.ok .next, { s with screen := .dark })
  -- The stack is a list, and taking from it or adding to it needs no guard.
  | .leave => return s.leave
  | .jump addr => return (.ok (.jump addr), s)
  | .call addr => return s.call addr
  | .skipEqByte x value => return (.ok (.skipIf ((← reg s x) == value)), s)
  | .skipNeByte x value => return (.ok (.skipIf ((← reg s x) != value)), s)
  | .skipEq x y => return (.ok (.skipIf ((← reg s x) == (← reg s y))), s)
  | .setByte x value => return (.ok .next, ← setReg s x value)
  | .addByte x value => return (.ok .next, ← setReg s x ((← reg s x) + value))
  | .copy x y => return (.ok .next, ← setReg s x (← reg s y))
  | .or x y => return (.ok .next, ← setReg s x ((← reg s x) ||| (← reg s y)))
  | .and x y => return (.ok .next, ← setReg s x ((← reg s x) &&& (← reg s y)))
  | .xor x y => return (.ok .next, ← setReg s x ((← reg s x) ^^^ (← reg s y)))
  | .add x y => return (.ok .next, ← add s x y)
  | .sub x y => return (.ok .next, ← subtract s x x y)
  | .shiftRight x => return (.ok .next, ← shiftRight s x)
  | .subFrom x y => return (.ok .next, ← subtract s x y x)
  | .shiftLeft x => return (.ok .next, ← shiftLeft s x)
  | .skipNe x y => return (.ok (.skipIf ((← reg s x) != (← reg s y))), s)
  | .setIndex addr => return (.ok .next, { s with index := addr })
  | .jumpOffset addr => return (.ok (.jump (addr + (← reg s 0).toUInt16)), s)
  | .random x mask => return (.ok .next, ← setReg s x (byte &&& mask))
  | .draw x y height => draw s x y height
  | .skipKeyDown x => return (.ok (.skipIf (key.isDown (← reg s x))), s)
  | .skipKeyUp x => return (.ok (.skipIf (!key.isDown (← reg s x))), s)
  | .readDelay x => return (.ok .next, ← setReg s x s.delay)
  | .awaitKey x => awaitKey s x key
  | .setDelay x => return (.ok .next, { s with delay := ← reg s x })
  | .setSound x => return (.ok .next, { s with sound := ← reg s x })
  | .addIndex x => return (.ok .next, { s with index := s.index + (← reg s x).toUInt16 })
  | .pointGlyph x => return (.ok .next, ← pointGlyph s x)
  | .storeDecimal x => do
    let digits := decimalDigits (← reg s x)
    store s digits.length (return digits)
  | .store x => do store s (← sum countSize x 1) (regsUpTo s x)
  | .load x => load s x
  | .unknown word => return (.error (.unknownOpcode word s.pc), s)

/-- The program counter that follows the execution of a raw instruction. -/
def execute (i : RawInstruction) (key : Key) (byte : UInt8) (s : State) :
    Guarded (Outcome UInt16) := do
  let (flow, s) ← perform key byte s i
  return (flow.map fun flow => flow.target s.pc, s)

/-- The word at the program counter. -/
def fetch (s : State) : Guarded (Except Fault UInt16) := do
  match ← readBytes s s.pc.toNat instructionSize with
  | .error fault => return .error fault
  | .ok bytes => return .ok (Opcode.ofBytes (← element bytes 0) (← element bytes 1))

def cycle (s : State) (key : Key) (byte : UInt8) : Guarded (Outcome Unit) := do
  match ← fetch s with
  | .error fault => return (.error fault, s)
  | .ok word =>
    match ← execute (RawInstruction.decode word) key byte s with
    | (.error fault, s) => return (.error fault, s)
    | (.ok pc, s) => return (.ok (), { s with pc })

/-- A step of the machine, broken off where it goes wrong. -/
def step (m : Machine) (byte : UInt8) : Guarded (Except Fault Unit × Machine) := do
  let (result, state) ← cycle m.state m.key byte
  return (result, { m with state })

end HexConsole.Guarded
