import HexConsole.Instruction.Decode
import HexConsole.Log
import HexConsole.Machine.Execute

/-! # Steps of the machine

A step fetches the word at the program counter, decodes it and executes it. A tick counts
both timers down and says whether the sound timer ran out. Steps and ticks are the only ways
in which a running machine changes, besides reports of keys.
-/

namespace HexConsole

namespace State

/-- The word at the program counter. -/
def fetch (s : State) : Except Fault UInt16 :=
  (s.readBytes s.pc.toNat instructionSize).map fun bytes =>
    Opcode.ofBytes (bytes.getD 0 0) (bytes.getD 1 0)

/-- One instruction is fetched, decoded and executed, and the machine goes on. -/
def cycle (s : State) (key : Key) (byte : UInt8) : Outcome Unit :=
  match s.fetch with
  | .error fault => (.error fault, s)
  | .ok word =>
    match (Instruction.decode word).execute key byte s with
    | (.error fault, s) => (.error fault, s)
    | (.ok pc, s) => (.ok (), { s with pc })

/-- The line that records a word about to be executed. -/
def traceLine (s : State) (word : UInt16) : String :=
  let registers := ", ".intercalate (s.registers.toList.map fun v => Text.Hex.text 2 v.toNat)
  Text.Hex.text 4 word.toNat ++ " pc" ++ Text.Hex.text 3 s.pc.toNat
    ++ " i" ++ Text.Hex.text 3 s.index.toNat ++ " v[" ++ registers ++ "]"

end State

/-- A timer falls by one and stays at zero. -/
def countDown (timer : UInt8) : UInt8 := if timer = 0 then 0 else timer - 1

namespace Machine

/-- One instruction is executed with the key of the machine and a byte to draw. -/
def step (m : Machine) (byte : UInt8) : Except Fault Unit × Machine :=
  let (result, state) := m.state.cycle m.key byte
  (result, { m with state })

/-- What a step of the machine logs: nothing unless a word can be fetched. -/
def stepLog (m : Machine) : List Entry :=
  match m.state.fetch with
  | .ok word => [⟨.trace, m.state.traceLine word⟩]
  | .error _ => []

/-- The timers are counted down; the answer is whether the sound timer ran out. -/
def tick (m : Machine) : Bool × Machine :=
  (m.state.sound == 1,
    { m with state := { m.state with
      delay := countDown m.state.delay, sound := countDown m.state.sound } })

end Machine

end HexConsole
