import HexConsole.Guarded.Machine
import HexConsole.Machine.Program

/-! # Guarded loading

Loading once more, in the place of what the machine held before: the machine is reset, the font
is copied to memory and the program behind it, each to a range that is looked at before.
-/

namespace HexConsole.Guarded

/-- The state of a console without a program, whose memory was cleared and given the font. -/
def initialState : Guarded State := do
  let stop ← sum countSize fontStart font.length
  let written ← replace (.replicate memorySize 0) fontStart stop font
  return { State.initial with memory := ⟨written⟩ }

/-- Both parts of the machine are replaced. -/
def reset (m : Machine) : Guarded Machine := do
  return { m with state := ← initialState, key := .released }

/-- The bytes of a program, as many as there is room for, go to the memory of a machine. -/
def copyProgram (m : Machine) (program : List UInt8) : Guarded (Nat × Machine) := do
  let room ← difference memorySize programStart
  let len := min program.length room
  let stop ← sum countSize programStart len
  within program.length 0 len
  let written ← replace m.state.memory.bytes programStart stop (program.take len)
  return (len, { m with state := { m.state with memory := ⟨written⟩ } })

/-- The source is read to its end before the machine is touched. -/
def loadSource (m : Machine) : Source → Guarded (Except Fault Nat × Machine)
  | .broken _ reason => return (.error (.unreadable reason), m)
  | .whole bytes => do
    let (len, m) ← copyProgram (← reset m) bytes
    return (.ok len, m)

end HexConsole.Guarded
