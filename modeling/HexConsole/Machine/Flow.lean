import HexConsole.Layout

/-! # Flow of control

Every instruction ends by saying where the machine goes on: with the next instruction, past
it, at some address, or at the same instruction once more. Addresses are words and wrap
around.
-/

namespace HexConsole

/-- Where the machine goes on after an instruction. -/
inductive Flow where
  | next
  | skip
  | jump (addr : UInt16)
  | wait
  deriving DecidableEq, Repr

namespace Flow

/-- The next instruction is skipped if something holds. -/
def skipIf (condition : Bool) : Flow := if condition then skip else next

/-- The program counter after an instruction at `pc`. -/
def target (flow : Flow) (pc : UInt16) : UInt16 :=
  match flow with
  | next => pc + UInt16.ofNat instructionSize
  | skip => pc + UInt16.ofNat (2 * instructionSize)
  | jump addr => addr
  | wait => pc

end Flow

end HexConsole
