import HexConsole.Text.Hex

/-! # Faults

A fault is a reason for which the console stops or does not start. A fault of an
instruction names the instruction's address and is fatal, and so is the loss of the machine
to a crash; a program that cannot be read and rates that make no sense are not.
-/

namespace HexConsole

/-- What can go wrong. -/
inductive Fault where
  | unknownOpcode (opcode pc : UInt16)
  | stackUnderflow (pc : UInt16)
  | stackOverflow (pc : UInt16)
  | addressOutOfRange (address : Nat) (pc : UInt16)
  | unreadable (reason : String)
  | invalidRates (reason : String)
  | poisoned
  deriving DecidableEq, Repr

namespace Fault

/-- The console cannot go on after a fatal fault. -/
def isFatal : Fault → Bool
  | unreadable _ | invalidRates _ => false
  | _ => true

/-- An address of the program counter's width. -/
private def pcText (pc : UInt16) : String := Text.Hex.marked 3 pc.toNat

/-- The sentence that reports a fault. -/
def message : Fault → String
  | unknownOpcode opcode pc =>
    "unknown opcode " ++ Text.Hex.marked 4 opcode.toNat ++ " at " ++ pcText pc
  | stackUnderflow pc => "return with an empty call stack at " ++ pcText pc
  | stackOverflow pc => "call stack overflow at " ++ pcText pc
  | addressOutOfRange address pc =>
    "memory access at " ++ Text.Hex.marked 4 address ++ " is out of range (pc "
      ++ pcText pc ++ ")"
  | unreadable reason => "unable to load program: " ++ reason
  | invalidRates reason => "invalid settings: " ++ reason
  | poisoned => "a timeline panicked while holding the machine"

end Fault

end HexConsole
