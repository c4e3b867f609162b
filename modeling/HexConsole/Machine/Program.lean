import HexConsole.Fault
import HexConsole.Log
import HexConsole.Machine.Basic

/-! # Programs

A program comes from a source that may break before its end. A program that was read to its
end replaces whatever the machine held before; a broken source leaves the machine alone.
Bytes that do not fit into memory are dropped with a warning.
-/

namespace HexConsole

/-- A source of bytes, which breaks after some of them or gives them all. -/
inductive Source where
  | whole (bytes : List UInt8)
  | broken (bytes : List UInt8) (reason : String)
  deriving DecidableEq, Repr

/-- The bytes of a program that are loaded. -/
def loadedSize (program : List UInt8) : Nat := min program.length programRoom

/-- What is logged when a program is loaded. -/
def Source.log : Source → List Entry
  | broken .. => []
  | whole bytes =>
    let warning := "program is " ++ toString bytes.length ++ " bytes but only "
      ++ toString programRoom ++ " fit in memory; truncating"
    let loaded := "loaded " ++ toString (loadedSize bytes) ++ " byte program at "
      ++ Text.Hex.marked 3 programStart
    if bytes.length > programRoom then [⟨.warn, warning⟩, ⟨.debug, loaded⟩]
    else [⟨.debug, loaded⟩]

namespace Machine

/-- A machine that is about to run a program. -/
def ofProgram (program : List UInt8) : Machine :=
  ⟨{ State.initial with memory := .ofProgram program }, .released⟩

/-- Everything is put back to what it is without a program. -/
def reset (_ : Machine) : Machine := initial

/-- The program of a source is loaded; the answer is the number of its loaded bytes. -/
def load (m : Machine) : Source → Except Fault Nat × Machine
  | .whole bytes => (.ok (loadedSize bytes), ofProgram bytes)
  | .broken _ reason => (.error (.unreadable reason), m)

end Machine

end HexConsole
