import HexConsole.Fault
import Mathlib.Data.List.Basic

/-! # Messages of faults

The first letters of a message tell the kind of its fault, and a number in it ends where something
stands that is not a digit. So a message can be read back, however long its numbers are and
whatever reason it ends with, and faults with the same message are the same.
-/

namespace HexConsole.Fault

open Text

/-- What follows an opening. -/
def behind? (opening : String) (cs : List Char) : Option (List Char) :=
  opening.toList.isPrefixOf? cs

/-- The number that is marked as hexadecimal behind an opening, and what follows it. -/
def numberBehind? (opening : String) (cs : List Char) : Option (Nat × List Char) :=
  (behind? (opening ++ "0x") cs).map Hex.scan

/-- The fault of an unknown opcode. -/
def opcodeFault? (cs : List Char) : Option Fault := do
  let (opcode, cs) ← numberBehind? "unknown opcode " cs
  let (pc, _) ← numberBehind? " at " cs
  return .unknownOpcode (.ofNat opcode) (.ofNat pc)

/-- The fault of an access to memory. -/
def addressFault? (cs : List Char) : Option Fault := do
  let (address, cs) ← numberBehind? "memory access at " cs
  let (pc, _) ← numberBehind? " is out of range (pc " cs
  return .addressOutOfRange address (.ofNat pc)

/-- A fault of the stack, of which only the program counter is told. -/
def stackFault? (fault : UInt16 → Fault) (opening : String) (cs : List Char) : Option Fault := do
  let (pc, _) ← numberBehind? opening cs
  return fault (.ofNat pc)

/-- A fault with a reason, which is all that follows its opening. -/
def reasonFault? (fault : String → Fault) (opening : String) (cs : List Char) : Option Fault := do
  let reason ← behind? opening cs
  return fault (.ofList reason)

/-- The fault that a message reports. -/
def ofMessage? (message : String) : Option Fault :=
  let cs := message.toList
  match cs.take 3 with
  | ['u', 'n', 'k'] => opcodeFault? cs
  | ['r', 'e', 't'] => stackFault? .stackUnderflow "return with an empty call stack at " cs
  | ['c', 'a', 'l'] => stackFault? .stackOverflow "call stack overflow at " cs
  | ['m', 'e', 'm'] => addressFault? cs
  | ['u', 'n', 'a'] => reasonFault? .unreadable "unable to load program: " cs
  | ['i', 'n', 'v'] => reasonFault? .invalidRates "invalid settings: " cs
  | ['a', ' ', 't'] => some .poisoned
  | _ => none

theorem behind?_append (opening text : String) :
    behind? opening (opening ++ text).toList = some text.toList := by
  rw [behind?, String.toList_append]
  exact List.isPrefixOf?_eq_some_iff_append_eq.mpr rfl

/-- A number is read back if what follows it does not begin with a digit. -/
theorem numberBehind?_append (opening : String) (width n : Nat) {text : String}
    (h : ∀ c ∈ text.toList.head?, Hex.isDigit c = false) :
    numberBehind? opening (opening ++ (Hex.marked width n ++ text)).toList =
      some (n, text.toList) := by
  rw [numberBehind?, Hex.marked, String.append_assoc, ← String.append_assoc, behind?_append,
    Option.map_some, String.toList_append, Hex.text, String.toList_ofList,
    Hex.scan_padded_append width n h]

theorem numberBehind?_append_end (opening : String) (width n : Nat) :
    numberBehind? opening (opening ++ Hex.marked width n).toList = some (n, []) := by
  have hs : ∀ c ∈ "".toList.head?, Hex.isDigit c = false := by simp
  have h := numberBehind?_append opening width n hs
  rwa [String.append_empty] at h

theorem opcodeFault?_append (opcode pc : UInt16) :
    opcodeFault? ("unknown opcode " ++
      (Hex.marked 4 opcode.toNat ++ (" at " ++ Hex.marked 3 pc.toNat))).toList =
      some (unknownOpcode opcode pc) := by
  have hs : ∀ c ∈ (" at " ++ Hex.marked 3 pc.toNat).toList.head?, Hex.isDigit c = false := by
    simp [Hex.isDigit]
  rw [opcodeFault?, numberBehind?_append _ _ _ hs, Option.bind_eq_bind, Option.bind_some]
  dsimp only
  rw [numberBehind?_append_end]
  simp

theorem addressFault?_append (address : Nat) (pc : UInt16) :
    addressFault? ("memory access at " ++ (Hex.marked 4 address ++
      (" is out of range (pc " ++ (Hex.marked 3 pc.toNat ++ ")")))).toList =
      some (addressOutOfRange address pc) := by
  have hs : ∀ c ∈ (" is out of range (pc " ++ (Hex.marked 3 pc.toNat ++ ")")).toList.head?,
      Hex.isDigit c = false := by
    simp [Hex.isDigit]
  have he : ∀ c ∈ ")".toList.head?, Hex.isDigit c = false := by simp [Hex.isDigit]
  rw [addressFault?, numberBehind?_append _ _ _ hs, Option.bind_eq_bind, Option.bind_some]
  dsimp only
  rw [numberBehind?_append _ _ _ he]
  simp

theorem stackFault?_append (fault : UInt16 → Fault) (opening : String) (pc : UInt16) :
    stackFault? fault opening (opening ++ Hex.marked 3 pc.toNat).toList = some (fault pc) := by
  rw [stackFault?, numberBehind?_append_end]
  simp

theorem reasonFault?_append (fault : String → Fault) (opening reason : String) :
    reasonFault? fault opening (opening ++ reason).toList = some (fault reason) := by
  rw [reasonFault?, behind?_append]
  simp

/-- A message is read back as its fault. -/
theorem ofMessage?_message (f : Fault) : ofMessage? f.message = some f := by
  cases f with
  | unknownOpcode opcode pc =>
    have hm : (unknownOpcode opcode pc).message =
      "unknown opcode " ++ Hex.marked 4 opcode.toNat ++ " at " ++ Hex.marked 3 pc.toNat := rfl
    rw [hm, String.append_assoc, String.append_assoc, ofMessage?, opcodeFault?_append]
    simp
  | stackUnderflow pc =>
    have hm : (stackUnderflow pc).message =
      "return with an empty call stack at " ++ Hex.marked 3 pc.toNat := rfl
    rw [hm, ofMessage?, stackFault?_append]
    simp
  | stackOverflow pc =>
    have hm : (stackOverflow pc).message =
      "call stack overflow at " ++ Hex.marked 3 pc.toNat := rfl
    rw [hm, ofMessage?, stackFault?_append]
    simp
  | addressOutOfRange address pc =>
    have hm : (addressOutOfRange address pc).message =
      "memory access at " ++ Hex.marked 4 address ++ " is out of range (pc " ++
        Hex.marked 3 pc.toNat ++ ")" := rfl
    rw [hm, String.append_assoc, String.append_assoc, String.append_assoc, ofMessage?,
      addressFault?_append]
    simp
  | unreadable reason =>
    have hm : (unreadable reason).message = "unable to load program: " ++ reason := rfl
    rw [hm, ofMessage?, reasonFault?_append]
    simp
  | invalidRates reason =>
    have hm : (invalidRates reason).message = "invalid settings: " ++ reason := rfl
    rw [hm, ofMessage?, reasonFault?_append]
    simp
  | poisoned => rfl

example : ofMessage? "memory access at 0x12345 is out of range (pc 0x1FFF)" =
    some (.addressOutOfRange 0x12345 0x1FFF) := by decide

/-- Two faults have the same message only if they are of the same kind, at the same addresses and
for the same reason. -/
theorem message_eq_iff {f g : Fault} : f.message = g.message ↔ f = g := by
  constructor
  · intro h
    have hf := ofMessage?_message f
    rw [h, ofMessage?_message] at hf
    exact (Option.some.inj hf).symm
  · rintro rfl
    rfl

end HexConsole.Fault
