import HexConsole.Font

/-! # Memory

Memory holds 4096 bytes. A range is inside memory if it ends at or below the end, and only
such ranges are read and written. A write changes the bytes of its range and no others.
-/

namespace HexConsole

/-- The bytes of memory. -/
structure Memory where
  bytes : Vector UInt8 memorySize
  deriving DecidableEq

namespace Memory

/-- All bytes are zero. -/
def blank : Memory := ⟨Vector.replicate _ 0⟩

/-- The byte at an address; there is nothing but zeros beyond the end. -/
def get (m : Memory) (address : Nat) : UInt8 := m.bytes.toArray.getD address 0

/-- The byte at an address is replaced; an address beyond the end is ignored. -/
def set (m : Memory) (address : Nat) (byte : UInt8) : Memory :=
  ⟨m.bytes.setIfInBounds address byte⟩

/-- The bytes of a range. -/
def slice (m : Memory) (address len : Nat) : List UInt8 :=
  (List.range len).map fun k => m.get (address + k)

/-- The bytes from an address on are replaced by others. -/
def write (m : Memory) (address : Nat) : List UInt8 → Memory
  | [] => m
  | byte :: bytes => (m.set address byte).write (address + 1) bytes

/-- Memory as it is without a program: the font and zeros. -/
def initial : Memory := blank.write fontStart font

/-- Memory with a program at its start; what does not fit is dropped. -/
def ofProgram (program : List UInt8) : Memory :=
  initial.write programStart (program.take programRoom)

theorem get_blank (a : Nat) : blank.get a = 0 := by
  by_cases h : a < memorySize <;> simp [blank, get, h]

theorem get_set (m : Memory) (a b : Nat) (byte : UInt8) :
    (m.set a byte).get b = if b = a ∧ a < memorySize then byte else m.get b := by
  by_cases hb : b < memorySize
  · by_cases h : b = a
    · subst h
      simp [get, set, hb]
    · have h' : a ≠ b := fun e => h e.symm
      simp [get, set, hb, h, h']
  · have hn : ¬(b = a ∧ a < memorySize) := fun ⟨e, ha⟩ => hb (e ▸ ha)
    simp [get, set, hb, hn]

theorem get_write (m : Memory) (a : Nat) (bytes : List UInt8) (h : a + bytes.length ≤ memorySize)
    (b : Nat) :
    (m.write a bytes).get b = if a ≤ b then bytes.getD (b - a) (m.get b) else m.get b := by
  induction bytes generalizing m a with
  | nil => simp [write]
  | cons byte bytes ih =>
    simp only [List.length_cons] at h
    rw [write, ih _ _ (by omega), get_set]
    rcases Nat.lt_trichotomy b a with hlt | rfl | hlt
    · simp [Nat.not_le.2 hlt, show ¬ a + 1 ≤ b by omega, show b ≠ a by omega]
    · simp [show b < memorySize by omega, show ¬ b + 1 ≤ b by omega]
    · have hk : b - a = b - (a + 1) + 1 := by omega
      simp [show a + 1 ≤ b by omega, show a ≤ b by omega, show b ≠ a by omega, hk]

theorem get_initial (a : Nat) : initial.get a = font.getD a 0 := by
  rw [initial, get_write _ _ _ (by decide), get_blank]
  simp [fontStart]

/-- A loaded program follows its start, and the font stands below it. -/
theorem get_ofProgram (program : List UInt8) (a : Nat) :
    (ofProgram program).get a =
      if programStart ≤ a then (program.take programRoom).getD (a - programStart) 0
      else font.getD a 0 := by
  have hl : programStart + (program.take programRoom).length ≤ memorySize :=
    Nat.add_le_add_left (List.length_take_le ..) programStart
  rw [ofProgram, get_write _ _ _ hl, get_initial]
  split
  case isTrue h =>
    have hf : font.length ≤ a := Nat.le_trans (by decide) h
    simp [List.getElem?_eq_none hf]
  case isFalse => rfl

@[simp]
theorem length_slice (m : Memory) (a len : Nat) : (m.slice a len).length = len := by
  simp [slice]

end Memory

end HexConsole
