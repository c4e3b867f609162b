import HexConsole.Proofs.Glyphs

/-! # Access to memory

A range with at least one byte is refused exactly if one of its bytes is not in memory, and the
fault names such a byte. The range without bytes is a matter of its own: although nothing of it
is outside memory, it is refused if it lies behind the end, and the fault names the byte before it.
So does a sprite without rows fail if the index register points behind the end of memory.
-/

namespace HexConsole.State

open Opcode

variable {s : State} {address len : Nat} {fault : Fault} {x y : Register} {height : Fin 16}

/-- A byte of a range is not in memory. -/
def LeavesMemory (address len : Nat) : Prop := ∃ k < len, memorySize ≤ address + k

/-- Nothing of a range is read, and nothing is written. -/
structure AccessRefused (s : State) (address len : Nat) (fault : Fault) : Prop where
  read : s.readBytes address len = .error fault
  write : ∀ bytes : List UInt8, bytes.length = len →
    s.writeBytes address bytes = (.error fault, s)

/-- The bytes of a range are read, and as many others can be written in their place. -/
structure AccessGranted (s : State) (address len : Nat) : Prop where
  read : s.readBytes address len = .ok ((List.range len).map fun k => s.memory.get (address + k))
  write : ∀ bytes : List UInt8, bytes.length = len →
    ∃ t, s.writeBytes address bytes = (.ok (), t) ∧ t = { s with memory := t.memory } ∧
      (∀ k < len, some (t.memory.get (address + k)) = bytes[k]?) ∧
      ∀ a, a < address ∨ address + len ≤ a → t.memory.get a = s.memory.get a

/-- A range is refused exactly if a byte of it is not in memory, and such a byte is named. -/
structure AccessExact (s : State) (address len : Nat) : Prop where
  refused : LeavesMemory address len → ∃ k < len, memorySize ≤ address + k ∧
    s.AccessRefused address len (.addressOutOfRange (address + k) s.pc)
  granted : ¬LeavesMemory address len → s.AccessGranted address len

/-- A sprite is refused exactly if a row of it is not in memory. -/
structure DrawExact (s : State) (x y : Register) (height : Fin 16) : Prop where
  refused : LeavesMemory s.index.toNat height.val →
    ∃ fault, s.Refuses (ofDigits 0xD x y height.val) fault
  executes : ¬LeavesMemory s.index.toNat height.val →
    ∃ t, s.Executes (ofDigits 0xD x y height.val) t

theorem leavesMemory_iff : LeavesMemory address len ↔ 0 < len ∧ memorySize < address + len := by
  constructor
  · rintro ⟨k, hk, ha⟩
    omega
  · rintro ⟨hl, ha⟩
    exact ⟨len - 1, by omega, by omega⟩

/-- What does not leave memory ends in it, or is empty and lies behind its end. -/
theorem le_of_not_leavesMemory (h : 0 < len ∨ address ≤ memorySize)
    (hn : ¬LeavesMemory address len) : address + len ≤ memorySize := by
  rw [leavesMemory_iff] at hn
  omega

theorem accessRefused_of_lt (s : State) (h : memorySize < address + len) :
    s.AccessRefused address len (.addressOutOfRange (address + len - 1) s.pc) := by
  constructor
  · simp only [readBytes, rangeFault?_of_lt h]
  · rintro bytes rfl
    simp only [writeBytes, rangeFault?_of_lt h]

theorem accessGranted_of_le (s : State) (h : address + len ≤ memorySize) :
    s.AccessGranted address len := by
  have hf : s.rangeFault? address len = none := rangeFault?_eq_none_iff.mpr h
  constructor
  · simp only [readBytes, hf]
    rfl
  · rintro bytes rfl
    refine ⟨{ s with memory := s.memory.write address bytes }, ?_, rfl, ?_, ?_⟩
    · simp only [writeBytes, hf]
    · intro k hk
      rw [Memory.get_write_add h]
      simp [hk]
    · intro a ha
      exact Memory.get_write_of_outside h ha

theorem accessRefused_empty (s : State) (h : memorySize < address) :
    s.AccessRefused address 0 (.addressOutOfRange (address - 1) s.pc) := by
  have ha : memorySize < address + 0 := by rwa [Nat.add_zero]
  have hr := s.accessRefused_of_lt ha
  rwa [Nat.add_zero] at hr

theorem AccessGranted.not_refused (h : s.AccessGranted address len) :
    ¬s.AccessRefused address len fault := by
  intro hr
  have := h.read.symm.trans hr.read
  cases this

theorem accessExact_iff (s : State) (address len : Nat) :
    s.AccessExact address len ↔ 0 < len ∨ address ≤ memorySize := by
  constructor
  · intro h
    by_contra hn
    obtain ⟨rfl, ha⟩ : len = 0 ∧ memorySize < address := by omega
    have hl : ¬LeavesMemory address 0 := fun ⟨k, hk, _⟩ => Nat.not_lt_zero k hk
    exact (h.granted hl).not_refused (s.accessRefused_empty ha)
  · intro h
    constructor
    · intro hl
      obtain ⟨hlen, ha⟩ := leavesMemory_iff.mp hl
      have hk : address + (len - 1) = address + len - 1 := by omega
      refine ⟨len - 1, by omega, by omega, ?_⟩
      rw [hk]
      exact s.accessRefused_of_lt ha
    · intro hl
      exact s.accessGranted_of_le (le_of_not_leavesMemory h hl)

theorem refuses_draw (s : State) (x y : Register) (h : memorySize < s.index.toNat + height.val) :
    s.Refuses (ofDigits 0xD x y height.val)
      (.addressOutOfRange (s.index.toNat + height.val - 1) s.pc) :=
  refuses_of_decode (Instruction.decode_encode (.draw x y height) trivial) (rangeFault?_of_lt h)

theorem refuses_draw_empty (s : State) (x y : Register) (h : memorySize < s.index.toNat) :
    s.Refuses (ofDigits 0xD x y 0) (.addressOutOfRange (s.index.toNat - 1) s.pc) := by
  have ha : memorySize < s.index.toNat + (0 : Fin 16).val := h
  have hr := s.refuses_draw x y ha
  rwa [Fin.val_zero, Nat.add_zero] at hr

theorem Executes.not_refuses {w : UInt16} {t : State} (h : s.Executes w t) :
    ¬s.Refuses w fault := by
  intro hr
  have := (h .released 0).symm.trans (hr .released 0)
  cases this

theorem drawExact_iff (s : State) (x y : Register) (height : Fin 16) :
    s.DrawExact x y height ↔ 0 < height.val ∨ s.index.toNat ≤ memorySize := by
  constructor
  · intro h
    by_contra hn
    have hl : ¬LeavesMemory s.index.toNat height.val := by
      rw [leavesMemory_iff]
      omega
    obtain ⟨t, ht⟩ := h.executes hl
    exact ht.not_refuses (s.refuses_draw x y (by omega))
  · intro h
    constructor
    · intro hl
      exact ⟨_, s.refuses_draw x y (leavesMemory_iff.mp hl).2⟩
    · intro hl
      exact ⟨_, executes_draw x y height (le_of_not_leavesMemory h hl)⟩

/-- Access is exact for every range that has a byte or begins within memory or at its end, and
drawing likewise. An empty range behind the end is refused as if it had a byte before it. -/
theorem access_exact_unless_empty (s : State) :
    (∀ address len, s.AccessExact address len ↔ 0 < len ∨ address ≤ memorySize) ∧
    (∀ x y height, s.DrawExact x y height ↔ 0 < height.val ∨ s.index.toNat ≤ memorySize) ∧
    (∀ address, memorySize < address →
      s.AccessRefused address 0 (.addressOutOfRange (address - 1) s.pc)) ∧
    ∀ x y, memorySize < s.index.toNat →
      s.Refuses (ofDigits 0xD x y 0) (.addressOutOfRange (s.index.toNat - 1) s.pc) :=
  ⟨s.accessExact_iff, s.drawExact_iff, fun _ h => s.accessRefused_empty h,
    fun x y h => s.refuses_draw_empty x y h⟩

/-- No byte is to be read, but the byte before the range is named as out of range. -/
theorem empty_range_refused :
    let s := { State.initial with index := 4097 }
    ¬LeavesMemory 4097 0 ∧ s.readBytes 4097 0 = .error (.addressOutOfRange 4096 0x200) ∧
      ¬s.AccessExact 4097 0 ∧ s.Refuses 0xD000 (.addressOutOfRange 4096 0x200) ∧
      ¬s.DrawExact 0 0 0 := by
  intro s
  have h : memorySize < 4097 := by decide
  refine ⟨fun ⟨k, hk, _⟩ => Nat.not_lt_zero k hk, (s.accessRefused_empty h).read, ?_,
    s.refuses_draw_empty 0 0 h, ?_⟩
  · rw [accessExact_iff]
    decide
  · rw [drawExact_iff]
    decide

end HexConsole.State
