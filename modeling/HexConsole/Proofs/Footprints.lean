import HexConsole.Proofs.Timers

/-! # Footprints

An instruction writes only some registers and some bytes of memory, and the digits of its word
tell which. So the word at the program counter bounds what a step can change.
-/

namespace HexConsole

open Opcode

variable {w : UInt16} {key : Key} {byte : UInt8} {s : State} {i : Instruction} {r : Register}

theorem Memory.get_write_of_outside {m : Memory} {a b : Nat} {bytes : List UInt8}
    (h : a + bytes.length ≤ memorySize) (hb : b < a ∨ a + bytes.length ≤ b) :
    (m.write a bytes).get b = m.get b := by
  rw [get_write m a bytes h]
  split
  · have hl : bytes.length ≤ b - a := by omega
    rw [List.getD_eq_getElem?_getD, List.getElem?_eq_none hl, Option.getD_none]
  · rfl

namespace State

theorem reg_setRegs_of_length_le {bytes : List UInt8} (h : bytes.length ≤ r.val) :
    (s.setRegs bytes).reg r = s.reg r := by
  simp [setRegs, reg, h]

end State

namespace Opcode

/-- A word that can change register `r`. -/
def Writes (w : UInt16) (r : Register) : Prop :=
  (family w = 0x6 ∨ family w = 0x7 ∨ family w = 0xC) ∧ r = x w ∨
  family w = 0x8 ∧ n w ∈ [0x0, 0x1, 0x2, 0x3] ∧ r = x w ∨
  family w = 0x8 ∧ n w ∈ [0x4, 0x5, 0x6, 0x7, 0xE] ∧ (r = x w ∨ r = flagRegister) ∨
  family w = 0xD ∧ r = flagRegister ∨
  family w = 0xF ∧ (kk w = 0x07 ∨ kk w = 0x0A) ∧ r = x w ∨
  family w = 0xF ∧ kk w = 0x65 ∧ r ≤ x w

/-- A word that can change the byte at `address`, given the index register. -/
def Stores (w : UInt16) (index address : Nat) : Prop :=
  family w = 0xF ∧ index ≤ address ∧
    (kk w = 0x33 ∧ address ≤ index + 2 ∨ kk w = 0x55 ∧ address ≤ index + (x w).val)

instance : Decidable (Writes w r) :=
  inferInstanceAs (Decidable ((_ ∨ _) ∧ _ ∨ _ ∧ _ ∨ _ ∧ _ ∨ _ ∧ _ ∨ _ ∧ _ ∨ _ ∧ _))

instance {index address : Nat} : Decidable (Stores w index address) :=
  inferInstanceAs (Decidable (_ ∧ _ ∧ (_ ∨ _)))

end Opcode

namespace Instruction

/-- An instruction that can change register `r`. -/
def Writes (r : Register) : Instruction → Prop
  | setByte a _ | addByte a _ | copy a _ | or a _ | and a _ | xor a _ | random a _
  | readDelay a | awaitKey a => r = a
  | add a _ | sub a _ | shiftRight a | subFrom a _ | shiftLeft a => r = a ∨ r = flagRegister
  | draw .. => r = flagRegister
  | load a => r ≤ a
  | _ => False

theorem Fits.writes (h : i.Fits w) (hr : i.Writes r) : Opcode.Writes w r := by
  cases i with
  | setByte | addByte | random =>
    obtain ⟨hf, rfl⟩ := h
    exact .inl ⟨by simp [hf], hr⟩
  | copy | or | and | xor =>
    obtain ⟨hf, rfl, hn⟩ := h
    exact .inr (.inl ⟨hf, by simp [hn], hr⟩)
  | add | sub | shiftRight | subFrom | shiftLeft =>
    obtain ⟨hf, rfl, hn⟩ := h
    exact .inr (.inr (.inl ⟨hf, by simp [hn], hr⟩))
  | draw => exact .inr (.inr (.inr (.inl ⟨h.1, hr⟩)))
  | readDelay | awaitKey =>
    obtain ⟨hf, rfl, hk⟩ := h
    exact .inr (.inr (.inr (.inr (.inl ⟨hf, by simp [hk], hr⟩))))
  | load =>
    obtain ⟨hf, rfl, hk⟩ := h
    exact .inr (.inr (.inr (.inr (.inr ⟨hf, hk, hr⟩))))
  | _ => exact hr.elim

theorem reg_effect_of_not_writes (h : ¬i.Writes r) :
    (i.effect key byte s).reg r = s.reg r := by
  cases i with
  | setByte | addByte | copy | or | and | xor | random | readDelay =>
    exact State.reg_setReg_of_ne h
  | awaitKey =>
    simp only [effect]
    split
    · exact State.reg_setReg_of_ne h
    · rfl
  | add | sub | shiftRight | subFrom | shiftLeft =>
    -- the flag is written last, also where it is the register of the result
    obtain ⟨ha, hf⟩ := not_or.mp h
    exact (State.reg_setReg_of_ne hf).trans (State.reg_setReg_of_ne ha)
  | draw => exact State.reg_setReg_of_ne h
  | load a =>
    apply State.reg_setRegs_of_length_le
    rw [Memory.length_slice]
    exact Nat.lt_of_not_le h
  | _ => rfl

/-- The number of bytes that an instruction replaces, from the index register on. -/
def stored : Instruction → Nat
  | storeDecimal _ => 3
  | store a => a.val + 1
  | _ => 0

theorem get_memory_effect {address : Nat} (hf : i.fault? s = none)
    (ha : address < s.index.toNat ∨ s.index.toNat + i.stored ≤ address) :
    (i.effect key byte s).memory.get address = s.memory.get address := by
  rw [effect_memory]
  split
  case h_1 => exact Memory.get_write_of_outside (State.rangeFault?_eq_none_iff.mp hf) ha
  case h_2 a =>
    have hl := State.length_regsUpTo s a
    apply Memory.get_write_of_outside <;> rw [hl]
    · exact State.rangeFault?_eq_none_iff.mp hf
    · exact ha
  case h_3 => rfl

end Instruction

/-- What can differ after a step with word `w`. -/
structure State.Framed (w : UInt16) (s t : State) : Prop where
  memory : t.memory ≠ s.memory → family w = 0xF ∧ (kk w = 0x33 ∨ kk w = 0x55)
  bytes : ∀ address, t.memory.get address ≠ s.memory.get address →
    Stores w s.index.toNat address
  screen : t.screen ≠ s.screen → w = 0x00E0 ∨ family w = 0xD
  stack : t.stack ≠ s.stack → family w = 0x2 ∨ w = 0x00EE
  index : t.index ≠ s.index → family w = 0xA ∨ family w = 0xF ∧ (kk w = 0x1E ∨ kk w = 0x29)
  delay : t.delay ≠ s.delay → family w = 0xF ∧ kk w = 0x15
  sound : t.sound ≠ s.sound → family w = 0xF ∧ kk w = 0x18
  registers : ∀ r, t.reg r ≠ s.reg r → Writes w r

namespace Instruction

theorem Fits.memory (h : i.Fits w) (hm : (i.effect key byte s).memory ≠ s.memory) :
    family w = 0xF ∧ (kk w = 0x33 ∨ kk w = 0x55) := by
  rw [effect_memory] at hm
  split at hm
  · exact ⟨h.1, .inl h.2.2⟩
  · exact ⟨h.1, .inr h.2.2⟩
  · exact absurd rfl hm

theorem Fits.stores {address : Nat} (h : i.Fits w) (hf : i.fault? s = none)
    (ha : (i.effect key byte s).memory.get address ≠ s.memory.get address) :
    Stores w s.index.toNat address := by
  have hn : ¬(address < s.index.toNat ∨ s.index.toNat + i.stored ≤ address) :=
    mt (get_memory_effect hf) ha
  cases i with
  | storeDecimal =>
    simp only [stored] at hn
    exact ⟨h.1, by omega, .inl ⟨h.2.2, by omega⟩⟩
  | store a =>
    obtain ⟨hw, rfl, hk⟩ := h
    simp only [stored] at hn
    exact ⟨hw, by omega, .inr ⟨hk, by omega⟩⟩
  | _ =>
    simp only [stored] at hn
    omega

theorem Fits.screen (h : i.Fits w) (hs : (i.effect key byte s).screen ≠ s.screen) :
    w = 0x00E0 ∨ family w = 0xD := by
  rw [effect_screen] at hs
  split at hs
  · exact .inl h
  · exact .inr h.1
  · exact absurd rfl hs

theorem Fits.stack (h : i.Fits w) (hs : (i.effect key byte s).stack ≠ s.stack) :
    family w = 0x2 ∨ w = 0x00EE := by
  rw [effect_stack] at hs
  split at hs
  · exact .inr h
  · exact .inl h
  · exact absurd rfl hs

theorem Fits.index (h : i.Fits w) (hi : (i.effect key byte s).index ≠ s.index) :
    family w = 0xA ∨ family w = 0xF ∧ (kk w = 0x1E ∨ kk w = 0x29) := by
  rw [effect_index] at hi
  split at hi
  · exact .inl h
  · exact .inr ⟨h.1, .inl h.2.2⟩
  · exact .inr ⟨h.1, .inr h.2.2⟩
  · exact absurd rfl hi

theorem Fits.timer {t : Timer} (h : i.Fits w)
    (ht : (i.effect key byte s).timer t ≠ s.timer t) : family w = 0xF ∧ kk w = t.code := by
  have hn := mt State.timer_effect_of_ne ht
  obtain ⟨a, rfl⟩ : ∃ a, i = t.setter a := by simpa using hn
  cases t with
  | delay => exact ⟨h.1, h.2.2⟩
  | sound => exact ⟨h.1, h.2.2⟩

end Instruction

theorem State.framed_next (hf : s.fault? = none) : s.Framed s.word (s.next key byte) := by
  have h : s.instruction.Fits s.word := Instruction.fits_decode s.word
  exact {
    memory := h.memory
    bytes := fun _ => h.stores (fault?_eq_none_iff.mp hf).2
    screen := h.screen
    stack := h.stack
    index := h.index
    delay := h.timer (t := .delay)
    sound := h.timer (t := .sound)
    registers := fun r hr => h.writes (not_imp_comm.mp Instruction.reg_effect_of_not_writes hr) }

namespace Machine

variable {m m' : Machine}

/-- A step that does not fail leaves everything as it was but what the word at the program
counter allows. -/
theorem step_frame (h : m.step byte = (.ok (), m')) :
    ∃ w, m.state.fetch = .ok w ∧ m.state.Framed w m'.state ∧ m'.key = m.key := by
  obtain ⟨hf, rfl⟩ := step_eq_ok_iff.mp h
  have hw := State.fetch_eq_ok_iff.mpr ⟨(State.fault?_eq_none_iff.mp hf).1, rfl⟩
  exact ⟨_, hw, State.framed_next hf, rfl⟩

/-- The program overwrites the beginning of the font. -/
theorem step_frame_store_font :
    let m := ofProgram [0xF1, 0x55]
    let m' := (m.step 0).2
    m.state.fetch = .ok 0xF155 ∧ m.state.Framed 0xF155 m'.state ∧ m'.key = m.key ∧
      m'.state.memory.get 0 ≠ m.state.memory.get 0 := by
  intro m m'
  have hn : m.state.fault? = none := by decide +kernel
  have hs : m.step 0 = (.ok (), m') :=
    step_eq_ok_iff.mpr ⟨hn, congrArg Prod.snd (step_of_none hn)⟩
  obtain ⟨w, hw, hf, hk⟩ := step_frame hs
  have hw' : m.state.fetch = .ok 0xF155 := by decide +kernel
  obtain rfl : w = 0xF155 := Except.ok.inj (hw.symm.trans hw')
  exact ⟨hw, hf, hk, by decide +kernel⟩

end Machine

end HexConsole
