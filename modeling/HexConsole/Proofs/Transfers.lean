import HexConsole.Proofs.Failure
import HexConsole.Proofs.Footprints
import HexConsole.Proofs.Guards

/-! # Between registers and memory

Registers go to memory at the index register and come back from there in the same order, and the
index register stays where it is. The decimal digits of a register go to memory like three
registers. If the range is not within memory, no byte of it is moved.
-/

namespace HexConsole

open Opcode

variable {s t u : State} {w : UInt16} {i : Instruction} {fault : Fault} {x j : Register}
  {bytes : List UInt8}

namespace Memory

variable {m : Memory} {a len : Nat}

theorem get_write_add (h : a + bytes.length ≤ memorySize) (k : Nat) :
    (m.write a bytes).get (a + k) = bytes.getD k (m.get (a + k)) := by
  rw [get_write m a bytes h, if_pos (Nat.le_add_right a k), Nat.add_sub_cancel_left]

theorem getD_slice {k : Nat} (hk : k < len) (byte : UInt8) :
    (m.slice a len).getD k byte = m.get (a + k) := by
  simp [slice, hk]

/-- Writing what was read changes nothing. -/
theorem write_slice (h : a + len ≤ memorySize) : m.write a (m.slice a len) = m := by
  have hl : a + (m.slice a len).length ≤ memorySize := by rwa [length_slice]
  refine ext_get fun b _ => ?_
  by_cases hb : b < a ∨ a + (m.slice a len).length ≤ b
  · exact get_write_of_outside hl hb
  · rw [length_slice] at hb
    obtain ⟨k, rfl⟩ := Nat.exists_eq_add_of_le (show a ≤ b by omega)
    rw [get_write_add hl, getD_slice (by omega)]

end Memory

namespace State

theorem reg_setRegs (s : State) (bytes : List UInt8) (r : Register) :
    (s.setRegs bytes).reg r = bytes.getD r.val (s.reg r) := by
  simp [setRegs, reg]

theorem getD_regsUpTo (hj : j ≤ x) (byte : UInt8) :
    (s.regsUpTo x).getD j.val byte = s.reg j := by
  have hj : j.val < x.val + 1 := Nat.lt_succ_of_le hj
  simp [regsUpTo, reg, hj]

theorem regsUpTo_eq_slice {address : Nat}
    (h : ∀ j ≤ x, s.reg j = s.memory.get (address + j.val)) :
    s.regsUpTo x = s.memory.slice address (x.val + 1) := by
  have hl := length_regsUpTo s x
  refine List.ext_getElem (hl.trans (Memory.length_slice _ _ _).symm) fun k hk hk' => ?_
  rw [hl] at hk
  have hj := h ⟨k, by omega⟩ (Nat.le_of_lt_succ hk)
  simpa [regsUpTo, reg, Memory.slice] using hj

/-- Executing a word makes one state of another and goes on with the next word, whichever key is
held and whichever byte could be drawn. -/
def Executes (s : State) (w : UInt16) (t : State) : Prop :=
  ∀ key byte, (Instruction.decode w).execute key byte s = (.ok (s.pc + 2), t)

/-- Executing a word fails and changes nothing. -/
def Refuses (s : State) (w : UInt16) (fault : Fault) : Prop :=
  ∀ key byte, (Instruction.decode w).execute key byte s = (.error fault, s)

theorem executes_of_decode (hd : Instruction.decode w = i) (hf : i.fault? s = none)
    (hn : ∀ key, i.destination key s = s.pc.toNat + instructionSize)
    (he : ∀ key byte, i.effect key byte s = t) : s.Executes w t := by
  intro key byte
  rw [hd, Instruction.execute_of_none hf, hn, he, UInt16.ofNat_add, UInt16.ofNat_toNat]
  rfl

theorem refuses_of_decode (hd : Instruction.decode w = i) (hf : i.fault? s = some fault) :
    s.Refuses w fault := by
  intro key byte
  rw [hd, Instruction.execute_of_fault hf]

/-- The registers up to `x` have gone to memory, and nothing else has changed. -/
structure RegsStored (s : State) (x : Register) (t : State) : Prop where
  bytes : ∀ j ≤ x, t.memory.get (s.index.toNat + j.val) = s.reg j
  others : ∀ a, a < s.index.toNat ∨ s.index.toNat + x.val < a →
    t.memory.get a = s.memory.get a
  rest : t = { s with memory := t.memory }

/-- The registers up to `x` have come from memory, and nothing else has changed. -/
structure RegsLoaded (s : State) (x : Register) (t : State) : Prop where
  registers : ∀ j ≤ x, t.reg j = s.memory.get (s.index.toNat + j.val)
  others : ∀ j, x < j → t.reg j = s.reg j
  rest : t = { s with registers := t.registers }

theorem executes_store (h : s.index.toNat + x.val ≤ 4095) :
    s.Executes (ofByte 0xF x 0x55)
      { s with memory := s.memory.write s.index.toNat (s.regsUpTo x) } :=
  executes_of_decode (Instruction.decode_encode (.store x) trivial)
    (rangeFault?_eq_none_iff.mpr (Nat.succ_le_succ h)) (fun _ => rfl) (fun _ _ => rfl)

theorem executes_load (h : s.index.toNat + x.val ≤ 4095) :
    s.Executes (ofByte 0xF x 0x65) (s.setRegs (s.memory.slice s.index.toNat (x.val + 1))) :=
  executes_of_decode (Instruction.decode_encode (.load x) trivial)
    (rangeFault?_eq_none_iff.mpr (Nat.succ_le_succ h)) (fun _ => rfl) (fun _ _ => rfl)

theorem regsStored_write (h : s.index.toNat + x.val ≤ 4095) :
    s.RegsStored x { s with memory := s.memory.write s.index.toNat (s.regsUpTo x) } := by
  have hl := length_regsUpTo s x
  have hr : s.index.toNat + (s.regsUpTo x).length ≤ memorySize := by
    rw [hl]
    exact Nat.succ_le_succ h
  constructor
  case bytes =>
    intro j hj
    exact (Memory.get_write_add hr j.val).trans (getD_regsUpTo hj _)
  case others =>
    intro a ha
    apply Memory.get_write_of_outside hr
    rw [hl]
    exact ha
  case rest => rfl

theorem regsLoaded_slice (s : State) (x : Register) :
    s.RegsLoaded x (s.setRegs (s.memory.slice s.index.toNat (x.val + 1))) := by
  constructor
  case registers =>
    intro j hj
    rw [reg_setRegs]
    exact Memory.getD_slice (Nat.lt_succ_of_le hj) _
  case others =>
    intro j hj
    apply reg_setRegs_of_length_le
    rw [Memory.length_slice]
    exact hj
  case rest => rfl

theorem RegsStored.index_eq (h : s.RegsStored x t) : t.index = s.index := by rw [h.rest]

theorem RegsLoaded.index_eq (h : s.RegsLoaded x t) : t.index = s.index := by rw [h.rest]

theorem RegsLoaded.memory_eq (h : s.RegsLoaded x t) : t.memory = s.memory := by rw [h.rest]

/-- Loading gives back what was stored, if memory and index register are the same by then. -/
theorem RegsStored.reg_of_regsLoaded (h : s.RegsStored x t) {t' : State}
    (hm : t'.memory = t.memory) (hi : t'.index = t.index) (hu : t'.RegsLoaded x u)
    (hj : j ≤ x) : u.reg j = s.reg j := by
  rw [hu.registers j hj, hm, hi, h.index_eq, h.bytes j hj]

/-- Registers that are in memory already are stored without a change. -/
theorem executes_store_self (h : s.index.toNat + x.val ≤ 4095)
    (hr : ∀ j ≤ x, s.reg j = s.memory.get (s.index.toNat + j.val)) :
    s.Executes (ofByte 0xF x 0x55) s := by
  have hm : s.memory.write s.index.toNat (s.regsUpTo x) = s.memory := by
    rw [regsUpTo_eq_slice hr]
    exact Memory.write_slice (Nat.succ_le_succ h)
  have he := executes_store h
  rwa [hm] at he

/-- Storing puts what was loaded where it is already. -/
theorem RegsLoaded.executes_store (h : s.RegsLoaded x t) (hr : s.index.toNat + x.val ≤ 4095)
    {t' : State} (hm : t'.memory = t.memory) (hi : t'.index = t.index)
    (hv : t'.registers = t.registers) : t'.Executes (ofByte 0xF x 0x55) t' := by
  apply executes_store_self
  · rwa [hi, h.index_eq]
  · intro j hj
    rw [hm, hi, h.memory_eq, h.index_eq, ← h.registers j hj, reg, hv, reg]

/-- Registers that were stored are loaded again, whatever the registers are by then, and registers
that were loaded are stored again without a change of memory. Neither moves the index register. If
the range of the registers is not within memory, both fail and change nothing. -/
theorem store_load_inverse (s : State) (x : Register) :
    (s.index.toNat + x.val ≤ 4095 →
      (∃ t, s.Executes (ofByte 0xF x 0x55) t ∧ s.RegsStored x t ∧
        ∀ t' : State, t'.memory = t.memory → t'.index = t.index →
          ∃ u, t'.Executes (ofByte 0xF x 0x65) u ∧ t'.RegsLoaded x u ∧
            ∀ j ≤ x, u.reg j = s.reg j) ∧
      ∃ t, s.Executes (ofByte 0xF x 0x65) t ∧ s.RegsLoaded x t ∧
        ∀ t' : State, t'.memory = t.memory → t'.index = t.index → t'.registers = t.registers →
          t'.Executes (ofByte 0xF x 0x55) t') ∧
    (4095 < s.index.toNat + x.val →
      s.Refuses (ofByte 0xF x 0x55) (.addressOutOfRange (s.index.toNat + x.val) s.pc) ∧
      s.Refuses (ofByte 0xF x 0x65) (.addressOutOfRange (s.index.toNat + x.val) s.pc)) := by
  constructor
  · intro h
    constructor
    · have hs := regsStored_write h
      refine ⟨_, executes_store h, hs, ?_⟩
      intro t' hm hi
      have ht : t'.index.toNat + x.val ≤ 4095 := by rwa [hi]
      have hu := regsLoaded_slice t' x
      exact ⟨_, executes_load ht, hu, fun j hj => hs.reg_of_regsLoaded hm hi hu hj⟩
    · have hl := regsLoaded_slice s x
      exact ⟨_, executes_load h, hl, fun t' hm hi hv => hl.executes_store h hm hi hv⟩
  · intro h
    have hf : s.rangeFault? s.index.toNat (x.val + 1) =
        some (.addressOutOfRange (s.index.toNat + x.val) s.pc) :=
      rangeFault?_of_lt (Nat.succ_lt_succ h)
    exact ⟨refuses_of_decode (Instruction.decode_encode (.store x) trivial) hf,
      refuses_of_decode (Instruction.decode_encode (.load x) trivial) hf⟩

/-- Three registers go to the last three bytes of memory and come back to registers that were
cleared; a fourth has no room. -/
theorem store_load_inverse_last_byte :
    let s := { State.initial.setRegs [1, 2, 3, 4] with index := 4093 }
    s.index.toNat + (2 : Register).val ≤ 4095 ∧ 4095 < s.index.toNat + (3 : Register).val ∧
      (∃ t, s.Executes 0xF255 t ∧ t.memory.get 4095 = 3 ∧
        ∃ u, { t with registers := .replicate _ 0 }.Executes 0xF265 u ∧
          u.reg 2 = 3 ∧ u.reg 3 = 0) ∧
      (∃ t, s.Executes 0xF265 t ∧ t.reg 2 = 0 ∧ t.Executes 0xF255 t) ∧
      s.Refuses 0xF355 (.addressOutOfRange 4096 0x200) := by
  intro s
  have h : s.index.toNat + (2 : Register).val ≤ 4095 := by decide
  have h' : 4095 < s.index.toNat + (3 : Register).val := by decide
  have h3 : s.reg 2 = 3 := by decide +kernel
  obtain ⟨⟨t, ht, hst, hback⟩, v, hv, hlv, hagain⟩ := (store_load_inverse s 2).1 h
  obtain ⟨u, hu, hl, hr⟩ := hback { t with registers := .replicate _ 0 } rfl rfl
  obtain ⟨hrefused, -⟩ := (store_load_inverse s 3).2 h'
  refine ⟨h, h', ⟨t, ht, (hst.bytes 2 (by decide)).trans h3, u, hu, ?_, ?_⟩, ⟨v, hv, ?_, ?_⟩,
    hrefused⟩
  · exact (hr 2 (by decide)).trans h3
  · exact hl.others 3 (by decide)
  · exact (hlv.registers 2 (by decide)).trans (Memory.get_initial 4095)
  · exact hagain v rfl rfl rfl

end State

/-- The decimal digits of a byte are three digits, the highest first. -/
theorem decimalDigits_spec (byte : UInt8) :
    ∃ hundreds tens ones : UInt8, decimalDigits byte = [hundreds, tens, ones] ∧
      hundreds.toNat ≤ 9 ∧ tens.toNat ≤ 9 ∧ ones.toNat ≤ 9 ∧
      100 * hundreds.toNat + 10 * tens.toNat + ones.toNat = byte.toNat := by
  have := byte.toNat_lt
  refine ⟨_, _, _, rfl, ?_⟩
  simp only [UInt8.toNat_div, UInt8.toNat_mod, UInt8.reduceToNat]
  omega

namespace State

/-- Three digits of a register's value have gone to memory, and nothing else has changed. -/
structure DigitsStored (s : State) (x : Register) (hundreds tens ones : UInt8) (t : State) :
    Prop where
  digits : hundreds.toNat ≤ 9 ∧ tens.toNat ≤ 9 ∧ ones.toNat ≤ 9
  value : 100 * hundreds.toNat + 10 * tens.toNat + ones.toNat = (s.reg x).toNat
  bytes : t.memory.get s.index.toNat = hundreds ∧ t.memory.get (s.index.toNat + 1) = tens ∧
    t.memory.get (s.index.toNat + 2) = ones
  others : ∀ a, a < s.index.toNat ∨ s.index.toNat + 2 < a →
    t.memory.get a = s.memory.get a
  rest : t = { s with memory := t.memory }

theorem executes_storeDecimal (h : s.index.toNat ≤ 4093) :
    s.Executes (ofByte 0xF x 0x33)
      { s with memory := s.memory.write s.index.toNat (decimalDigits (s.reg x)) } :=
  executes_of_decode (Instruction.decode_encode (.storeDecimal x) trivial)
    (rangeFault?_eq_none_iff.mpr (Nat.add_le_add_right h 3)) (fun _ => rfl) (fun _ _ => rfl)

theorem digitsStored_write (h : s.index.toNat ≤ 4093) (x : Register) :
    ∃ hundreds tens ones, s.DigitsStored x hundreds tens ones
      { s with memory := s.memory.write s.index.toNat (decimalDigits (s.reg x)) } := by
  obtain ⟨hundreds, tens, ones, hd, hh, ht, ho, hv⟩ := decimalDigits_spec (s.reg x)
  rw [hd]
  have hr : s.index.toNat + [hundreds, tens, ones].length ≤ memorySize := Nat.add_le_add_right h 3
  have hget := Memory.get_write_add (m := s.memory) hr
  refine ⟨hundreds, tens, ones, ⟨hh, ht, ho⟩, hv, ⟨hget 0, hget 1, hget 2⟩, ?_, rfl⟩
  intro a ha
  exact Memory.get_write_of_outside hr ha

theorem DigitsStored.reg_of_regsLoaded {hundreds tens ones : UInt8}
    (h : s.DigitsStored x hundreds tens ones t) {t' : State} (hm : t'.memory = t.memory)
    (hi : t'.index = t.index) (hu : t'.RegsLoaded 2 u) :
    u.reg 0 = hundreds ∧ u.reg 1 = tens ∧ u.reg 2 = ones := by
  have hs : t.index = s.index := by rw [h.rest]
  obtain ⟨h0, h1, h2⟩ := h.bytes
  have hregs := hu.registers
  rw [hm, hi, hs] at hregs
  exact ⟨(hregs 0 (by decide)).trans h0, (hregs 1 (by decide)).trans h1,
    (hregs 2 (by decide)).trans h2⟩

/-- Three digits of a register's value go to memory, if there is room for all of them, and are
loaded to the first three registers. Without the room nothing is written. -/
theorem storeDecimal_read_back (s : State) (x : Register) :
    (s.index.toNat ≤ 4093 → ∃ t hundreds tens ones,
      s.Executes (ofByte 0xF x 0x33) t ∧ s.DigitsStored x hundreds tens ones t ∧
      ∀ t' : State, t'.memory = t.memory → t'.index = t.index →
        ∃ u, t'.Executes (ofByte 0xF 2 0x65) u ∧ t'.RegsLoaded 2 u ∧
          u.reg 0 = hundreds ∧ u.reg 1 = tens ∧ u.reg 2 = ones) ∧
    (4094 ≤ s.index.toNat →
      s.Refuses (ofByte 0xF x 0x33) (.addressOutOfRange (s.index.toNat + 2) s.pc)) := by
  constructor
  · intro h
    obtain ⟨hundreds, tens, ones, hs⟩ := digitsStored_write h x
    refine ⟨_, hundreds, tens, ones, executes_storeDecimal h, hs, ?_⟩
    intro t' hm hi
    have ht : t'.index.toNat + (2 : Register).val ≤ 4095 := by
      rw [hi]
      exact Nat.add_le_add_right h 2
    have hu := regsLoaded_slice t' 2
    exact ⟨_, executes_load ht, hu, hs.reg_of_regsLoaded hm hi hu⟩
  · intro h
    apply refuses_of_decode (Instruction.decode_encode (.storeDecimal x) trivial)
    exact rangeFault?_of_lt (Nat.add_lt_add_right h 3)

/-- The digits of 254 go to the last three bytes of memory; one byte further there is no room. -/
theorem storeDecimal_read_back_last_bytes :
    let s := { State.initial.setRegs [9, 254, 9, 7] with index := 4093 }
    let s' := { s with index := 4094 }
    s.index.toNat ≤ 4093 ∧ 4094 ≤ s'.index.toNat ∧
      (∃ t, s.Executes 0xF133 t ∧ t.memory.get 4095 = 4 ∧
        ∃ u, t.Executes 0xF265 u ∧ u.reg 0 = 2 ∧ u.reg 1 = 5 ∧ u.reg 2 = 4 ∧ u.reg 3 = 7) ∧
      s'.Refuses 0xF133 (.addressOutOfRange 4096 0x200) := by
  intro s s'
  have h : s.index.toNat ≤ 4093 := by decide
  have h' : 4094 ≤ s'.index.toNat := by decide
  obtain ⟨t, hundreds, tens, ones, ht, hs, hback⟩ := (storeDecimal_read_back s 1).1 h
  obtain ⟨u, hu, hl, h0, h1, h2⟩ := hback t rfl rfl
  have hv : (s.reg 1).toNat = 254 := by decide +kernel
  have hvalue := hs.value
  have hdigits := hs.digits
  have hh : hundreds = 2 := UInt8.toNat.inj (show hundreds.toNat = 2 by omega)
  have ht' : tens = 5 := UInt8.toNat.inj (show tens.toNat = 5 by omega)
  have ho : ones = 4 := UInt8.toNat.inj (show ones.toNat = 4 by omega)
  have h3 : t.reg 3 = 7 := by
    rw [hs.rest]
    rfl
  exact ⟨h, h', ⟨t, ht, hs.bytes.2.2.trans ho, u, hu, h0.trans hh, h1.trans ht', h2.trans ho,
    (hl.others 3 (by decide)).trans h3⟩, (storeDecimal_read_back s' 1).2 h'⟩

end State

end HexConsole
