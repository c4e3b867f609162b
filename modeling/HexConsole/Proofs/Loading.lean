import HexConsole.Guarded.Program
import HexConsole.Machine.History
import HexConsole.Proofs.Guards
import Mathlib.Data.List.GetD

/-! # Loading

A source that breaks leaves the machine as it was. One that does not leaves nothing of what the
machine was: the font, the first bytes of the program and zeros fill memory, and the rest is as
in a new machine. So what was loaded decides all that the machine does from then on.
-/

namespace HexConsole

open Guarded

theorem State.guarded_initial : initialState = .ok State.initial := by
  have hw : ⟨overwrite (.replicate memorySize 0) fontStart font⟩ = Memory.initial :=
    Memory.blank.overwrite_eq_write (by decide)
  rw [initialState, count_sum_ok (by decide), ok_bind, replace_ok (by decide) (by decide) rfl,
    ok_bind, hw]
  rfl

namespace Machine

variable {m m' : Machine} {bytes bytes' : List UInt8}

theorem guarded_reset (m : Machine) : Guarded.reset m = .ok m.reset := by
  rw [Guarded.reset, State.guarded_initial]
  rfl

/-- The program is cut to the room behind its start, so it is within memory where it goes. -/
theorem guarded_copyProgram (bytes : List UInt8) :
    copyProgram initial bytes = .ok (loadedSize bytes, ofProgram bytes) := by
  have hd : difference memorySize programStart = .ok programRoom := difference_ok (by decide)
  have hr : programStart + min bytes.length programRoom ≤ memorySize :=
    Nat.add_le_add_left (Nat.min_le_right ..) programStart
  have ht : bytes.take (min bytes.length programRoom) = bytes.take programRoom := by
    rw [List.take_eq_take_iff]
    omega
  have hl : (bytes.take programRoom).length = min bytes.length programRoom :=
    List.length_take.trans (Nat.min_comm ..)
  have hw : ⟨overwrite Memory.initial.bytes programStart (bytes.take programRoom)⟩ =
      Memory.ofProgram bytes :=
    Memory.initial.overwrite_eq_write (hl ▸ hr)
  have hm : initial.state.memory.bytes = Memory.initial.bytes := rfl
  simp only [copyProgram, hd, ok_bind]
  rw [count_sum_ok (Nat.lt_of_le_of_lt hr (by decide)), ok_bind,
    within_ok (Nat.zero_le _) (Nat.min_le_left ..), ok_bind, ht, hm,
    replace_ok (Nat.le_add_right ..) hr (by rw [hl, Nat.add_sub_cancel_left]), ok_bind, hw]
  rfl

theorem guarded_load (m : Machine) (source : Source) :
    loadSource m source = .ok (m.load source) := by
  cases source with
  | broken bytes reason => rfl
  | whole bytes =>
    rw [loadSource, guarded_reset, ok_bind, reset, guarded_copyProgram, ok_bind]
    rfl

/-- The machine has just been loaded: memory holds the font, as much of the program as there is
room for, and zeros, and there is nothing else. -/
structure Loaded (bytes : List UInt8) (m : Machine) : Prop where
  font : ∀ a < 80, m.state.memory.get a = font.getD a 0
  gap : ∀ a, 80 ≤ a → a < 512 → m.state.memory.get a = 0
  program : ∀ k < min bytes.length 3584, m.state.memory.get (512 + k) = bytes.getD k 0
  rest : ∀ a, 512 + min bytes.length 3584 ≤ a → m.state.memory.get a = 0
  pc : m.state.pc = 512
  others : m = { initial with state := { State.initial with memory := m.state.memory } }

theorem loaded_ofProgram (bytes : List UInt8) : (ofProgram bytes).Loaded bytes where
  font a ha := by
    have hp : ¬512 ≤ a := by omega
    exact (Memory.get_ofProgram bytes a).trans (if_neg hp)
  gap a ha ha' := by
    have hp : ¬512 ≤ a := by omega
    refine (Memory.get_ofProgram bytes a).trans ((if_neg hp).trans ?_)
    exact List.getD_eq_default _ _ ha
  program k hk := by
    refine (Memory.get_ofProgram bytes _).trans ((if_pos (Nat.le_add_right ..)).trans ?_)
    have hk' : k < programRoom := Nat.lt_of_lt_of_le hk (Nat.min_le_right ..)
    rw [Nat.add_sub_cancel_left, List.getD_eq_getElem?_getD, List.getElem?_take_of_lt hk',
      List.getD_eq_getElem?_getD]
  rest a ha := by
    have hp : 512 ≤ a := by omega
    refine (Memory.get_ofProgram bytes a).trans ((if_pos hp).trans ?_)
    apply List.getD_eq_default
    rw [List.length_take, Nat.min_comm]
    exact Nat.le_sub_of_add_le' ha
  pc := rfl
  others := rfl

/-- Nothing of a loaded machine is left open. -/
theorem Loaded.eq (h : m.Loaded bytes) : m = ofProgram bytes := by
  have hp := loaded_ofProgram bytes
  have hm : m.state.memory = (ofProgram bytes).state.memory := by
    refine Memory.ext_get fun a _ => ?_
    rcases Nat.lt_or_ge a 80 with ha | ha
    · rw [h.font a ha, hp.font a ha]
    rcases Nat.lt_or_ge a 512 with ha' | ha'
    · rw [h.gap a ha ha', hp.gap a ha ha']
    rcases Nat.lt_or_ge a (512 + min bytes.length 3584) with hl | hl
    · obtain ⟨k, rfl⟩ := Nat.exists_eq_add_of_le ha'
      have hk : k < min bytes.length 3584 := Nat.lt_of_add_lt_add_left hl
      rw [h.program k hk, hp.program k hk]
    · rw [h.rest a hl, hp.rest a hl]
  rw [h.others, hm]
  rfl

/-- Neither the machine before nor what there is no room for makes a difference. -/
theorem load_congr (h : bytes.take programRoom = bytes'.take programRoom) (m m' : Machine) :
    m.load (.whole bytes) = m'.load (.whole bytes') := by
  have hs : loadedSize bytes = loadedSize bytes' := by
    have hl := congrArg List.length h
    rwa [List.length_take, List.length_take, Nat.min_comm, Nat.min_comm programRoom] at hl
  have hm : Memory.ofProgram bytes = Memory.ofProgram bytes' := by
    rw [Memory.ofProgram, h, Memory.ofProgram]
  rw [load, load, hs, ofProgram, ofProgram, hm]

/-- A source that breaks leaves every machine as it was. One that does not leaves a machine that
its bytes alone determine, as far as there is room for them, whatever the machine was before; so
machines with the same program go on in the same way. No range that is copied leaves memory. -/
theorem load_forgets :
    (∀ m source, loadSource m source = .ok (m.load source)) ∧
    (∀ (m : Machine) bytes reason,
      m.load (.broken bytes reason) = (.error (.unreadable reason), m)) ∧
    (∀ (m : Machine) bytes, ∃ loaded,
      m.load (.whole bytes) = (.ok (min bytes.length 3584), loaded) ∧
      ∀ m' : Machine, m'.Loaded bytes ↔ m' = loaded) ∧
    ∀ (m m' : Machine) bytes bytes', bytes.take 3584 = bytes'.take 3584 →
      let (result, loaded) := m.load (.whole bytes)
      let (result', loaded') := m'.load (.whole bytes')
      result = result' ∧ ∀ events, loaded.answers events = loaded'.answers events ∧
        loaded.after events = loaded'.after events := by
  refine ⟨guarded_load, fun m bytes reason => rfl, fun m bytes => ?_, fun m m' bytes bytes' h => ?_⟩
  · refine ⟨_, rfl, fun m' => ⟨Loaded.eq, ?_⟩⟩
    rintro rfl
    exact loaded_ofProgram bytes
  · rw [load_congr h m m']
    exact ⟨rfl, fun events => ⟨rfl, rfl⟩⟩

/-- Images that differ only behind the end of memory are loaded alike, by a machine that has run
and by a new one. -/
theorem load_forgets_truncated :
    let image : List UInt8 := .replicate 3584 0xAB
    let m := (initial.load (.whole [0x60, 0x05, 0xF0, 0x18])).2.after
      [.key (.press 3), .step 0, .step 0, .tick]
    m.key ≠ initial.key ∧ (image ++ [1]).take 3584 = (image ++ [2, 3]).take 3584 ∧
      (m.load (.whole (image ++ [1]))).1 = .ok 3584 ∧
      (initial.load (.whole (image ++ [2, 3]))).1 = .ok 3584 ∧
      ∀ events, (m.load (.whole (image ++ [1]))).2.answers events =
        (initial.load (.whole (image ++ [2, 3]))).2.answers events := by
  intro image m
  have hl : image.length = 3584 := List.length_replicate
  have ht : (image ++ [1]).take 3584 = (image ++ [2, 3]).take 3584 := by
    rw [List.take_left' hl, List.take_left' hl]
  obtain ⟨-, -, hw, hc⟩ := load_forgets
  obtain ⟨h, hs⟩ := hc m initial _ _ ht
  obtain ⟨_, hm, -⟩ := hw m (image ++ [1])
  have hr : (m.load (.whole (image ++ [1]))).1 = .ok 3584 := by
    rw [hm, List.length_append, hl]
    rfl
  exact ⟨by decide +kernel, ht, hr, h.symm.trans hr, fun events => (hs events).1⟩

end Machine

end HexConsole
