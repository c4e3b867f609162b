import HexConsole.Proofs.Histories
import HexConsole.Proofs.Steps
import Mathlib.Data.List.Induction

/-! # Subroutines

A call puts its own address on the stack and a return goes on behind it. As long as the
stack stays higher than it was before a call, the call's address and everything below it
stay where they are, whatever is executed meanwhile. So the event that brings the stack back
is the return of that very call.
-/

namespace HexConsole

open Opcode

namespace Machine

variable {m : Machine} {depth : Nat} {below : List UInt16} {event : Event} {events : List Event}

/-- The stack is higher than some depth throughout a history. -/
def StaysAbove (m : Machine) (depth : Nat) (events : List Event) : Prop :=
  ∀ seen, seen <+: events → depth < (m.after seen).state.stack.length

/-- An event is a step that returns to a caller and leaves the stack below it. -/
def Returns (m : Machine) (event : Event) (caller : UInt16) (stack : List UInt16) : Prop :=
  ∃ byte returned, event = .step byte ∧ m.step byte = (.ok (), returned) ∧
    m.state.fetch = .ok 0x00EE ∧ returned.state.stack = stack ∧
    returned.state.pc = caller + 2

theorem StaysAbove.of_concat (h : m.StaysAbove depth (events ++ [event])) :
    m.StaysAbove depth events :=
  fun seen hs => h seen (hs.trans (List.prefix_append ..))

theorem returns_of_leave {caller : UInt16} {stack : List UInt16}
    (hf : m.state.fault? = none) (hi : m.state.instruction = .leave)
    (hs : m.state.stack = caller :: stack) (byte : UInt8) :
    m.Returns (.step byte) caller stack := by
  have hw : m.state.word = 0x00EE := Instruction.decode_leave_iff.mp hi
  have hr := (State.fault?_eq_none_iff.mp hf).1
  refine ⟨byte, _, rfl, step_of_none hf, State.fetch_eq_ok_iff.mpr ⟨hr, hw⟩, ?_, ?_⟩
  · simp only [State.next, Instruction.effect_stack, hi, hs, List.tail_cons]
  · simp only [State.next, hi, Instruction.destination, hs, List.headD_cons]
    rw [UInt16.ofNat_add, UInt16.ofNat_toNat]
    rfl

/-- An event leaves the stack alone, or pushes the program counter, or returns to the caller
on top. -/
theorem react_stack (m : Machine) (event : Event) :
    (m.react event).2.state.stack = m.state.stack ∨
    (m.react event).2.state.stack = m.state.pc :: m.state.stack ∨
    ∃ caller, m.state.stack = caller :: (m.react event).2.state.stack ∧
      m.Returns event caller (m.react event).2.state.stack := by
  cases event with
  | step byte =>
    cases hf : m.state.fault? with
    | some fault =>
      left
      simp only [react, step_of_fault hf]
    | none =>
      simp only [react, step_of_none hf, State.next, Instruction.effect_stack]
      split
      case h_1 hi =>
        have hi' := (State.fault?_eq_none_iff.mp hf).2
        have hn : m.state.stack ≠ [] := fun hn => by simp [hi, Instruction.fault?, hn] at hi'
        obtain ⟨caller, stack, hs⟩ := List.exists_cons_of_ne_nil hn
        rw [hs]
        exact .inr (.inr ⟨caller, rfl, returns_of_leave hf hi hs byte⟩)
      case h_2 => exact .inr (.inl rfl)
      case h_3 => exact .inl rfl
  | tick => exact .inl rfl
  | key key => exact .inl rfl

/-- What lies at the bottom of the stack stays there as long as the stack is high enough. -/
theorem StaysAbove.suffix (h : m.StaysAbove depth events) (hd : below.length = depth + 1)
    (hb : below <:+ m.state.stack) : below <:+ (m.after events).state.stack := by
  induction events using List.reverseRecOn with
  | nil => exact hb
  | append_singleton events event ih =>
    have hs := ih h.of_concat
    have hl := h _ List.prefix_rfl
    rw [after_concat] at hl ⊢
    rcases react_stack (m.after events) event with he | he | ⟨caller, he, -⟩
    · rwa [he]
    · rw [he]
      exact hs.trans (List.suffix_cons ..)
    · rw [he] at hs
      -- A return that took the bottom away would bring the stack down to the depth.
      rcases List.suffix_cons_iff.mp hs with rfl | hs
      · rw [List.length_cons] at hd
        omega
      · exact hs

/-- The event that brings the stack down to a depth returns to the caller at that depth. -/
theorem returns_of_length_le {caller : UInt16} {stack : List UInt16}
    (hs : caller :: stack <:+ m.state.stack)
    (hl : (m.react event).2.state.stack.length ≤ stack.length) :
    m.Returns event caller stack := by
  have hle := hs.length_le
  rw [List.length_cons] at hle
  rcases react_stack m event with he | he | ⟨caller', he, hr⟩
  · rw [he] at hl
    omega
  · rw [he, List.length_cons] at hl
    omega
  · rw [he, List.length_cons] at hle
    have hcs : caller :: stack = caller' :: (m.react event).2.state.stack :=
      he ▸ hs.eq_of_length (by rw [he, List.length_cons, List.length_cons]; omega)
    obtain ⟨rfl, hst⟩ := List.cons.inj hcs
    rwa [hst]

/-- Until the stack is as low as before a call, the call's address lies on what was there
before, and the event that brings it down is a return to the instruction behind the call. -/
theorem call_returns {word : UInt16} (hw : m.state.fetch = .ok word) (hc : family word = 0x2)
    (hs : m.state.stack.length < 16) (byte : UInt8) :
    ∃ called, m.step byte = (.ok (), called) ∧
      called.state.stack = m.state.pc :: m.state.stack ∧
      ∀ events, called.StaysAbove m.state.stack.length events →
        m.state.pc :: m.state.stack <:+ (called.after events).state.stack ∧
        ∀ event,
          ((called.after events).react event).2.state.stack.length ≤ m.state.stack.length →
          ∃ byte' returned, event = .step byte' ∧
            (called.after events).step byte' = (.ok (), returned) ∧
            (called.after events).state.fetch = .ok 0x00EE ∧
            returned.state.stack = m.state.stack ∧
            returned.state.pc.toNat = m.state.pc.toNat + 2 := by
  obtain ⟨hp, rfl⟩ := State.fetch_eq_ok_iff.mp hw
  have hi : m.state.instruction = .call (addr m.state.word) :=
    Instruction.decode_call_iff.mpr ⟨hc, rfl⟩
  have hf : m.state.fault? = none :=
    State.fault?_eq_none_iff.mpr ⟨hp, by rw [hi]; exact if_neg (Nat.ne_of_lt hs)⟩
  have hst : (m.state.next m.key byte).stack = m.state.pc :: m.state.stack := by
    simp only [State.next, Instruction.effect_stack, hi]
  refine ⟨_, step_of_none hf, hst, fun events ha => ?_⟩
  have hb : m.state.pc :: m.state.stack <:+ (m.state.next m.key byte).stack :=
    hst ▸ List.suffix_rfl
  have hsuf := ha.suffix rfl hb
  refine ⟨hsuf, fun event hl => ?_⟩
  obtain ⟨byte', returned, he, hr, hl, hs', hpc⟩ := returns_of_length_le hsuf hl
  refine ⟨byte', returned, he, hr, hl, hs', ?_⟩
  have hp : m.state.pc.toNat + 2 ≤ 4096 := hp
  rw [hpc, UInt16.toNat_add]
  exact Nat.mod_eq_of_lt (Nat.lt_of_le_of_lt hp (by decide))

/-- A subroutine of two instructions returns behind its call. -/
theorem call_returns_round_trip :
    let m := ofProgram [0x22, 0x06, 0x61, 0x01, 0x12, 0x04, 0x60, 0x09, 0x00, 0xEE]
    m.state.fetch = .ok 0x2206 ∧ family 0x2206 = 0x2 ∧ m.state.stack.length < 16 ∧
      ∃ called returned, m.step 0 = (.ok (), called) ∧
        called.StaysAbove 0 [.step 0] ∧
        (called.after [.step 0]).step 0 = (.ok (), returned) ∧
        returned.state.stack = [] ∧ returned.state.pc.toNat = 0x202 := by
  intro m
  have hw : m.state.fetch = .ok 0x2206 := by
    refine State.fetch_eq_ok_iff.mpr ⟨by decide, ?_⟩
    simp only [State.word, m, ofProgram, Memory.get_ofProgram]
    decide
  refine ⟨hw, by decide, by decide, ?_⟩
  obtain ⟨called, hc, -, hr⟩ := call_returns hw (by decide) (by decide) 0
  obtain rfl : (m.step 0).2 = called := by rw [hc]
  have ha : (m.step 0).2.StaysAbove 0 [.step 0] := by
    intro seen hs
    rcases List.prefix_cons_iff.mp hs with rfl | ⟨rest, rfl, ht⟩
    · decide +kernel
    · obtain rfl := List.prefix_nil.mp ht
      decide +kernel
  obtain ⟨byte', returned, he, hs, -, hst, hp⟩ := (hr _ ha).2 (.step 0) (by decide +kernel)
  obtain rfl := Event.step.inj he
  exact ⟨_, returned, hc, ha, hs, hst, hp⟩

end Machine

end HexConsole
