import HexConsole.Machine.History
import HexConsole.Proofs.Steps

/-! # Reachable machines

Whatever programs are loaded and run, the stack stays within its depth, the program counter
stays within a few hundred bytes of memory, and every cell of the screen is zero or one.
A fetch bounds the program counter, a word bounds the address of a jump, and the stack holds
nothing but program counters of calls. So no destination of a step ever wraps around.
-/

namespace HexConsole

namespace Screen

/-- Every cell is zero or one. -/
def Binary (s : Screen) : Prop := ∀ x y, s.cell x y = 0 ∨ s.cell x y = 1

variable {s : Screen}

theorem binary_dark : dark.Binary := fun x y => .inl (cell_dark x y)

theorem Binary.toggle (h : s.Binary) (x y : Nat) : (s.toggle x y).2.Binary := by
  intro a b
  simp only [Screen.toggle, cell_setCell]
  split
  · rcases h x y with hc | hc <;> simp [hc]
  · exact h a b

theorem Binary.foldl_toggleNext {drawn : Bool × Screen} (h : drawn.2.Binary)
    (points : List (Nat × Nat)) : (points.foldl toggleNext drawn).2.Binary := by
  induction points generalizing drawn with
  | nil => exact h
  | cons point points ih => exact ih (h.toggle point.1 point.2)

theorem Binary.drawSprite (h : s.Binary) (x y : Nat) (sprite : List UInt8) :
    (s.drawSprite x y sprite).2.Binary := by
  rw [drawSprite_eq_toggleAll]
  exact Binary.foldl_toggleNext h _

end Screen

namespace State

/-- What holds of the state of a running machine. -/
structure Bounded (s : State) : Prop where
  depth : s.stack.length ≤ 16
  callers : ∀ caller ∈ s.stack, caller.toNat ≤ 0xFFE
  pc : s.pc.toNat ≤ 0x10FE
  cells : s.screen.Binary

variable {s : State} {key : Key} {byte : UInt8}

theorem initial_bounded : initial.Bounded where
  depth := by decide
  callers := nofun
  pc := by decide
  cells := Screen.binary_dark

theorem pc_le_of_fault?_eq_none (h : s.fault? = none) : s.pc.toNat ≤ 0xFFE := by
  have hp : s.pc.toNat + 2 ≤ 4096 := (fault?_eq_none_iff.mp h).1
  omega

theorem Bounded.caller_le (hs : s.Bounded) : (s.stack.headD 0).toNat ≤ 0xFFE := by
  cases h : s.stack with
  | nil => decide
  | cons caller stack => exact hs.callers caller (h ▸ List.mem_cons_self)

theorem Bounded.destination_le (hs : s.Bounded) (hf : s.fault? = none) (key : Key) :
    s.instruction.destination key s ≤ 0x10FE := by
  have hp := pc_le_of_fault?_eq_none hf
  have hw := Instruction.wellFormed_decode s.word
  have hb (condition : Bool) : s.pc.toNat + Flow.stride condition ≤ 0x10FE := by
    have : Flow.stride condition ≤ 4 := Flow.stride_le condition
    omega
  rw [instruction]
  cases hi : Instruction.decode s.word with
  | leave => exact Nat.le_trans (Nat.add_le_add_right hs.caller_le 2) (by decide)
  | jump addr | call addr =>
    rw [hi] at hw
    have ha : addr.toNat < 4096 := UInt16.lt_iff_toNat_lt.mp hw
    exact Nat.le_trans (Nat.le_of_lt ha) (by decide)
  | jumpOffset addr =>
    rw [hi] at hw
    have ha : addr.toNat < 4096 := UInt16.lt_iff_toNat_lt.mp hw
    exact Nat.add_le_add (Nat.le_of_lt_succ ha) (Nat.le_of_lt_succ (s.reg 0).toNat_lt)
  | awaitKey x =>
    simp only [Instruction.destination]
    split
    · exact hb false
    · exact hs.pc
  | skipEqByte | skipNeByte | skipEq | skipNe | skipKeyDown | skipKeyUp => exact hb _
  | _ => exact hb false

/-- The program counter after a step is its destination, which does not wrap around. -/
theorem Bounded.toNat_pc_next (hs : s.Bounded) (hf : s.fault? = none) :
    (s.next key byte).pc.toNat = s.instruction.destination key s :=
  UInt16.toNat_ofNat_of_lt' (Nat.lt_of_le_of_lt (hs.destination_le hf key) (by decide))

theorem Bounded.length_stack_next (hs : s.Bounded) (hf : s.fault? = none) :
    (s.next key byte).stack.length ≤ 16 := by
  have hi := (fault?_eq_none_iff.mp hf).2
  have hd := hs.depth
  simp only [next, Instruction.effect_stack]
  split
  case h_1 =>
    rw [List.length_tail]
    omega
  case h_2 he =>
    rw [he] at hi
    have hl : s.stack.length ≠ 16 := fun hl => by simp [Instruction.fault?, hl] at hi
    rw [List.length_cons]
    omega
  case h_3 => exact hd

theorem Bounded.callers_next (hs : s.Bounded) (hf : s.fault? = none) :
    ∀ caller ∈ (s.next key byte).stack, caller.toNat ≤ 0xFFE := by
  simp only [next, Instruction.effect_stack]
  split
  · exact fun caller hc => hs.callers caller (List.mem_of_mem_tail hc)
  · intro caller hc
    rcases List.mem_cons.mp hc with rfl | hc
    · exact pc_le_of_fault?_eq_none hf
    · exact hs.callers caller hc
  · exact hs.callers

theorem Bounded.binary_screen_next (hs : s.Bounded) : (s.next key byte).screen.Binary := by
  simp only [next, Instruction.effect_screen]
  split
  · exact Screen.binary_dark
  · exact hs.cells.drawSprite _ _ _
  · exact hs.cells

theorem Bounded.next (hs : s.Bounded) (hf : s.fault? = none) : (s.next key byte).Bounded where
  depth := hs.length_stack_next hf
  callers := hs.callers_next hf
  pc := hs.toNat_pc_next hf ▸ hs.destination_le hf key
  cells := hs.binary_screen_next

end State

namespace Machine

/-- The machines that come from a new one by loading, resetting, steps, ticks and keys. -/
inductive Reachable : Machine → Prop
  | initial : Reachable .initial
  | load {m : Machine} (source : Source) : Reachable m → Reachable (m.load source).2
  | reset {m : Machine} : Reachable m → Reachable m.reset
  | react {m : Machine} (event : Event) : Reachable m → Reachable (m.react event).2

variable {m : Machine}

theorem bounded_load (h : m.state.Bounded) (source : Source) :
    (m.load source).2.state.Bounded := by
  cases source with
  | whole bytes =>
    obtain ⟨hd, hc, hp, hs⟩ := State.initial_bounded
    exact ⟨hd, hc, hp, hs⟩
  | broken bytes reason => exact h

theorem bounded_react (h : m.state.Bounded) (event : Event) :
    (m.react event).2.state.Bounded := by
  cases event with
  | step byte =>
    cases hf : m.state.fault? with
    | none =>
      simp only [react, step_of_none hf]
      exact h.next hf
    | some fault =>
      simp only [react, step_of_fault hf]
      exact h
  | tick => exact { h with }
  | key key => exact h

theorem Reachable.bounded (h : Reachable m) : m.state.Bounded := by
  induction h with
  | initial => exact State.initial_bounded
  | load source _ ih => exact bounded_load ih source
  | reset _ _ => exact State.initial_bounded
  | react event _ ih => exact bounded_react ih event

/-- Every reachable machine is within its bounds, and a successful step from it leads to the
destination of its instruction without wrapping around. -/
theorem reachable_bounded (h : Reachable m) :
    m.state.Bounded ∧ ∀ byte m', m.step byte = (.ok (), m') →
      m'.state.pc.toNat = m.state.instruction.destination m.key m.state := by
  refine ⟨h.bounded, fun byte m' hm => ?_⟩
  obtain ⟨hf, rfl⟩ := step_eq_ok_iff.mp hm
  exact h.bounded.toNat_pc_next hf

/-- The highest address to which a program can jump is reached. -/
theorem reachable_bounded_far_jump :
    let m := ((initial.load (.whole [0x60, 0xFF, 0xBF, 0xFF])).2.react (.step 0)).2
    Reachable m ∧ m.state.Bounded ∧
      ∃ m', m.step 0 = (.ok (), m') ∧ m'.state.pc.toNat = 0x10FE := by
  intro m
  have hm : Reachable m := .react _ (.load _ .initial)
  have hf : m.state.fault? = none := by decide +kernel
  obtain ⟨hb, hd⟩ := reachable_bounded hm
  refine ⟨hm, hb, _, step_of_none hf, ?_⟩
  rw [hd 0 _ (step_of_none hf)]
  decide +kernel

end Machine

end HexConsole
