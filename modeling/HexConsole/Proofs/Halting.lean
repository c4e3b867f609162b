import HexConsole.Proofs.Histories
import HexConsole.Proofs.Steps

/-! # After a failure

Whether a step fails does not depend on the timers, nor on the key or the byte that an
instruction would draw. A failed step leaves the state as it was, and nothing that happens
afterwards touches anything else than the timers and the key. So the machine fails for ever.
-/

namespace HexConsole

namespace State

/-- The second state is the first with other timers. -/
def Retimed (s t : State) : Prop := ∃ delay sound, t = { s with delay, sound }

variable {s t u : State}

theorem Retimed.refl (s : State) : s.Retimed s := ⟨s.delay, s.sound, rfl⟩

theorem Retimed.trans (h : s.Retimed t) (h' : t.Retimed u) : s.Retimed u := by
  obtain ⟨delay, sound, rfl⟩ := h
  obtain ⟨delay', sound', rfl⟩ := h'
  exact ⟨delay', sound', rfl⟩

theorem Retimed.fault? (h : s.Retimed t) : t.fault? = s.fault? := by
  obtain ⟨delay, sound, rfl⟩ := h
  rfl

end State

namespace Machine

variable {m m' : Machine} {fault : Fault}

theorem react_step_of_fault (h : m.state.fault? = some fault) (byte : UInt8) :
    m.react (.step byte) = (.stepped (.error fault), m) := by
  simp only [react, step_of_fault h]

theorem retimed_react (h : m.state.fault? = some fault) (event : Event) :
    m.state.Retimed (m.react event).2.state := by
  cases event with
  | step byte =>
    rw [react_step_of_fault h]
    exact .refl _
  | tick => exact ⟨_, _, rfl⟩
  | key key => exact .refl _

theorem retimed_after (h : m.state.fault? = some fault) (events : List Event) :
    m.state.Retimed (m.after events).state := by
  induction events generalizing m with
  | nil => exact .refl _
  | cons event events ih =>
    have hr := retimed_react h event
    exact hr.trans (ih (hr.fault?.trans h))

theorem stepped_mem_answers (h : m.state.fault? = some fault) {events : List Event}
    {result : Except Fault Unit} (ha : .stepped result ∈ m.answers events) :
    result = .error fault := by
  induction events generalizing m with
  | nil => cases ha
  | cons event events ih =>
    rw [answers_cons] at ha
    rcases List.mem_cons.mp ha with he | ha
    · cases event with
      | step byte =>
        rw [react_step_of_fault h] at he
        exact Answer.stepped.inj he
      | tick => cases he
      | key key => cases he
    · exact ih ((retimed_react h event).fault?.trans h) ha

/-- A failed step changes nothing. Whatever happens afterwards, every further step fails with
the same fault, and only the timers and the key go on. -/
theorem step_failure_permanent {byte : UInt8} (h : m.step byte = (.error fault, m')) :
    m' = m ∧ ∀ events : List Event,
      m.state.Retimed (m'.after events).state ∧
      (∀ byte', (m'.after events).step byte' = (.error fault, m'.after events)) ∧
      ∀ result, .stepped result ∈ m'.answers events → result = .error fault := by
  obtain ⟨hf, rfl⟩ := step_eq_error_iff.mp h
  refine ⟨rfl, fun events => ?_⟩
  have hr := retimed_after hf events
  refine ⟨hr, fun byte' => step_of_fault (hr.fault?.trans hf), fun result ha => ?_⟩
  exact stepped_mem_answers hf ha

/-- A return outside of every subroutine fails, and a tick and a key do not change that. -/
theorem step_failure_permanent_return :
    let m := ofProgram [0x00, 0xEE]
    m.step 0 = (.error (.stackUnderflow 0x200), m) ∧
      ((m.after [.tick, .key (.press 7)]).step 1).1 = .error (.stackUnderflow 0x200) := by
  intro m
  have hw : m.state.word = 0x00EE := by
    simp only [State.word, m, ofProgram, Memory.get_ofProgram]
    decide
  have hf : m.state.fault? = some (.stackUnderflow 0x200) := by
    simp only [State.fault?, State.instruction, hw]
    rfl
  have hm : m.step 0 = (.error (.stackUnderflow 0x200), m) := step_of_fault hf
  exact ⟨hm, by rw [((step_failure_permanent hm).2 _).2.1]⟩

end Machine

end HexConsole
