import HexConsole.Proofs.Interleaving

/-! # The sound timer is not seen

No instruction reads the sound timer, and a tick counts it down apart from the rest. So machines
that differ in nothing else go on in the same way, and only their beeps can differ. When one of
them sets its sound timer then so does the other, to the same value, and from there on they are
one machine.
-/

namespace HexConsole

variable {s u : State} {key : Key} {byte : UInt8} {value : UInt8}

namespace Instruction

theorem effect_withSound {i : Instruction} (h : ∀ a, i ≠ setSound a) (key : Key) (byte : UInt8)
    (s : State) (sound : UInt8) :
    i.effect key byte { s with sound } = { i.effect key byte s with sound } := by
  cases i with
  | setSound a => exact absurd rfl (h a)
  | awaitKey a =>
    simp only [effect]
    split <;> rfl
  | _ => rfl

end Instruction

namespace State

/-- The second state is the first with another sound timer. -/
def Resounded (s u : State) : Prop := ∃ sound, u = { s with sound }

theorem Resounded.retimed (h : s.Resounded u) : s.Retimed u := by
  obtain ⟨sound, rfl⟩ := h
  exact ⟨s.delay, sound, rfl⟩

theorem Resounded.setting? (h : s.Resounded u) (t : Timer) : u.setting? t = s.setting? t := by
  obtain ⟨sound, rfl⟩ := h
  rfl

theorem Resounded.next_of_none (h : s.Resounded u) (hf : s.fault? = none)
    (hs : s.setting? .sound = none) : (s.next key byte).Resounded (u.next key byte) := by
  have hi (a : Register) : s.instruction ≠ .setSound a := by
    intro hi
    cases hs.symm.trans (setting?_eq_some_iff.mpr ⟨hf, a, hi, rfl⟩)
  obtain ⟨sound, rfl⟩ := h
  refine ⟨sound, ?_⟩
  have he := Instruction.effect_withSound hi key byte s sound
  have hd := Instruction.destination_retimed s.instruction key s s.delay sound
  simp only [instruction, word, State.next] at he hd ⊢
  rw [he, hd]

theorem Resounded.next_of_some (h : s.Resounded u) (hs : s.setting? .sound = some value) :
    u.next key byte = s.next key byte := by
  obtain ⟨-, a, hi, -⟩ := setting?_eq_some_iff.mp hs
  obtain ⟨sound, rfl⟩ := h
  simp only [instruction, word, State.next] at hi ⊢
  rw [hi]
  rfl

theorem Resounded.next (h : s.Resounded u) (hf : s.fault? = none) :
    (s.next key byte).Resounded (u.next key byte) := by
  cases hs : s.setting? .sound with
  | none => exact h.next_of_none hf hs
  | some value => exact ⟨_, h.next_of_some hs⟩

end State

namespace Machine

variable {m m' : Machine} {event : Event} {events : List Event}

/-- The second machine is the first with another sound timer. -/
def Resounded (m m' : Machine) : Prop := m.state.Resounded m'.state ∧ m'.key = m.key

/-- Answers that are the same unless both are those of ticks. -/
inductive Answer.AlikeButBeeps : Answer → Answer → Prop
  | refl (answer : Answer) : AlikeButBeeps answer answer
  | ticked (beep beep' : Bool) : AlikeButBeeps (.ticked beep) (.ticked beep')

theorem Answer.AlikeButBeeps.result?_eq {answer answer' : Answer}
    (h : answer.AlikeButBeeps answer') : answer'.result? = answer.result? := by
  cases h <;> rfl

theorem filterMap_result?_eq {answers answers' : List Answer}
    (h : List.Forall₂ Answer.AlikeButBeeps answers answers') :
    answers'.filterMap Answer.result? = answers.filterMap Answer.result? := by
  induction h with
  | nil => rfl
  | cons ha _ ih => rw [List.filterMap_cons, List.filterMap_cons, ha.result?_eq, ih]

/-- Machines with different sound timers answer alike but for their beeps. -/
theorem Resounded.react (h : m.Resounded m') (event : Event) :
    (m.react event).1.AlikeButBeeps (m'.react event).1 ∧
      (m.react event).2.Resounded (m'.react event).2 := by
  obtain ⟨hs, hk⟩ := h
  cases event with
  | step byte =>
    have hf' := hs.retimed.fault?
    cases hf : m.state.fault? with
    | some fault =>
      rw [hf] at hf'
      simp only [Machine.react, step_of_fault hf, step_of_fault hf']
      exact ⟨.refl _, hs, hk⟩
    | none =>
      rw [hf] at hf'
      simp only [Machine.react, step_of_none hf, step_of_none hf', hk]
      exact ⟨.refl _, hs.next hf, rfl⟩
  | tick =>
    obtain ⟨sound, hs⟩ := hs
    refine ⟨.ticked _ _, ⟨countDown sound, ?_⟩, hk⟩
    simp only [Machine.react, tick, hs]
  | key key => exact ⟨.refl _, hs, rfl⟩

/-- An event that sets the sound timer leaves nothing that differs. -/
theorem Resounded.react_of_some (h : m.Resounded m')
    (he : m.setting? .sound event = some value) : (m'.react event).2 = (m.react event).2 := by
  obtain ⟨hs, hk⟩ := h
  cases event with
  | step byte =>
    have hf := (State.setting?_eq_some_iff.mp he).1
    have hf' := hs.retimed.fault?.trans hf
    simp only [Machine.react, step_of_none hf, step_of_none hf', hk]
    rw [hs.next_of_some he]
  | tick => cases he
  | key key => cases he

theorem Resounded.answers (h : m.Resounded m') (events : List Event) :
    List.Forall₂ Answer.AlikeButBeeps (m.answers events) (m'.answers events) ∧
      (m.after events).Resounded (m'.after events) := by
  have he : List.Forall₂ Eq events events := List.forall₂_same.mpr fun _ _ => rfl
  refine forall₂_answers ?_ h he
  rintro m m' event _ h rfl
  exact h.react event

/-- Machines that differ in the sound timer alone have the same results and differ in nothing
else after any history; only the answers to ticks may differ. An event that sets the sound timer
makes them equal, and whatever follows is answered alike, the beeps included. -/
theorem sound_timer_unseen (h : m.Resounded m') :
    (∀ events, m'.results events = m.results events ∧
      List.Forall₂ Answer.AlikeButBeeps (m.answers events) (m'.answers events) ∧
      (m.after events).Resounded (m'.after events)) ∧
    ∀ before event value, (m.after before).setting? .sound event = some value →
      m'.after (before ++ [event]) = m.after (before ++ [event]) ∧
      ∀ since, m'.after (before ++ event :: since) = m.after (before ++ event :: since) ∧
        (m'.after (before ++ [event])).answers since =
          (m.after (before ++ [event])).answers since := by
  refine ⟨fun events => ?_, fun before event value he => ?_⟩
  · obtain ⟨ha, hm⟩ := h.answers events
    exact ⟨filterMap_result?_eq ha, ha, hm⟩
  · have hm := ((h.answers before).2).react_of_some he
    rw [after_concat, after_concat, hm]
    refine ⟨rfl, fun since => ⟨?_, rfl⟩⟩
    rw [after_append, after_append, after_cons, after_cons, hm]

/-- A timer that is left from before beeps once more and is then set like the other. -/
theorem sound_timer_unseen_leftover :
    let m := ofProgram [0x60, 0x03, 0xF0, 0x18]
    let m' : Machine := { m with state := { m.state with sound := 2 } }
    let before : List Event := [.tick, .step 0, .tick]
    m.Resounded m' ∧ m.beeps before = 0 ∧ m'.beeps before = 1 ∧
      m'.results before = m.results before ∧
      m'.after (before ++ [.step 0]) = m.after (before ++ [.step 0]) := by
  intro m m' before
  have h : m.Resounded m' := ⟨⟨2, rfl⟩, rfl⟩
  have hs : (m.after before).setting? .sound (.step 0) = some 3 := by decide +kernel
  obtain ⟨ha, hm⟩ := sound_timer_unseen h
  exact ⟨h, by decide +kernel, by decide +kernel, (ha before).1, (hm before _ 3 hs).1⟩

end Machine

end HexConsole
