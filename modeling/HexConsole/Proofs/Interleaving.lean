import HexConsole.Proofs.Halting
import HexConsole.Proofs.Timers

/-! # Ticks among other events

Instructions that neither read nor set a timer do not notice ticks, and ticks do not notice
them. So as long as only such instructions are executed, ticks may be moved about among the
steps and the keys of a history: the steps have the same results, there are as many beeps,
and the machine is the same in the end.
-/

namespace HexConsole

open Opcode

variable {s u : State}

namespace Instruction

variable {i : Instruction} {w : UInt16}

/-- An instruction neither reads nor sets a timer. -/
def TimerFree : Instruction → Prop
  | readDelay _ | setDelay _ | setSound _ => False
  | _ => True

theorem timerFree_decode
    (h : ¬(family w = 0xF ∧ (kk w = 0x07 ∨ kk w = 0x15 ∨ kk w = 0x18))) :
    (decode w).TimerFree := by
  cases hi : decode w with
  | readDelay a =>
    obtain ⟨hf, -, hk⟩ := (decode_transfer_iff (.readDelay a) id trivial rfl).mp hi
    exact h ⟨hf, .inl hk⟩
  | setDelay a =>
    obtain ⟨hf, -, hk⟩ := (decode_transfer_iff (.setDelay a) id trivial rfl).mp hi
    exact h ⟨hf, .inr (.inl hk)⟩
  | setSound a =>
    obtain ⟨hf, -, hk⟩ := (decode_transfer_iff (.setSound a) id trivial rfl).mp hi
    exact h ⟨hf, .inr (.inr hk)⟩
  | _ => trivial

theorem effect_retimed (h : i.TimerFree) (key : Key) (byte : UInt8) (s : State)
    (delay sound : UInt8) :
    i.effect key byte { s with delay, sound } = { i.effect key byte s with delay, sound } := by
  cases i with
  | awaitKey a =>
    simp only [effect]
    split <;> rfl
  | readDelay a | setDelay a | setSound a => exact h.elim
  | _ => rfl

theorem destination_retimed (i : Instruction) (key : Key) (s : State) (delay sound : UInt8) :
    i.destination key { s with delay, sound } = i.destination key s := by
  cases i <;> rfl

end Instruction

namespace State

/-- The word at the program counter, if there is one, neither reads nor sets a timer. -/
def TimerFree (s : State) : Prop :=
  ∀ w, s.fetch = .ok w → ¬(family w = 0xF ∧ (kk w = 0x07 ∨ kk w = 0x15 ∨ kk w = 0x18))

theorem Retimed.symm (h : s.Retimed u) : u.Retimed s := by
  obtain ⟨delay, sound, rfl⟩ := h
  exact ⟨s.delay, s.sound, rfl⟩

theorem Retimed.fetch (h : s.Retimed u) : u.fetch = s.fetch := by
  obtain ⟨delay, sound, rfl⟩ := h
  rfl

theorem Retimed.timerFree_iff (h : s.Retimed u) : u.TimerFree ↔ s.TimerFree := by
  rw [TimerFree, TimerFree, h.fetch]

theorem Retimed.eq (h : s.Retimed u) (ht : ∀ t, u.timer t = s.timer t) : u = s := by
  obtain ⟨delay, sound, rfl⟩ := h
  have hd : delay = s.delay := ht .delay
  have hs : sound = s.sound := ht .sound
  rw [hd, hs]

theorem TimerFree.next (hs : s.TimerFree) (hf : s.fault? = none) (h : s.Retimed u) (key : Key)
    (byte : UInt8) : (s.next key byte).Retimed (u.next key byte) := by
  have hw := hs s.word (fetch_eq_ok_iff.mpr ⟨(fault?_eq_none_iff.mp hf).1, rfl⟩)
  have hi : s.instruction.TimerFree := Instruction.timerFree_decode hw
  obtain ⟨delay, sound, rfl⟩ := h
  refine ⟨delay, sound, ?_⟩
  have he := Instruction.effect_retimed hi key byte s delay sound
  have hd := Instruction.destination_retimed s.instruction key s delay sound
  simp only [instruction, word, State.next] at he hd ⊢
  rw [he, hd]

theorem TimerFree.setting?_eq_none (h : s.TimerFree) (t : Timer) : s.setting? t = none := by
  unfold setting?
  split
  case h_1 w hw =>
    refine if_neg ?_
    rintro ⟨hf, hk⟩
    cases t with
    | delay => exact h w hw ⟨hf, .inr (.inl hk)⟩
    | sound => exact h w hw ⟨hf, .inr (.inr hk)⟩
  case h_2 => rfl

end State

namespace Machine

variable {m m' m'' : Machine} {event : Event} {events events' : List Event}

/-- The second machine is the first with other timers. -/
def Retimed (m m' : Machine) : Prop := m.state.Retimed m'.state ∧ m'.key = m.key

/-- An event executes no instruction that reads or sets a timer. -/
def Avoids (m : Machine) : Event → Prop
  | .step _ => m.state.TimerFree
  | .tick | .key _ => True

/-- No instruction executed during a history reads or sets a timer. -/
def AvoidsTimers (m : Machine) (events : List Event) : Prop := m.Throughout Avoids events

/-- The steps and the keys of a history. -/
def withoutTicks (events : List Event) : List Event := events.filter (· ≠ .tick)

theorem withoutTicks_cons_tick (events : List Event) :
    withoutTicks (.tick :: events) = withoutTicks events :=
  List.filter_cons_of_neg (by simp)

theorem withoutTicks_cons (he : event ≠ .tick) (events : List Event) :
    withoutTicks (event :: events) = event :: withoutTicks events :=
  List.filter_cons_of_pos (by simp [he])

theorem Retimed.refl (m : Machine) : m.Retimed m := ⟨.refl _, rfl⟩

theorem Retimed.symm (h : m.Retimed m') : m'.Retimed m := ⟨h.1.symm, h.2.symm⟩

theorem Retimed.trans (h : m.Retimed m') (h' : m'.Retimed m'') : m.Retimed m'' :=
  ⟨h.1.trans h'.1, h'.2.trans h.2⟩

theorem retimed_tick (m : Machine) : m.Retimed m.tick.2 := ⟨⟨_, _, rfl⟩, rfl⟩

theorem Retimed.avoids_iff (h : m.Retimed m') (event : Event) :
    m'.Avoids event ↔ m.Avoids event := by
  cases event with
  | step byte => exact h.1.timerFree_iff
  | tick => exact Iff.rfl
  | key key => exact Iff.rfl

theorem Retimed.eq (h : m.Retimed m') (ht : ∀ t, m'.state.timer t = m.state.timer t) :
    m' = m := by
  obtain ⟨state, key⟩ := m
  obtain ⟨state', key'⟩ := m'
  obtain ⟨hs, rfl⟩ := h
  obtain rfl := hs.eq ht
  rfl

/-- A machine with other timers answers alike to an event that has nothing to do with them. -/
theorem Retimed.react (h : m.Retimed m') (he : event ≠ .tick) (ha : m.Avoids event) :
    (m'.react event).1 = (m.react event).1 ∧ (m.react event).2.Retimed (m'.react event).2 := by
  cases event with
  | step byte =>
    have hf' := h.1.fault?
    cases hf : m.state.fault? with
    | some fault =>
      rw [hf] at hf'
      simp only [Machine.react, step_of_fault hf, step_of_fault hf']
      exact ⟨trivial, h⟩
    | none =>
      rw [hf] at hf'
      simp only [Machine.react, step_of_none hf, step_of_none hf', h.2]
      exact ⟨trivial, ha.next hf h.1 m.key byte, rfl⟩
  | tick => exact absurd rfl he
  | key key => exact ⟨rfl, h.1, rfl⟩

theorem Retimed.avoidsTimers_iff (h : m.Retimed m') (events : List Event) :
    m'.AvoidsTimers events ↔ m.AvoidsTimers (withoutTicks events) := by
  induction events generalizing m m' with
  | nil => exact Iff.rfl
  | cons event events ih =>
    by_cases he : event = .tick
    · subst he
      rw [withoutTicks_cons_tick, ← ih (h.trans (retimed_tick m'))]
      exact and_iff_right trivial
    · rw [withoutTicks_cons he]
      refine and_congr_left' (h.avoids_iff event) |>.trans (and_congr_right fun ha => ?_)
      exact ih (h.react he ha).2

/-- Leaving the ticks out changes the timers in the end, but no result before. -/
theorem Retimed.after_withoutTicks (h : m.Retimed m')
    (ha : m.AvoidsTimers (withoutTicks events)) :
    m'.results events = m.results (withoutTicks events) ∧
      (m.after (withoutTicks events)).Retimed (m'.after events) := by
  induction events generalizing m m' with
  | nil => exact ⟨rfl, h⟩
  | cons event events ih =>
    by_cases he : event = .tick
    · subst he
      rw [withoutTicks_cons_tick] at ha ⊢
      exact ih (h.trans (retimed_tick m')) ha
    · rw [withoutTicks_cons he] at ha ⊢
      obtain ⟨hr, hm⟩ := h.react he ha.1
      obtain ⟨hrs, hms⟩ := ih hm ha.2
      rw [results_cons, results_cons, hr, hrs]
      exact ⟨rfl, hms⟩

theorem AvoidsTimers.neverSets (h : m.AvoidsTimers events) (t : Timer) : m.NeverSets t events := by
  refine Throughout.imp ?_ h
  intro m event ha
  cases event with
  | step byte => exact ha.setting?_eq_none t
  | tick => rfl
  | key key => rfl

/-- Where the ticks of a history stand makes no difference to the results of its steps, to
the number of beeps and to the machine in the end, if no instruction that is executed reads or
sets a timer. -/
theorem tick_placement_irrelevant (ha : m.AvoidsTimers events)
    (ht : events'.count .tick = events.count .tick)
    (hw : withoutTicks events' = withoutTicks events) :
    m.results events' = m.results events ∧ m.beeps events' = m.beeps events ∧
      m.after events' = m.after events := by
  have hr := Retimed.refl m
  have hs : m.AvoidsTimers (withoutTicks events) := (hr.avoidsTimers_iff events).mp ha
  have hs' : m.AvoidsTimers (withoutTicks events') := hw ▸ hs
  have ha' : m.AvoidsTimers events' := (hr.avoidsTimers_iff events').mpr hs'
  obtain ⟨hrs, hm⟩ := hr.after_withoutTicks hs
  obtain ⟨hrs', hm'⟩ := hr.after_withoutTicks hs'
  rw [hw] at hrs' hm'
  refine ⟨hrs'.trans hrs.symm, ?_, (hm.symm.trans hm').eq ?_⟩
  · rw [beeps_of_neverSets (ha.neverSets _), beeps_of_neverSets (ha'.neverSets _), ht]
  · intro t
    apply UInt8.toNat.inj
    rw [toNat_timer_after (ha.neverSets t), toNat_timer_after (ha'.neverSets t), ht]

/-- A beep comes before or after a key is awaited and a return fails, and all else is alike. -/
theorem tick_placement_irrelevant_failing_return :
    let m : Machine :=
      ⟨{ State.initial with memory := .ofProgram [0xF5, 0x0A, 0x00, 0xEE], sound := 2 }, .released⟩
    let early : List Event := [.tick, .tick, .step 0, .key (.press 7), .step 0, .step 0]
    let late : List Event := [.step 0, .key (.press 7), .step 0, .tick, .step 0, .tick]
    m.AvoidsTimers early ∧ m.results late = m.results early ∧ m.beeps late = m.beeps early ∧
      m.after late = m.after early := by
  intro m early late
  have ht {s : State} {w : UInt16} (hf : s.fetch = .ok w) (hk : kk w = 0x0A ∨ kk w = 0xEE) :
      s.TimerFree := by
    intro v hv
    obtain rfl := Except.ok.inj (hf.symm.trans hv)
    rintro ⟨-, h⟩
    rcases hk with hk | hk <;> rw [hk] at h <;> revert h <;> decide
  have ha : m.AvoidsTimers early := by
    refine ⟨trivial, trivial, ht (w := 0xF50A) ?_ (by decide), trivial,
      ht (w := 0xF50A) ?_ (by decide), ht (w := 0x00EE) ?_ (by decide), trivial⟩
    all_goals decide +kernel
  exact ⟨ha, tick_placement_irrelevant ha rfl rfl⟩

end Machine

end HexConsole
