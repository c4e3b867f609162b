import HexConsole.Proofs.Histories
import HexConsole.Proofs.Steps
import Mathlib.Data.List.Induction

/-! # Timers

A timer changes only when it is set and when it ticks. So it holds what it was set to last,
less the ticks since then, and the sound timer runs out at the one tick that brings it from
one to zero.
-/

namespace HexConsole

open Opcode

/-- The two timers. -/
inductive Timer where
  | delay
  | sound

namespace Timer

/-- The last two digits of the words that set a timer. -/
def code : Timer → UInt8
  | delay => 0x15
  | sound => 0x18

/-- The instruction that sets a timer to the value of a register. -/
def setter : Timer → Register → Instruction
  | delay => .setDelay
  | sound => .setSound

end Timer

variable {t : Timer} {value : UInt8}

theorem toNat_countDown (value : UInt8) : (countDown value).toNat = value.toNat - 1 := by
  unfold countDown
  split
  case isTrue h => rw [h]; rfl
  case isFalse h =>
    have hv : 1 ≤ value := UInt8.le_iff_toNat_le.mpr <| Nat.pos_of_ne_zero fun h0 =>
      h (UInt8.toNat.inj h0)
    exact UInt8.toNat_sub_of_le value 1 hv

namespace Instruction

theorem decode_setter_iff {w : UInt16} {a : Register} :
    decode w = t.setter a ↔ family w = 0xF ∧ x w = a ∧ kk w = t.code := by
  cases t with
  | delay => exact decode_transfer_iff _ id trivial rfl
  | sound => exact decode_transfer_iff _ id trivial rfl

end Instruction

namespace State

variable {s : State} {key : Key} {byte : UInt8}

/-- The value of a timer. -/
def timer (s : State) : Timer → UInt8
  | .delay => s.delay
  | .sound => s.sound

/-- The value to which the next step sets a timer, if the word at the program counter is one
that sets it. -/
def setting? (s : State) (t : Timer) : Option UInt8 :=
  match s.fetch with
  | .ok w => if family w = 0xF ∧ kk w = t.code then some (s.reg (x w)) else none
  | .error _ => none

theorem setting?_eq_some_iff :
    s.setting? t = some value ↔
      s.fault? = none ∧ ∃ a, s.instruction = t.setter a ∧ s.reg a = value := by
  constructor
  · intro h
    unfold setting? at h
    split at h
    case h_1 w hw =>
      obtain ⟨⟨hf, hk⟩, hv⟩ := Option.ite_none_right_eq_some.mp h
      obtain ⟨hp, rfl⟩ := fetch_eq_ok_iff.mp hw
      have hi : s.instruction = t.setter (x s.word) :=
        Instruction.decode_setter_iff.mpr ⟨hf, rfl, hk⟩
      have hn : s.instruction.fault? s = none := by rw [hi]; cases t <;> rfl
      exact ⟨fault?_eq_none_iff.mpr ⟨hp, hn⟩, _, hi, Option.some.inj hv⟩
    case h_2 => cases h
  · rintro ⟨hf, a, hi, rfl⟩
    have hw := fetch_eq_ok_iff.mpr ⟨(fault?_eq_none_iff.mp hf).1, rfl⟩
    obtain ⟨hf, rfl, hk⟩ := Instruction.decode_setter_iff.mp hi
    simp only [setting?, hw]
    exact if_pos ⟨hf, hk⟩

theorem timer_effect_of_ne {i : Instruction} (h : ∀ a, i ≠ t.setter a) :
    (i.effect key byte s).timer t = s.timer t := by
  cases i with
  | setDelay a =>
    cases t with
    | delay => exact absurd rfl (h a)
    | sound => rfl
  | setSound a =>
    cases t with
    | delay => rfl
    | sound => exact absurd rfl (h a)
  | awaitKey a =>
    simp only [Instruction.effect]
    split
    · cases t <;> rfl
    · rfl
  | _ => cases t <;> rfl

theorem timer_next (t : Timer) :
    (s.next key byte).timer t = (s.instruction.effect key byte s).timer t := by
  cases t <;> rfl

theorem timer_next_of_some (h : s.setting? t = some value) :
    (s.next key byte).timer t = value := by
  obtain ⟨-, a, hi, rfl⟩ := setting?_eq_some_iff.mp h
  rw [timer_next, hi]
  cases t <;> rfl

theorem timer_next_of_none (hf : s.fault? = none) (h : s.setting? t = none) :
    (s.next key byte).timer t = s.timer t := by
  rw [timer_next]
  apply timer_effect_of_ne
  intro a hi
  have hs := setting?_eq_some_iff.mpr ⟨hf, a, hi, rfl⟩
  rw [h] at hs
  cases hs

end State

namespace Machine

variable {m : Machine} {event : Event} {before since events : List Event}

/-- The value to which an event sets a timer, if it sets it. -/
def setting? (m : Machine) (t : Timer) : Event → Option UInt8
  | .step _ => m.state.setting? t
  | .tick | .key _ => none

/-- No event of a history sets a timer. -/
def NeverSets (m : Machine) (t : Timer) (events : List Event) : Prop :=
  m.Throughout (fun m event => m.setting? t event = none) events

/-- What a timer was set to last during a history, which is cut behind the event that set it;
if there is none, the timer counts as set to zero before the history. -/
inductive LastSet (m : Machine) (t : Timer) : List Event → UInt8 → List Event → Prop
  | never {since : List Event} : m.NeverSets t since → LastSet m t [] 0 since
  | set {before since : List Event} {event : Event} {value : UInt8} :
    (m.after before).setting? t event = some value →
    (m.after (before ++ [event])).NeverSets t since →
    LastSet m t (before ++ [event]) value since

theorem timer_react_of_some (h : m.setting? t event = some value) :
    (m.react event).2.state.timer t = value := by
  cases event with
  | step byte =>
    have hf := (State.setting?_eq_some_iff.mp h).1
    simp only [react, step_of_none hf]
    exact State.timer_next_of_some h
  | tick => cases h
  | key key => cases h

theorem timer_step_of_none (h : m.state.setting? t = none) (byte : UInt8) :
    (m.step byte).2.state.timer t = m.state.timer t := by
  cases hf : m.state.fault? with
  | none =>
    rw [step_of_none hf]
    exact State.timer_next_of_none hf h
  | some fault => rw [step_of_fault hf]

theorem toNat_timer_tick (m : Machine) (t : Timer) :
    (m.tick.2.state.timer t).toNat = (m.state.timer t).toNat - 1 := by
  cases t with
  | delay => exact toNat_countDown _
  | sound => exact toNat_countDown _

theorem tick_beep_iff : m.tick.1 = true ↔ (m.state.timer .sound).toNat = 1 := by
  rw [← UInt8.toNat_one, UInt8.toNat_inj]
  exact beq_iff_eq

/-- A timer that is not set during a history falls with its ticks. -/
theorem toNat_timer_after (h : m.NeverSets t events) :
    ((m.after events).state.timer t).toNat =
      (m.state.timer t).toNat - events.count .tick := by
  induction events generalizing m with
  | nil => rfl
  | cons event events ih =>
    obtain ⟨he, h⟩ := h
    rw [after_cons, ih h]
    cases event with
    | step byte =>
      rw [List.count_cons_of_ne (by simp)]
      congr 2
      exact timer_step_of_none he byte
    | tick =>
      have ht := toNat_timer_tick m t
      rw [List.count_cons_self]
      simp only [react, ht]
      omega
    | key key =>
      rw [List.count_cons_of_ne (by simp)]
      rfl

/-- The sound timer runs out once, namely when as many ticks have passed as it held. -/
theorem beeps_of_neverSets (h : m.NeverSets .sound events) :
    m.beeps events =
      if 1 ≤ m.state.sound.toNat ∧ m.state.sound.toNat ≤ events.count .tick then 1 else 0 := by
  induction events generalizing m with
  | nil =>
    refine (if_neg ?_).symm
    rintro ⟨hl, hu⟩
    exact absurd (Nat.le_trans hl hu) (by decide)
  | cons event events ih =>
    obtain ⟨he, h⟩ := h
    rw [beeps_cons, ih h]
    cases event with
    | step byte =>
      have hs : (m.step byte).2.state.sound = m.state.sound := timer_step_of_none he byte
      rw [List.count_cons_of_ne (by simp)]
      simp only [react, hs]
      rfl
    | tick =>
      have ht : m.tick.2.state.sound.toNat = m.state.sound.toNat - 1 :=
        toNat_timer_tick m .sound
      have hb : (Answer.ticked m.tick.1).isBeep = true ↔ m.state.sound.toNat = 1 :=
        tick_beep_iff
      rw [List.count_cons_self]
      simp only [react, ht, hb]
      split <;> split <;> split <;> omega
    | key key =>
      rw [List.count_cons_of_ne (by simp)]
      rfl

theorem exists_lastSet (m : Machine) (t : Timer) (events : List Event) :
    ∃ before value since, events = before ++ since ∧ m.LastSet t before value since := by
  induction events using List.reverseRecOn with
  | nil => exact ⟨[], 0, [], rfl, .never trivial⟩
  | append_singleton events event ih =>
    cases he : (m.after events).setting? t event with
    | some value =>
      exact ⟨events ++ [event], value, [], (List.append_nil _).symm, .set he trivial⟩
    | none =>
      obtain ⟨before, value, since, rfl, h⟩ := ih
      rw [after_append] at he
      refine ⟨before, value, since ++ [event], List.append_assoc .., ?_⟩
      cases h with
      | never hn => exact .never (throughout_append.mpr ⟨hn, he, trivial⟩)
      | set hs hn => exact .set hs (throughout_append.mpr ⟨hn, he, trivial⟩)

theorem LastSet.timer_after (h : m.LastSet t before value since) (h0 : m.state.timer t = 0) :
    (m.after before).state.timer t = value ∧ (m.after before).NeverSets t since := by
  cases h with
  | never hn => exact ⟨h0, hn⟩
  | set hs hn =>
    refine ⟨?_, hn⟩
    rw [after_concat]
    exact timer_react_of_some hs

/-- After a program was loaded, a timer holds what it was set to last, less the ticks since
then. A tick is a beep exactly if it is the one with which as many have passed as the sound
timer was set to, so each setting leads to one beep or none. -/
theorem timers_closed_form (m₀ : Machine) (program : List UInt8) :
    let m := (m₀.load (.whole program)).2
    (∀ t events, ∃ before value since,
      events = before ++ since ∧ m.LastSet t before value since) ∧
    (∀ t before value (since : List Event), m.LastSet t before value since →
      ((m.after (before ++ since)).state.timer t).toNat = value.toNat - since.count .tick) ∧
    ∀ before value (since : List Event), m.LastSet .sound before value since →
      ((m.after (before ++ since)).tick.1 = true ↔
        1 ≤ value.toNat ∧ since.count .tick + 1 = value.toNat) ∧
      (m.after before).beeps since =
        if 1 ≤ value.toNat ∧ value.toNat ≤ since.count .tick then 1 else 0 := by
  intro m
  have h0 (t : Timer) : m.state.timer t = 0 := by cases t <;> rfl
  refine ⟨exists_lastSet m, ?_, ?_⟩
  · intro t before value since h
    obtain ⟨rfl, hn⟩ := h.timer_after (h0 t)
    rw [after_append]
    exact toNat_timer_after hn
  · intro before value since h
    obtain ⟨rfl, hn⟩ := h.timer_after (h0 .sound)
    refine ⟨?_, beeps_of_neverSets hn⟩
    rw [after_append, tick_beep_iff, toNat_timer_after hn]
    omega

/-- A sound timer that was set to three runs out at the third tick. -/
theorem timers_closed_form_three_ticks :
    let m := (initial.load (.whole [0x60, 0x03, 0xF0, 0x18])).2
    let since : List Event := [.tick, .key (.press 5), .tick]
    m.LastSet .sound [.step 0, .step 0] 3 since ∧
      ((m.after ([.step 0, .step 0] ++ since)).state.timer .sound).toNat = 1 ∧
      (m.after ([.step 0, .step 0] ++ since)).tick.1 = true ∧
      (m.after [.step 0, .step 0]).beeps since = 0 := by
  intro m since
  have hs : (m.after [.step 0]).setting? .sound (.step 0) = some 3 := by decide +kernel
  have h : m.LastSet .sound ([.step 0] ++ [.step 0]) 3 since :=
    .set hs ⟨rfl, rfl, rfl, trivial⟩
  obtain ⟨-, ht, hb⟩ := timers_closed_form initial [0x60, 0x03, 0xF0, 0x18]
  obtain ⟨hi, hc⟩ := hb _ _ _ h
  exact ⟨h, ht _ _ _ _ h, hi.mpr ⟨by decide, rfl⟩, hc⟩

end Machine

end HexConsole
