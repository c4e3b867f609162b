import HexConsole.Proofs.Halting
import HexConsole.Proofs.Timers

/-! # Waiting for a key

A machine that waits for a key executes the same instruction over and over, and nothing but its
timers goes on. Where the instruction stands and what it does depend neither on the timers nor
on keys that are not pressed, so the first pressed key that a step sees ends the wait.
-/

namespace HexConsole

open Opcode

variable {a : Register} {w : UInt16} {key : Key} {byte : UInt8}

namespace State

/-- The instruction at the program counter waits for a key for some register. -/
structure Awaits (s : State) (a : Register) : Prop where
  fault? : s.fault? = none
  instruction : s.instruction = .awaitKey a

variable {s t : State}

theorem awaits_of_fetch (hw : s.fetch = .ok w) (hf : family w = 0xF) (hk : kk w = 0x0A) :
    s.Awaits (x w) := by
  obtain ⟨hp, rfl⟩ := fetch_eq_ok_iff.mp hw
  have hi : s.instruction = .awaitKey (x s.word) :=
    (Instruction.decode_transfer_iff (.awaitKey _) id trivial rfl).mpr ⟨hf, rfl, hk⟩
  exact ⟨fault?_eq_none_iff.mpr ⟨hp, by rw [hi]; rfl⟩, hi⟩

theorem Awaits.of_retimed (h : s.Awaits a) (ht : s.Retimed t) : t.Awaits a := by
  obtain ⟨delay, sound, rfl⟩ := ht
  exact ⟨h.fault?, h.instruction⟩

theorem Awaits.setting?_eq_none (h : s.Awaits a) (t : Timer) : s.setting? t = none := by
  rw [Option.eq_none_iff_forall_not_mem]
  intro value hv
  obtain ⟨-, b, hi, -⟩ := setting?_eq_some_iff.mp hv
  rw [h.instruction] at hi
  cases t <;> cases hi

theorem Awaits.next_of_released (h : s.Awaits a) (hk : key.pressed = false) :
    s.next key byte = s := by
  rw [next, h.instruction, Instruction.effect, Instruction.destination, hk,
    if_neg Bool.false_ne_true, if_neg Bool.false_ne_true, UInt16.ofNat_toNat]

theorem Awaits.next_of_pressed (h : s.Awaits a) (hk : key.pressed = true) :
    s.next key byte = { s.setReg a key.code with pc := s.pc + 2 } := by
  rw [next, h.instruction, Instruction.effect, Instruction.destination, hk, if_pos rfl,
    if_pos rfl, UInt16.ofNat_add, UInt16.ofNat_toNat]
  rfl

end State

namespace Machine

variable {m : Machine} {event : Event} {events : List Event}

/-- A waiting machine answers a step with success, and only its timers can change. -/
theorem react_of_awaits (h : m.state.Awaits a) (hk : m.key.pressed = false)
    (he : ∀ key, event = .key key → key.pressed = false) :
    (∀ result, (m.react event).1.result? = some result → result = .ok ()) ∧
      m.state.Retimed (m.react event).2.state ∧ (m.react event).2.key.pressed = false := by
  cases event with
  | step byte =>
    rw [react, step_of_none h.fault?, h.next_of_released hk]
    exact ⟨fun result hr => (Option.some.inj hr).symm, .refl _, hk⟩
  | tick =>
    exact ⟨fun result hr => (Option.some_ne_none result hr.symm).elim, ⟨_, _, rfl⟩, hk⟩
  | key key =>
    exact ⟨fun result hr => (Option.some_ne_none result hr.symm).elim, .refl _, he key rfl⟩

theorem after_of_awaits (h : m.state.Awaits a) (hk : m.key.pressed = false)
    (he : ∀ key, .key key ∈ events → key.pressed = false) :
    (∀ result ∈ m.results events, result = .ok ()) ∧
      m.state.Retimed (m.after events).state ∧ ∀ t, m.NeverSets t events := by
  induction events generalizing m with
  | nil => exact ⟨nofun, .refl _, fun t => trivial⟩
  | cons event events ih =>
    obtain ⟨hr, hs, hk'⟩ := react_of_awaits h hk fun key hev => he key (hev ▸ List.mem_cons_self)
    obtain ⟨hrs, hss, hn⟩ :=
      ih (h.of_retimed hs) hk' fun key hmem => he key (List.mem_cons_of_mem _ hmem)
    refine ⟨?_, hs.trans hss, fun t => ⟨?_, hn t⟩⟩
    · rw [results_cons]
      intro result hmem
      rcases List.mem_append.mp hmem with hmem | hmem
      · exact hr result (Option.mem_toList.mp hmem)
      · exact hrs result hmem
    · cases event with
      | step byte => exact h.setting?_eq_none t
      | tick => rfl
      | key key => rfl

theorem after_ticks (m : Machine) (ticks : Nat) :
    m.state.Retimed (m.after (.replicate ticks .tick)).state ∧
      (m.after (.replicate ticks .tick)).key = m.key ∧
      ∀ t, m.NeverSets t (.replicate ticks .tick) := by
  induction ticks generalizing m with
  | zero => exact ⟨.refl _, rfl, fun t => trivial⟩
  | succ ticks ih =>
    obtain ⟨hs, hk, hn⟩ := ih m.tick.2
    have ht : m.state.Retimed m.tick.2.state := ⟨_, _, rfl⟩
    exact ⟨ht.trans hs, hk, fun t => ⟨rfl, hn t⟩⟩

/-- As long as no key is pressed, the steps of a machine that waits for one succeed and nothing
but the timers changes, which fall with the ticks. The first step after a key was pressed stores
its code and goes on behind the waiting instruction, and changes nothing else. -/
theorem waits_until_pressed {word : UInt16} (hw : m.state.fetch = .ok word)
    (hf : family word = 0xF) (hk : kk word = 0x0A) (hu : m.key.pressed = false)
    (he : ∀ key, .key key ∈ events → key.pressed = false) :
    (∀ result ∈ m.results events, result = .ok ()) ∧
    m.state.Retimed (m.after events).state ∧
    (∀ t, ((m.after events).state.timer t).toNat =
      (m.state.timer t).toNat - events.count .tick) ∧
    ∀ key, key.pressed = true → ∀ ticks byte,
      let woken := m.after (events ++ .key key :: .replicate ticks .tick)
      woken.key = key ∧ m.state.Retimed woken.state ∧
      (∀ t, (woken.state.timer t).toNat =
        (m.state.timer t).toNat - (events.count .tick + ticks)) ∧
      woken.step byte = (.ok (), { woken with
        state := { woken.state.setReg (x word) key.code with pc := m.state.pc + 2 } }) ∧
      (m.state.pc + 2).toNat = m.state.pc.toNat + 2 := by
  have ha := State.awaits_of_fetch hw hf hk
  obtain ⟨hr, hs, hn⟩ := after_of_awaits ha hu he
  have ht (t : Timer) := toNat_timer_after (hn t)
  refine ⟨hr, hs, ht, fun key hp ticks byte => ?_⟩
  intro woken
  obtain ⟨hs', hk', hn'⟩ := after_ticks ((m.after events).setKey key) ticks
  have hwoken : woken = ((m.after events).setKey key).after (.replicate ticks .tick) :=
    after_append m events _
  rw [← hwoken] at hs' hk'
  have hws : m.state.Retimed woken.state := hs.trans hs'
  have hwa := ha.of_retimed hws
  have hpc : woken.state.pc = m.state.pc := by
    obtain ⟨delay, sound, hwt⟩ := hws
    rw [hwt]
  refine ⟨hk', hws, fun t => ?_, ?_, ?_⟩
  · have hwt := toNat_timer_after (hn' t)
    rw [← hwoken, List.count_replicate_self] at hwt
    rw [hwt, Nat.sub_add_eq, ← ht t]
    rfl
  · rw [step_of_none hwa.fault?, hwa.next_of_pressed (hk' ▸ hp), hpc, hk']
    rfl
  · have hp : m.state.pc.toNat + 2 ≤ 4096 := (State.fetch_eq_ok_iff.mp hw).1
    rw [UInt16.toNat_add]
    exact Nat.mod_eq_of_lt (Nat.lt_of_le_of_lt hp (by decide))

/-- Three ticks and a key that was let go do not end the wait, but key 7 does. -/
theorem waits_until_pressed_seven :
    let m : Machine :=
      ⟨{ State.initial with memory := .ofProgram [0xF2, 0x0A], delay := 2, sound := 5 }, ⟨9, false⟩⟩
    let events : List Event :=
      [.step 0, .tick, .key ⟨4, false⟩, .step 0, .tick, .tick, .step 0]
    let woken := m.after (events ++ [.key (.press 7), .tick])
    m.state.fetch = .ok 0xF20A ∧ m.key.pressed = false ∧
      (∀ key, .key key ∈ events → key.pressed = false) ∧
      (∀ result ∈ m.results events, result = .ok ()) ∧
      m.state.Retimed (m.after events).state ∧
      ((m.after events).state.timer .delay).toNat = 0 ∧
      ((m.after events).state.timer .sound).toNat = 2 ∧
      woken.step 0 = (.ok (), { woken with
        state := { woken.state.setReg 2 7 with pc := 0x202 } }) := by
  intro m events woken
  have hw : m.state.fetch = .ok 0xF20A := by decide +kernel
  have he : ∀ key, .key key ∈ events → key.pressed = false := by
    intro key hmem
    obtain rfl : key = ⟨4, false⟩ := by simpa [events] using hmem
    rfl
  obtain ⟨hr, hs, ht, hp⟩ := waits_until_pressed hw (by decide) (by decide) rfl he
  obtain ⟨-, -, -, hwoken, -⟩ := hp (.press 7) rfl 1 0
  exact ⟨hw, rfl, he, hr, hs, ht .delay, ht .sound, hwoken⟩

end Machine

end HexConsole
