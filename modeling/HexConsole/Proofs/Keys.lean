import HexConsole.Proofs.Histories
import HexConsole.Proofs.Steps

/-! # What instructions see of the keypad

Three instructions see the key, and of a key that is not pressed they do not see which it is. So
the machine goes on in the same way whatever code is reported with a released key, and a step
with any other instruction is the same with every key.
-/

namespace HexConsole

open Opcode

namespace Key

/-- Keys that are the same unless neither is pressed. -/
inductive Alike : Key → Key → Prop
  | refl (key : Key) : Alike key key
  | released {key key' : Key} : key.pressed = false → key'.pressed = false → Alike key key'

variable {key key' : Key}

theorem Alike.pressed_eq (h : key.Alike key') : key'.pressed = key.pressed := by
  cases h with
  | refl => rfl
  | released hk hk' => exact hk'.trans hk.symm

theorem Alike.code_eq (h : key.Alike key') (hp : key.pressed = true) : key'.code = key.code := by
  cases h with
  | refl => rfl
  | released hk _ => cases hk.symm.trans hp

theorem Alike.isDown_eq (h : key.Alike key') (byte : UInt8) :
    key'.isDown byte = key.isDown byte := by
  cases h with
  | refl => rfl
  | released hk hk' => rw [isDown, isDown, hk, hk', Bool.false_and, Bool.false_and]

end Key

variable {s : State} {key key' : Key} {byte : UInt8}

namespace Instruction

variable {i : Instruction} {w : UInt16}

/-- An instruction that sees the key. -/
def ReadsKey : Instruction → Prop
  | skipKeyDown _ | skipKeyUp _ | awaitKey _ => True
  | _ => False

theorem effect_key (h : i.ReadsKey → key.Alike key') :
    i.effect key' byte s = i.effect key byte s := by
  cases i with
  | awaitKey a =>
    have h := h trivial
    simp only [effect, h.pressed_eq]
    split
    case isTrue hp => rw [h.code_eq hp]
    case isFalse => rfl
  | _ => rfl

theorem destination_key (h : i.ReadsKey → key.Alike key') :
    i.destination key' s = i.destination key s := by
  cases i with
  | awaitKey a => rw [destination, destination, (h trivial).pressed_eq]
  | skipKeyDown a | skipKeyUp a => rw [destination, destination, (h trivial).isDown_eq]
  | _ => rfl

theorem Fits.readsKey (h : i.Fits w) (hr : i.ReadsKey) :
    family w = 0xE ∧ (kk w = 0x9E ∨ kk w = 0xA1) ∨ family w = 0xF ∧ kk w = 0x0A := by
  cases i with
  | skipKeyDown => exact .inl ⟨h.1, .inl h.2.2⟩
  | skipKeyUp => exact .inl ⟨h.1, .inr h.2.2⟩
  | awaitKey => exact .inr ⟨h.1, h.2.2⟩
  | _ => exact hr.elim

end Instruction

namespace State

/-- The word at the program counter, if there is one, does not look at the key. -/
def KeyFree (s : State) : Prop :=
  ∀ w, s.fetch = .ok w →
    ¬(family w = 0xE ∧ (kk w = 0x9E ∨ kk w = 0xA1) ∨ family w = 0xF ∧ kk w = 0x0A)

theorem KeyFree.not_readsKey (h : s.KeyFree) (hf : s.fault? = none) : ¬s.instruction.ReadsKey := by
  intro hr
  have hw := fetch_eq_ok_iff.mpr ⟨(fault?_eq_none_iff.mp hf).1, rfl⟩
  exact h s.word hw ((Instruction.fits_decode s.word).readsKey hr)

theorem next_key (h : s.instruction.ReadsKey → key.Alike key') :
    s.next key' byte = s.next key byte := by
  rw [next, next, Instruction.effect_key h, Instruction.destination_key h]

end State

namespace Machine

/-- The second machine is the first, but for the code of a key that is not pressed. -/
def Rekeyed (m m' : Machine) : Prop := m'.state = m.state ∧ m.key.Alike m'.key

/-- Events that are the same unless they report keys that are not pressed. -/
inductive Event.Alike : Event → Event → Prop
  | refl (event : Event) : Alike event event
  | key {key key' : Key} : key.Alike key' → Alike (.key key) (.key key')

variable {m m' : Machine} {event event' : Event} {events events' : List Event}

theorem key_step (m : Machine) (byte : UInt8) : (m.step byte).2.key = m.key := rfl

/-- Keys that differ only where the instruction does not look make no difference to a step. -/
theorem step_key (byte : UInt8) (hs : m'.state = m.state)
    (hk : m.state.fault? = none → m.state.instruction.ReadsKey → m.key.Alike m'.key) :
    (m'.step byte).1 = (m.step byte).1 ∧ (m'.step byte).2.state = (m.step byte).2.state := by
  have hf' := congrArg State.fault? hs
  cases hf : m.state.fault? with
  | some fault =>
    rw [hf] at hf'
    rw [step_of_fault hf, step_of_fault hf']
    exact ⟨rfl, hs⟩
  | none =>
    rw [hf] at hf'
    rw [step_of_none hf, step_of_none hf', hs]
    exact ⟨rfl, State.next_key (hk hf)⟩

theorem Rekeyed.react (h : m.Rekeyed m') (he : event.Alike event') :
    (m.react event).1 = (m'.react event').1 ∧ (m.react event).2.Rekeyed (m'.react event').2 := by
  obtain ⟨hs, hk⟩ := h
  cases he with
  | key hkey => exact ⟨rfl, hs, hkey⟩
  | refl =>
    cases event with
    | step byte =>
      obtain ⟨hr, hst⟩ := step_key byte hs fun _ _ => hk
      refine ⟨congrArg Answer.stepped hr.symm, hst, ?_⟩
      rwa [Machine.react, Machine.react, key_step, key_step]
    | tick =>
      simp only [Machine.react, tick, hs]
      exact ⟨trivial, rfl, hk⟩
    | key key => exact ⟨rfl, hs, .refl key⟩

/-- Which code comes with a key that is not pressed makes no difference to any answer and to the
state after any history. A step with a word that does not look at the key is the same with any
two keys. -/
theorem key_seen_only_pressed :
    (∀ (m m' : Machine) (events events' : List Event), m.Rekeyed m' →
      List.Forall₂ Event.Alike events events' →
      m'.answers events' = m.answers events ∧ (m.after events).Rekeyed (m'.after events')) ∧
    ∀ (s : State) (byte : UInt8) (key key' : Key), s.KeyFree →
      (step ⟨s, key'⟩ byte).1 = (step ⟨s, key⟩ byte).1 ∧
      (step ⟨s, key'⟩ byte).2.state = (step ⟨s, key⟩ byte).2.state := by
  refine ⟨fun m m' events events' h he => ?_, fun s byte key key' h => ?_⟩
  · have hr : List.Forall₂ Eq _ _ ∧ _ := forall₂_answers (fun _ _ _ _ h he => h.react he) h he
    rw [List.forall₂_eq_eq_eq] at hr
    exact ⟨hr.1.symm, hr.2⟩
  · exact step_key byte rfl fun hf hr => absurd hr (h.not_readsKey hf)

/-- Whether key 0 or key 7 was let go, a key test fails and a wait ends only with key 5. The word
behind the program does not look at the key. -/
theorem key_seen_only_pressed_let_go :
    let m := ofProgram [0xE0, 0x9E, 0xF1, 0x0A, 0xF1, 0x15]
    let letGo (code : UInt8) : List Event :=
      [.key ⟨code, false⟩, .step 0, .step 0, .tick, .key (.press 5), .step 0, .step 0]
    let ended := (m.after (letGo 7)).state
    m.Rekeyed (m.setKey ⟨7, false⟩) ∧
      (m.setKey ⟨7, false⟩).answers (letGo 0) = m.answers (letGo 7) ∧
      ((m.setKey ⟨7, false⟩).after (letGo 0)).state = ended ∧ ended.delay = 5 ∧
      ended.KeyFree ∧ ∀ key, (step ⟨ended, key⟩ 0).1 = (step ⟨ended, .released⟩ 0).1 := by
  intro m letGo ended
  have h : m.Rekeyed (m.setKey ⟨7, false⟩) := ⟨rfl, .released rfl rfl⟩
  have he : List.Forall₂ Event.Alike (letGo 7) (letGo 0) :=
    .cons (.key (.released rfl rfl)) (List.forall₂_same.mpr fun event _ => .refl event)
  have hf : ended.KeyFree := by
    intro w hw
    have hw' : ended.fetch = .ok 0x0000 := by decide +kernel
    obtain rfl := Except.ok.inj (hw'.symm.trans hw)
    decide
  obtain ⟨ha, hs⟩ := key_seen_only_pressed.1 _ _ _ _ h he
  exact ⟨h, ha, hs.1, by decide +kernel, hf, fun key =>
    (key_seen_only_pressed.2 ended 0 .released key hf).1⟩

end Machine

end HexConsole
