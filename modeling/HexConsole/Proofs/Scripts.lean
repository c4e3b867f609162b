import HexConsole.Recorder
import Mathlib.Data.List.Induction
import Mathlib.Logic.Function.Iterate

/-! # Scripts

A recorder reports the keys of its script one after another and then the last of them for ever.
Only readings of the keypad go on in the script, and they change nothing else. It makes no
difference whether the keys are taken from the front of the script, or from the end of an array
that holds them in reverse order.
-/

namespace HexConsole

open Presentation

/-- What is left of a script after some readings; the last key is never used up. -/
def upcoming (script : List Key) (readings : Nat) : List Key :=
  script.drop (min readings (script.length - 1))

theorem headD_upcoming (script : List Key) (readings : Nat) (key : Key) :
    (upcoming script readings).headD key =
      script.getD (min readings (script.length - 1)) key := by
  rw [upcoming, List.headD_eq_head?_getD, List.head?_drop, List.getD_eq_getElem?_getD]

theorem upcoming_one (script : List Key) (readings : Nat) :
    upcoming (upcoming script readings) 1 = upcoming script (readings + 1) := by
  rw [upcoming, upcoming, List.drop_drop, List.length_drop, upcoming]
  congr 1
  omega

/-- Keys in an array, the last of which is the next. -/
structure Reel where
  keys : Array Key

namespace Reel

/-- A script in reverse order. -/
def ofScript (script : List Key) : Reel := ⟨script.reverse.toArray⟩

/-- The next key is reported, and taken away unless it is the only one. -/
def pollKey (reel : Reel) : Key × Reel :=
  match reel.keys.size with
  | 0 => (.released, reel)
  | 1 => (reel.keys.getD 0 .released, reel)
  | _ => (reel.keys.back?.getD .released, ⟨reel.keys.pop⟩)

/-- The keys in the order in which they are reported. -/
def script (reel : Reel) : List Key := reel.keys.toList.reverse

theorem script_ofScript (script : List Key) : (ofScript script).script = script := by
  simp [Reel.script, ofScript]

theorem pollKey_fst (reel : Reel) : reel.pollKey.1 = reel.script.headD .released := by
  obtain ⟨⟨keys⟩⟩ := reel
  match keys with
  | [] | [_] => rfl
  | _ :: _ :: _ => simp [pollKey, script, List.getLast?_cons]

theorem script_pollKey (reel : Reel) : reel.pollKey.2.script = upcoming reel.script 1 := by
  obtain ⟨⟨keys⟩⟩ := reel
  match keys with
  | [] | [_] => rfl
  | first :: second :: keys =>
    have hp : (Reel.mk ⟨first :: second :: keys⟩).pollKey.2.script =
        (first :: second :: keys).dropLast.reverse := by simp [pollKey, script]
    rw [hp, ← List.tail_reverse, ← List.drop_one]
    simp [upcoming, script]

/-- The reel after some readings. -/
def after (reel : Reel) (readings : Nat) : Reel := (fun reel => reel.pollKey.2)^[readings] reel

theorem script_after (reel : Reel) (readings : Nat) :
    (reel.after readings).script = upcoming reel.script readings := by
  induction readings with
  | zero => simp [after, upcoming]
  | succ readings ih =>
    rw [after] at ih ⊢
    rw [Function.iterate_succ_apply', script_pollKey, ih, upcoming_one]

end Reel

namespace Recorder

theorem pollKey_eq (r : Recorder) :
    r.pollKey = (r.script.headD .released, { r with script := upcoming r.script 1 }) := by
  obtain ⟨frames, beeps, lastFrame, script, limit⟩ := r
  match script with
  | [] | [_] => rfl
  | _ :: _ :: _ => simp [pollKey, upcoming]

/-- The frames that are shown in a row of calls. -/
def shown (calls : List Call) : List Screen := calls.filterMap Call.frame?

theorem shown_concat (calls : List Call) (c : Call) :
    shown (calls ++ [c]) = shown calls ++ c.frame?.toList := by
  rw [shown, List.filterMap_append]
  cases c <;> rfl

theorem after_concat (r : Recorder) (calls : List Call) (c : Call) :
    after r (calls ++ [c]) = call (after r calls) c :=
  List.foldl_append

/-- All that a row of calls leaves in a recorder. -/
theorem after_eq (r : Recorder) (calls : List Call) :
    after r calls =
      { frames := r.frames + (shown calls).length
        beeps := r.beeps + calls.count .beep
        lastFrame := (shown calls).getLast?.or r.lastFrame
        script := upcoming r.script (calls.count .poll)
        limit := r.limit } := by
  induction calls using List.reverseRecOn with
  | nil => simp [after, shown, upcoming]
  | append_singleton calls c ih =>
    rw [after_concat, ih, shown_concat]
    cases c with
    | render frame => simp [call, Presentation.render, render, Call.frame?, Nat.add_assoc]
    | beep => simp [call, Presentation.beep, beep, Call.frame?, Nat.add_assoc]
    | poll => simp [call, Presentation.pollKey, pollKey_eq, Call.frame?, upcoming_one]

/-- After any calls the recorder reports the key of its script whose place is the number of
readings so far, or the last key if there are not so many, and so does a reel after as many
readings. A reading changes nothing but the script, and other calls do not change the script. -/
theorem replays_script (script : List Key) (limit : Option Nat) (calls : List Call) :
    let r := after (ofScript script limit) calls
    let readings := calls.count .poll
    r.pollKey.1 = script.getD (min readings (script.length - 1)) .released ∧
    ((Reel.ofScript script).after readings).pollKey.1 = r.pollKey.1 ∧
    r.pollKey.2 = { r with script := r.pollKey.2.script } ∧
    r.pollKey.2.closed = r.closed ∧
    (∀ frame, (r.render frame).script = r.script) ∧ r.beep.script = r.script ∧
    r.frames = (shown calls).length ∧ r.beeps = calls.count .beep ∧
    r.lastFrame = (shown calls).getLast? ∧
    (r.closed = true ↔ ∃ n, limit = some n ∧ n ≤ (shown calls).length) := by
  intro r readings
  have hr : r = _ := after_eq (ofScript script limit) calls
  have hs : r.script = upcoming script readings := by rw [hr]; rfl
  have hk : r.pollKey.1 = (upcoming script readings).headD .released := by rw [pollKey_eq, hs]
  have hf : r.frames = (shown calls).length := by rw [hr]; exact Nat.zero_add _
  have hl : r.limit = limit := by rw [hr]; rfl
  refine ⟨hk.trans (headD_upcoming _ _ _), ?_, ?_, ?_, fun _ => rfl, rfl, hf, ?_, ?_, ?_⟩
  · rw [Reel.pollKey_fst, Reel.script_after, Reel.script_ofScript, hk]
  · rw [pollKey_eq]
  · rw [pollKey_eq]; rfl
  · rw [hr]; exact Nat.zero_add _
  · rw [hr]; exact Option.or_none
  · rw [closed, hl, hf]
    cases limit <;> simp

-- A key that is pressed at the end of a script stays pressed.
example : (after (ofScript [.released, .press 4] none) [.poll, .beep, .poll, .poll]).pollKey.1 =
    .press 4 := by decide

end Recorder

end HexConsole
