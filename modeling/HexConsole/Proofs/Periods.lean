import HexConsole.Schedule.Ticker
import Mathlib.Data.List.Basic

/-! # Rates and their periods

Rates are accepted exactly if none is zero. The period of a rate is then as long as whole
nanoseconds allow, and a pause is what a turn leaves of it. At more than a billion turns a second
nothing is left: the period is zero, and the timeline never pauses.
-/

namespace HexConsole

namespace Ticker

variable {t : Ticker} {period since : Nat}

/-- A timeline never pauses, however long its turns are. -/
def NeverPauses (period : Nat) : Prop :=
  ∀ now turns, ∀ pause ∈ (start period now).pauses now turns, pause = 0

theorem wait_fst (t : Ticker) (now : Nat) : (t.wait now).1 = t.next - now := by
  unfold wait
  split
  · rfl
  · omega

theorem period_wait (t : Ticker) (now : Nat) : (t.wait now).2.period = t.period := by
  unfold wait
  split <;> rfl

/-- After a pause a timeline is due a period after the pause was to end. -/
theorem next_wait (t : Ticker) (now : Nat) :
    (t.wait now).2.next = now + (t.wait now).1 + t.period := by
  unfold wait
  split
  · dsimp only
    omega
  · rfl

theorem pauses_of_next (h : t.next = since + t.period) (turns : List Nat) :
    t.pauses since turns = turns.map (t.period - ·) := by
  induction turns generalizing t since with
  | nil => rfl
  | cons turn turns ih =>
    have hn : (t.wait (since + turn)).2.next =
        since + turn + (t.wait (since + turn)).1 + (t.wait (since + turn)).2.period := by
      rw [next_wait, period_wait]
    have hp : (t.wait (since + turn)).1 = t.period - turn := by
      rw [wait_fst, h]
      omega
    rw [pauses, List.map_cons, ← hp, ← period_wait t (since + turn)]
    exact congrArg _ (ih hn)

/-- A pause is what the turn before it leaves of the period. -/
theorem pauses_start (period now : Nat) (turns : List Nat) :
    (start period now).pauses now turns = turns.map (period - ·) :=
  pauses_of_next rfl turns

-- The second turn is late, and the third is not shortened for it.
example : (start 10 0).pauses 0 [3, 25, 4] = [7, 0, 6] := by decide

theorem neverPauses_iff : NeverPauses period ↔ period = 0 := by
  constructor
  · intro h
    apply h 0 [0]
    rw [pauses_start]
    simp
  · rintro rfl now turns pause hp
    rw [pauses_start, List.mem_map] at hp
    obtain ⟨turn, -, rfl⟩ := hp
    exact Nat.zero_sub turn

end Ticker

namespace Rates

variable {r : Rates} {fault : Fault} {rate : UInt32}

/-- The rates with their names, in the order in which they are looked at. -/
def named (r : Rates) : List (String × UInt32) :=
  [("cpu", r.cpu), ("display", r.display), ("timer", r.timers)]

/-- The rate of this name is zero, and none before it is. -/
def FirstZero (r : Rates) (name : String) : Prop :=
  ∃ before after, r.named = before ++ (name, 0) :: after ∧ ∀ q ∈ before, q.2 ≠ 0

/-- A quotient, unless the divisor is zero. -/
def quotient? (a b : Nat) : Option Nat := if b = 0 then none else some (a / b)

/-- The period of a rate, unless it takes a division by zero. -/
def period? (rate : UInt32) : Option Nat := quotient? 1000000000 rate.toNat

/-- A rate has a period of whole nanoseconds, which is zero exactly if there are more turns a
second than nanoseconds. -/
structure Timed (rate : UInt32) : Prop where
  period?_eq : period? rate = some (period rate)
  period_mul_le : period rate * rate.toNat ≤ 1000000000
  lt_succ_period_mul : 1000000000 < (period rate + 1) * rate.toNat
  period_le : ∀ slower, 0 < slower.toNat → slower ≤ rate → period rate ≤ period slower
  period_pos_iff : 0 < period rate ↔ rate.toNat ≤ 1000000000
  pauses_eq : ∀ now turns,
    (Ticker.start (period rate) now).pauses now turns = turns.map (period rate - ·)
  neverPauses_iff : Ticker.NeverPauses (period rate) ↔ 1000000000 < rate.toNat

theorem validate_eq_find? (r : Rates) :
    r.validate =
      match r.named.find? fun q => q.2 = 0 with
      | some q => .error (zeroFault q.1)
      | none => .ok () := by
  simp only [validate, named, List.find?_cons, List.find?_nil]
  by_cases hc : r.cpu = 0
  · simp [hc]
  · by_cases hd : r.display = 0
    · simp [hc, hd]
    · by_cases ht : r.timers = 0 <;> simp [hc, hd, ht]

theorem find?_named_eq_some_iff {q : String × UInt32} :
    r.named.find? (fun q => q.2 = 0) = some q ↔ q.2 = 0 ∧ r.FirstZero q.1 := by
  rw [List.find?_eq_some_iff_append]
  simp only [decide_eq_true_eq, Bool.not_eq_true', decide_eq_false_iff_not]
  apply and_congr_right
  intro hz
  rw [FirstZero, ← hz]

theorem validate_eq_ok_iff : r.validate = .ok () ↔ ∀ q ∈ r.named, q.2 ≠ 0 := by
  rw [validate_eq_find?]
  cases h : r.named.find? fun q => q.2 = 0 with
  | none => simpa using List.find?_eq_none.mp h
  | some q =>
    have hq : q ∈ r.named := List.mem_of_find?_eq_some h
    have hz : q.2 = 0 := (find?_named_eq_some_iff.mp h).1
    constructor
    · intro he
      cases he
    · intro hn
      exact absurd hz (hn q hq)

theorem validate_eq_error_iff :
    r.validate = .error fault ↔ ∃ name, r.FirstZero name ∧ fault = zeroFault name := by
  rw [validate_eq_find?]
  constructor
  · intro h
    cases hf : r.named.find? fun q => q.2 = 0 with
    | none =>
      rw [hf] at h
      cases h
    | some q =>
      rw [hf] at h
      cases h
      exact ⟨q.1, (find?_named_eq_some_iff.mp hf).2, rfl⟩
  · rintro ⟨name, hn, rfl⟩
    have hf : r.named.find? (fun q => q.2 = 0) = some (name, 0) :=
      find?_named_eq_some_iff.mpr ⟨rfl, hn⟩
    rw [hf]

theorem ofNumbers_eq_ok_iff {cpu display timers : UInt32} :
    ofNumbers cpu display timers = .ok r ↔
      r = ⟨cpu, display, timers⟩ ∧ ∀ q ∈ r.named, q.2 ≠ 0 := by
  rw [← validate_eq_ok_iff, ofNumbers]
  constructor
  · intro h
    cases hv : validate ⟨cpu, display, timers⟩ with
    | error fault =>
      rw [hv] at h
      cases h
    | ok =>
      rw [hv] at h
      cases h
      exact ⟨rfl, hv⟩
  · rintro ⟨rfl, hv⟩
    rw [hv]
    rfl

theorem ofNumbers_eq_error_iff {cpu display timers : UInt32} :
    ofNumbers cpu display timers = .error fault ↔
      validate ⟨cpu, display, timers⟩ = .error fault := by
  rw [ofNumbers]
  cases validate ⟨cpu, display, timers⟩ with
  | error fault' => simp [Except.map]
  | ok => simp [Except.map]

theorem period_pos_iff (h : 0 < rate.toNat) : 0 < period rate ↔ rate.toNat ≤ 1000000000 := by
  rw [period, Nat.div_pos_iff, and_iff_right h]

/-- Every rate but zero has a period. -/
theorem timed_of_ne_zero (h : rate ≠ 0) : Timed rate := by
  have hp : 0 < rate.toNat := Nat.pos_of_ne_zero fun hz => h (UInt32.toNat_inj.mp hz)
  constructor
  · rw [period?, quotient?, if_neg (Nat.ne_of_gt hp)]
    rfl
  · exact Nat.div_mul_le_self _ _
  · rw [Nat.mul_comm]
    exact Nat.lt_mul_div_succ _ hp
  · intro slower hs hle
    exact Nat.div_le_div_left hle hs
  · exact period_pos_iff hp
  · exact Ticker.pauses_start (period rate)
  · rw [Ticker.neverPauses_iff, ← Nat.not_le, ← period_pos_iff hp, Nat.pos_iff_ne_zero,
      not_not]

/-- Rates are accepted exactly if none of them is zero, and otherwise the first that is zero is
named. An accepted rate has a period of whole nanoseconds, and a greater one has none that is
longer. The period is zero only at more than a billion turns a second, and only then the timeline
never pauses. -/
theorem accepted_rates_timed (cpu display timers : UInt32) :
    let rates : Rates := ⟨cpu, display, timers⟩
    (∀ r, ofNumbers cpu display timers = .ok r ↔
      r = rates ∧ cpu ≠ 0 ∧ display ≠ 0 ∧ timers ≠ 0) ∧
    (∀ fault, ofNumbers cpu display timers = .error fault ↔
      ∃ name, rates.FirstZero name ∧ fault = zeroFault name) ∧
    ∀ r, ofNumbers cpu display timers = .ok r → ∀ q ∈ r.named, Timed q.2 := by
  intro rates
  refine ⟨?_, ?_, ?_⟩
  · intro r
    rw [ofNumbers_eq_ok_iff]
    apply and_congr_right
    rintro rfl
    simp [named]
  · intro fault
    rw [ofNumbers_eq_error_iff, validate_eq_error_iff]
  · intro r hr q hq
    exact timed_of_ne_zero ((ofNumbers_eq_ok_iff.mp hr).2 q hq)

/-- The greatest rate, the least one, and the greatest that has a pause; and two zeros, of which
the first is named. -/
theorem accepted_rates_timed_extremes :
    let rates : Rates := ⟨4294967295, 1, 1000000000⟩
    ofNumbers 4294967295 1 1000000000 = .ok rates ∧
      Timed 4294967295 ∧ period 4294967295 = 0 ∧
      Timed 1 ∧ period 1 = 1000000000 ∧ Timed 1000000000 ∧ period 1000000000 = 1 ∧
      ofNumbers 540 0 0 = .error (zeroFault "display") := by
  intro rates
  obtain ⟨hok, -, ht⟩ := accepted_rates_timed 4294967295 1 1000000000
  have hr : ofNumbers 4294967295 1 1000000000 = .ok rates :=
    (hok rates).mpr ⟨rfl, by decide, by decide, by decide⟩
  obtain ⟨-, herr, -⟩ := accepted_rates_timed 540 0 0
  refine ⟨hr, ht rates hr ("cpu", _) (by simp [named, rates]), by decide,
    ht rates hr ("display", _) (by simp [named, rates]), by decide,
    ht rates hr ("timer", _) (by simp [named, rates]), by decide, ?_⟩
  exact (herr _).mpr ⟨"display", ⟨[("cpu", 540)], [("timer", 0)], rfl, by decide⟩, rfl⟩

/-- A billion and one turns a second are accepted, but leave no nanosecond for any of them, so that
not every accepted rate has a period and a pause. -/
theorem period_eq_zero_above_billion :
    ofNumbers 1000000001 60 60 = .ok ⟨1000000001, 60, 60⟩ ∧ period 1000000001 = 0 ∧
      Ticker.NeverPauses (period 1000000001) ∧
      ¬∀ cpu display timers r, ofNumbers cpu display timers = .ok r →
        ∀ q ∈ r.named, 0 < period q.2 := by
  have hr : ofNumbers 1000000001 60 60 = .ok ⟨1000000001, 60, 60⟩ := rfl
  have hp : period 1000000001 = 0 := by decide
  refine ⟨hr, hp, Ticker.neverPauses_iff.mpr hp, ?_⟩
  intro h
  have hc := h _ _ _ _ hr ("cpu", 1000000001) (by simp [named])
  exact Nat.lt_irrefl 0 (hp ▸ hc)

end Rates

end HexConsole
