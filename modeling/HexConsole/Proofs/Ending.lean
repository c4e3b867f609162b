import HexConsole.Proofs.Moves

/-! # A stopped run returns

Once the stop flag is set every timeline has a number of actions left that only goes down: it
ends its turn, finds the flag and is done. The display may still have to play the beeps in the
queue and the one beep that the timers can still send.
-/

namespace HexConsole

/-- Those who act in a run. -/
inductive Timeline where
  | cpu
  | timers
  | display
  deriving DecidableEq, Repr

/-- Whose action it is, if not somebody's outside. -/
def Deed.timeline? : Deed → Option Timeline
  | act (.cpu _) => some .cpu
  | act .timers => some .timers
  | act .display => some .display
  | act .stop | visit .. => none

/-- How many of the deeds are actions of a timeline. -/
def Timeline.count (timeline : Timeline) (deeds : List Deed) : Nat :=
  deeds.countP (·.timeline? = some timeline)

theorem Timeline.count_cons (timeline : Timeline) (deed : Deed) (deeds : List Deed) :
    timeline.count (deed :: deeds) = timeline.count [deed] + timeline.count deeds := by
  rw [count, ← List.singleton_append, List.countP_append]
  rfl

/-- The actions that a stopped processor still takes at most. -/
def CpuPhase.left : CpuPhase → Nat
  | stepping => 2
  | checking | failing _ => 1
  | done _ => 0

/-- The actions that stopped timers still take at most. -/
def TimerPhase.left : TimerPhase → Nat
  | ticking => 3
  | sending => 2
  | checking => 1
  | done _ => 0

/-- The beeps that stopped timers can still send. -/
def TimerPhase.unsent : TimerPhase → Nat
  | ticking | sending => 1
  | checking | done _ => 0

/-- The actions that a stopped display still takes at most, with so many beeps to come. -/
def DisplayPhase.left (beeps : Nat) : DisplayPhase → Nat
  | polling => 2 * beeps + 6
  | exchanging _ => 2 * beeps + 5
  | rendering _ | beeping => 2 * beeps + 4
  | draining => 2 * beeps + 3
  | checking => 2
  | leaving _ => 1
  | done _ => 0

theorem CpuPhase.left_eq_zero_iff {phase : CpuPhase} :
    phase.left = 0 ↔ ∃ result, phase = .done result := by
  cases phase <;> simp [left]

theorem TimerPhase.left_eq_zero_iff {phase : TimerPhase} :
    phase.left = 0 ↔ ∃ result, phase = .done result := by
  cases phase <;> simp [left]

theorem DisplayPhase.left_eq_zero_iff {phase : DisplayPhase} {beeps : Nat} :
    phase.left beeps = 0 ↔ ∃ result, phase = .done result := by
  cases phase <;> simp [left]

theorem DisplayPhase.left_mono {beeps beeps' : Nat} (h : beeps ≤ beeps') (phase : DisplayPhase) :
    phase.left beeps ≤ phase.left beeps' := by
  cases phase <;> simp only [left] <;> omega

namespace Timelines

variable {P : Type} [Presentation P] {t t' : Timelines P} {deed : Deed} {deeds : List Deed}
  {happening : Option Happening}

/-- The beeps that a stopped run can still have to play. -/
def pending (t : Timelines P) : Nat := t.queued + t.timers.unsent

/-- The actions that a timeline still takes at most once the stop flag is set. -/
def left (t : Timelines P) : Timeline → Nat
  | .cpu => t.cpu.left
  | .timers => t.timers.left
  | .display => t.display.left t.pending

theorem Move.left_cpu_le (hm : Move t deed happening t') (hs : t.console.stopped = true) :
    t'.left .cpu ≤ t.left .cpu - Timeline.cpu.count [deed] := by
  cases hm with
  | cpuBegins _ h =>
    rw [hs] at h
    cases h
  | cpuQuits hc | cpuLoses hc | steps hc | faults hc | cpuFails hc | cpuRests hc =>
    change _ ≤ t.left .cpu - 1
    simp [left, CpuPhase.left, hc]
  | _ => exact Nat.le_refl _

theorem Move.left_timers_le (hm : Move t deed happening t') (hs : t.console.stopped = true) :
    t'.left .timers ≤ t.left .timers - Timeline.timers.count [deed] := by
  cases hm with
  | timersBegin _ h =>
    rw [hs] at h
    cases h
  | timersQuit ht | timersLose ht | sends ht | timersRest ht =>
    change _ ≤ t.left .timers - 1
    simp [left, TimerPhase.left, ht]
  | @ticks beep _ ht =>
    change _ ≤ t.left .timers - 1
    cases beep <;> simp [left, TimerPhase.left, ht]
  | _ => exact Nat.le_refl _

theorem Move.pending_le (hm : Move t deed happening t') (hs : t.console.stopped = true) :
    t'.pending ≤ t.pending := by
  cases hm with
  | timersBegin _ h =>
    rw [hs] at h
    cases h
  | timersQuit ht | timersLose ht | sends ht => simp [pending, TimerPhase.unsent, ht]
  | @ticks beep _ ht => cases beep <;> simp [pending, TimerPhase.unsent, ht]
  | takes _ hq =>
    rw [pending, pending, hq]
    exact Nat.add_le_add_right (Nat.le_succ _) _
  | _ => exact Nat.le_refl _

theorem Move.left_display_le (hm : Move t deed happening t') (hs : t.console.stopped = true) :
    t'.left .display ≤ t.left .display - Timeline.display.count [deed] := by
  have hb := hm.pending_le hs
  cases hm with
  | displayBegins _ h =>
    rw [hs] at h
    cases h
  | displayEnds hd | polls hd | displayLoses hd | reports hd | renders hd | drains hd | takes hd
  | beeps hd | leaves hd | displayRests hd =>
    change _ ≤ t.left .display - 1
    simp only [left, DisplayPhase.left, pending, hd] at hb ⊢
    omega
  | _ => exact DisplayPhase.left_mono hb t.display

/-- An action takes its timeline one action nearer to its end, and no deed takes another away
from it. -/
theorem Move.left_le (hm : Move t deed happening t') (hs : t.console.stopped = true)
    (timeline : Timeline) : t'.left timeline ≤ t.left timeline - timeline.count [deed] := by
  cases timeline with
  | cpu => exact hm.left_cpu_le hs
  | timers => exact hm.left_timers_le hs
  | display => exact hm.left_display_le hs

theorem left_afterDeeds_le (hs : t.console.stopped = true) (deeds : List Deed)
    (timeline : Timeline) :
    (t.afterDeeds deeds).left timeline ≤ t.left timeline - timeline.count deeds := by
  induction deeds generalizing t with
  | nil => exact Nat.le_refl _
  | cons deed deeds ih =>
    obtain ⟨_, hm⟩ := exists_move t deed
    have hl := hm.left_le hs timeline
    have ha := ih (hm.stopped hs)
    rw [afterDeeds_cons, timeline.count_cons]
    omega

omit [Presentation P] in
theorem exists_result (hl : ∀ timeline, t.left timeline = 0) :
    ∃ result, t.result? = some result := by
  obtain ⟨cpu, hc⟩ := CpuPhase.left_eq_zero_iff.mp (hl .cpu)
  obtain ⟨timers, ht⟩ := TimerPhase.left_eq_zero_iff.mp (hl .timers)
  obtain ⟨display, hd⟩ := DisplayPhase.left_eq_zero_iff.mp (hl .display)
  exact ⟨_, result?_eq_some_iff.mpr ⟨cpu, timers, display, hc, ht, hd, rfl⟩⟩

/-- A run whose stop flag is set returns when every timeline has taken the actions it has left. -/
theorem returns_of_stopped (hs : t.console.stopped = true)
    (ha : ∀ timeline : Timeline, t.left timeline ≤ timeline.count deeds) :
    ∃ result, (t.afterDeeds deeds).result? = some result := by
  refine exists_result fun timeline => ?_
  have hl := left_afterDeeds_le hs deeds timeline
  rw [Nat.sub_eq_zero_of_le (ha timeline)] at hl
  exact Nat.le_zero.mp hl

end Timelines

end HexConsole
