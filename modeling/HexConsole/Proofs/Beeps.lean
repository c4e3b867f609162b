import HexConsole.Proofs.Scripts
import HexConsole.Proofs.Traces
import Mathlib.Control.Monad.Basic
import Mathlib.Data.List.Induction

/-! # Beeps

The timers obtain a beep from the tick with which the sound timer runs out. They send it to the
queue, and the display takes it from there and plays it. So every beep that was obtained is held
by the timers, in the queue, held by the display, or played. The display leaves the queue only
when nothing is in it, so what is not played in the end came after that. None of this depends on
what others do to the machine in the meantime. To obtain a beep is to get it as the machine's
answer to a tick, and to play it is to call the presentation.
-/

namespace HexConsole

deriving instance DecidableEq for DisplayPhase

/-- The beeps that the timers have obtained and not yet sent. -/
def TimerPhase.held : TimerPhase → Nat
  | sending => 1
  | checking | ticking | done _ => 0

/-- The beeps that the display has taken from the queue and not yet played. -/
def DisplayPhase.held : DisplayPhase → Nat
  | beeping => 1
  | checking | polling | exchanging _ | rendering _ | draining | leaving _ | done _ => 0

/-- The display is emptying the queue. -/
def DisplayPhase.AtQueue : DisplayPhase → Prop
  | draining | beeping => True
  | checking | polling | exchanging _ | rendering _ | leaving _ | done _ => False

namespace Timelines

variable {P : Type} [Presentation P] {t t' : Timelines P} {deed : Deed}
  {deeds before since : List Deed} {happening : Option Happening}

/-- The beeps that a deed sends to the queue. -/
def sends (t : Timelines P) : Deed → Nat
  | .act .timers => t.timers.held
  | .act (.cpu _) | .act .display | .act .stop | .visit .. => 0

/-- The beeps that the timers obtain during a row of deeds. -/
def obtained (t : Timelines P) (deeds : List Deed) : Nat :=
  (t.answers deeds).countP Machine.Answer.isBeep

/-- The beeps that the timers send during a row of deeds. -/
def sent (t : Timelines P) : List Deed → Nat
  | [] => 0
  | deed :: deeds => t.sends deed + (t.meet deed).sent deeds

/-- The beeps that the display plays during a row of deeds. -/
def played (t : Timelines P) (deeds : List Deed) : Nat := (t.calls deeds).count .beep

/-- The display finds nothing in the queue and leaves it. -/
def Drains (t : Timelines P) : Deed → Prop
  | .act .display => t.display = .draining ∧ t.queued = 0
  | .act (.cpu _) | .act .timers | .act .stop | .visit .. => False

/-- The display does not come to the end of the queue during a row of deeds. -/
def NeverDrains (t : Timelines P) : List Deed → Prop
  | [] => True
  | deed :: deeds => ¬t.Drains deed ∧ (t.meet deed).NeverDrains deeds

instance : DecidablePred t.Drains
  | .act .display => inferInstanceAs (Decidable (_ ∧ _))
  | .act (.cpu _) | .act .timers | .act .stop | .visit .. => inferInstanceAs (Decidable False)

instance decidableNeverDrains (t : Timelines P) : DecidablePred t.NeverDrains
  | [] => .isTrue trivial
  | deed :: deeds =>
    have : Decidable ((t.meet deed).NeverDrains deeds) := decidableNeverDrains _ deeds
    inferInstanceAs (Decidable (_ ∧ _))

/-- A row of deeds is cut where the display left the queue for the last time, or before its
first deed if the display never did. -/
inductive LastDrain (t : Timelines P) : List Deed → List Deed → Prop
  | never {since : List Deed} : t.NeverDrains since → LastDrain t [] since
  | drain {before since : List Deed} {deed : Deed} :
    (t.afterDeeds before).Drains deed →
    (t.afterDeeds (before ++ [deed])).NeverDrains since → LastDrain t (before ++ [deed]) since

theorem obtained_cons (t : Timelines P) (deed : Deed) (deeds : List Deed) :
    t.obtained (deed :: deeds) =
      t.console.machine.beeps (t.event? deed).toList + (t.meet deed).obtained deeds :=
  List.countP_append

theorem played_cons (t : Timelines P) (deed : Deed) (deeds : List Deed) :
    t.played (deed :: deeds) =
      (t.call? deed).toList.count .beep + (t.meet deed).played deeds :=
  List.count_append

theorem played_append (t : Timelines P) (deeds deeds' : List Deed) :
    t.played (deeds ++ deeds') = t.played deeds + (t.afterDeeds deeds).played deeds' := by
  rw [played, calls_append, List.count_append]
  rfl

theorem sent_append (t : Timelines P) (deeds deeds' : List Deed) :
    t.sent (deeds ++ deeds') = t.sent deeds + (t.afterDeeds deeds).sent deeds' := by
  induction deeds generalizing t with
  | nil => exact (Nat.zero_add _).symm
  | cons deed deeds ih =>
    rw [List.cons_append, sent, sent, ih, Nat.add_assoc]
    rfl

theorem neverDrains_append (t : Timelines P) (deeds deeds' : List Deed) :
    t.NeverDrains (deeds ++ deeds') ↔
      t.NeverDrains deeds ∧ (t.afterDeeds deeds).NeverDrains deeds' := by
  induction deeds generalizing t with
  | nil => exact (iff_of_eq (true_and _)).symm
  | cons deed deeds ih =>
    rw [List.cons_append, NeverDrains, NeverDrains, ih, and_assoc]
    rfl

omit [Presentation P] in
/-- Only a tick gives a beep. -/
theorem beeps_event?_eq_zero (t : Timelines P) (hd : deed ≠ .act .timers) :
    t.console.machine.beeps (t.event? deed).toList = 0 := by
  rcases deed with (_ | _ | _ | _) | _
  case act.timers => exact absurd rfl hd
  case act.stop | visit => rfl
  all_goals
    simp only [event?]
    split
    · split <;> simp [Machine.beeps, Machine.answers, Machine.react, Machine.Answer.isBeep]
    · rfl

/-- What the timers hold grows by what they obtain and falls by what they send. -/
theorem Move.timers_held (hm : Move t deed happening t') :
    t'.timers.held + t.sends deed =
      t.timers.held + t.console.machine.beeps (t.event? deed).toList := by
  cases hm with
  | timersBegin ht | timersQuit ht | sends ht | timersRest ht =>
    simp [Timelines.sends, TimerPhase.held, event?, Machine.beeps, Machine.answers, ht]
  | timersLose ht hp =>
    simp [Timelines.sends, TimerPhase.held, event?, Machine.beeps, Machine.answers, ht, hp]
  | @ticks beep _ ht hp hb =>
    cases beep <;> simp [Timelines.sends, TimerPhase.held, event?, Machine.beeps,
      Machine.answers, Machine.react, Machine.Answer.isBeep, ht, hp, hb]
  | _ => simp [Timelines.sends, beeps_event?_eq_zero]

/-- What the display and the queue hold grows by what is sent and falls by what is played. -/
theorem Move.display_held (hm : Move t deed happening t') :
    t'.display.held + t'.queued + (t.call? deed).toList.count .beep =
      t.display.held + t.queued + t.sends deed := by
  cases hm with
  | timersBegin ht | timersQuit ht | timersLose ht | ticks ht | sends ht | timersRest ht =>
    simp [Timelines.sends, TimerPhase.held, call?, ht, Nat.add_assoc]
  | takes hd hq =>
    simp [DisplayPhase.held, Timelines.sends, call?, hd, hq]
    omega
  | displayBegins hd | displayEnds hd | polls hd | displayLoses hd | reports hd | renders hd
  | drains hd | beeps hd | leaves hd | displayRests hd =>
    simp [Timelines.sends, DisplayPhase.held, call?, hd, Nat.add_comm]
  | _ => rfl

theorem timers_held_afterDeeds (t : Timelines P) (deeds : List Deed) :
    (t.afterDeeds deeds).timers.held + t.sent deeds = t.timers.held + t.obtained deeds := by
  induction deeds generalizing t with
  | nil => rfl
  | cons deed deeds ih =>
    obtain ⟨_, hm⟩ := exists_move t deed
    have hh := hm.timers_held
    have hs := ih (t.meet deed)
    rw [afterDeeds_cons, obtained_cons, sent]
    omega

theorem display_held_afterDeeds (t : Timelines P) (deeds : List Deed) :
    (t.afterDeeds deeds).display.held + (t.afterDeeds deeds).queued + t.played deeds =
      t.display.held + t.queued + t.sent deeds := by
  induction deeds generalizing t with
  | nil => rfl
  | cons deed deeds ih =>
    obtain ⟨_, hm⟩ := exists_move t deed
    have hh := hm.display_held
    have hs := ih (t.meet deed)
    rw [afterDeeds_cons, played_cons, sent]
    omega

omit [Presentation P] in
theorem Drains.eq_act (h : t.Drains deed) :
    deed = .act .display ∧ t.display = .draining ∧ t.queued = 0 := by
  rcases deed with (_ | _ | _ | _) | _
  case act.display => exact ⟨rfl, h⟩
  all_goals exact h.elim

theorem Drains.meet (h : t.Drains deed) :
    (t.meet deed).display = .checking ∧ (t.meet deed).queued = 0 := by
  obtain ⟨rfl, hd, hq⟩ := h.eq_act
  simp [Timelines.meet, act, actDisplay, hd, hq]

/-- The display stays at the queue until it has come to its end. -/
theorem Move.atQueue (hm : Move t deed happening t') (h : t.display.AtQueue)
    (hd : ¬t.Drains deed) : t'.display.AtQueue := by
  cases hm with
  | displayBegins hp | displayEnds hp | polls hp | displayLoses hp | reports hp | renders hp
  | leaves hp =>
    rw [hp] at h
    exact h.elim
  | drains hp hq => exact absurd ⟨hp, hq⟩ hd
  | takes | beeps => trivial
  | _ => exact h

theorem atQueue_meet (h : t.display.AtQueue) (hd : ¬t.Drains deed) :
    (t.meet deed).display.AtQueue := by
  obtain ⟨_, hm⟩ := exists_move t deed
  exact hm.atQueue h hd

theorem atQueue_afterDeeds (h : t.display.AtQueue) (hd : t.NeverDrains deeds) :
    (t.afterDeeds deeds).display.AtQueue := by
  induction deeds generalizing t with
  | nil => exact h
  | cons deed deeds ih => exact ih (atQueue_meet h hd.1) hd.2

omit [Presentation P] in
/-- The display plays beeps at the queue only. -/
theorem count_beep_call? (h : ¬t.display.AtQueue) (deed : Deed) :
    (t.call? deed).toList.count .beep = 0 := by
  rcases deed with (_ | _ | _ | _) | _
  case act.display =>
    simp only [call?]
    split
    case h_3 hd => exact absurd (hd ▸ trivial) h
    all_goals rfl
  all_goals rfl

/-- A display that never comes to the end of the queue is still there or plays nothing. -/
theorem played_of_neverDrains (h : ¬t.display.AtQueue) (hd : t.NeverDrains deeds) :
    (t.afterDeeds deeds).display.AtQueue ∨ t.played deeds = 0 := by
  induction deeds generalizing t with
  | nil => exact .inr rfl
  | cons deed deeds ih =>
    rw [afterDeeds_cons]
    -- a display that comes to the queue here stays there, as it never drains it
    by_cases hq : (t.meet deed).display.AtQueue
    · exact .inl (atQueue_afterDeeds hq hd.2)
    · refine (ih hq hd.2).imp id fun hp => ?_
      rw [played_cons, count_beep_call? h, hp]

/-- A display that has left the queue has played what was in it. -/
theorem held_le_played (h : t.display.AtQueue) (deeds : List Deed) :
    (t.afterDeeds deeds).display.AtQueue ∨ t.display.held + t.queued ≤ t.played deeds := by
  induction deeds generalizing t with
  | nil => exact .inl h
  | cons deed deeds ih =>
    by_cases hd : t.Drains deed
    · obtain ⟨-, hp, hq⟩ := hd.eq_act
      rw [hp, hq]
      exact .inr (Nat.zero_le _)
    · refine (ih (atQueue_meet h hd)).imp id fun hp => ?_
      obtain ⟨_, hm⟩ := exists_move t deed
      have hh := hm.display_held
      rw [played_cons]
      omega

theorem exists_lastDrain (t : Timelines P) (deeds : List Deed) :
    ∃ before since, deeds = before ++ since ∧ t.LastDrain before since := by
  induction deeds using List.reverseRecOn with
  | nil => exact ⟨[], [], rfl, .never trivial⟩
  | append_singleton deeds deed ih =>
    -- the new deed is the last drain itself, or it comes after the last one so far
    by_cases hd : (t.afterDeeds deeds).Drains deed
    · exact ⟨deeds ++ [deed], [], (List.append_nil _).symm, .drain hd trivial⟩
    · obtain ⟨before, since, rfl, h⟩ := ih
      rw [afterDeeds_append] at hd
      refine ⟨before, since ++ [deed], List.append_assoc .., ?_⟩
      cases h with
      | never hn => exact .never ((neverDrains_append ..).mpr ⟨hn, hd, trivial⟩)
      | drain hl hn => exact .drain hl ((neverDrains_append ..).mpr ⟨hn, hd, trivial⟩)

/-- When the display has left the queue for the last time, all beeps sent by then are played. -/
theorem LastDrain.played_eq (h : t.LastDrain before since) (hh : t.display.held = 0)
    (hq : t.queued = 0) : t.played before = t.sent before := by
  have hp := display_held_afterDeeds t before
  cases h with
  | never => rfl
  | drain hd _ =>
    rw [afterDeeds_append] at hp
    obtain ⟨hd', hq'⟩ := hd.meet
    simp only [afterDeeds, List.foldl_cons, List.foldl_nil] at hp hd' hq'
    rw [hd', hq', hh, hq] at hp
    simpa [DisplayPhase.held] using hp

/-- After that none is played before the display is at the queue again. -/
theorem LastDrain.played_since (h : t.LastDrain before since) (hq : ¬t.display.AtQueue) :
    (t.afterDeeds (before ++ since)).display.AtQueue ∨
      (t.afterDeeds before).played since = 0 := by
  rw [afterDeeds_append]
  cases h with
  | never hn => exact played_of_neverDrains hq hn
  | drain hd hn =>
    refine played_of_neverDrains ?_ hn
    rw [afterDeeds_append]
    change ¬DisplayPhase.AtQueue (Timelines.meet _ _).display
    rw [hd.meet.1]
    exact id

/-- At every point of a run the beeps that were played, taken, queued or not yet sent are those
that ticks gave the timers, where those played are the calls that have made the presentation
what it is. Beeps that were sent before or while the display empties the queue are played when
it is back at the beginning of its turn. So in the end the beeps that are not played are those
which the timers sent after the display left the queue for the last time. -/
theorem beeps_conserved {threads : Threads} {console : Console} {presentation : P}
    {run : Timelines P} (hl : launch threads console presentation = .ok run) :
    (∀ deeds,
      (run.afterDeeds deeds).presentation = Presentation.after presentation (run.calls deeds) ∧
      run.played deeds + (run.afterDeeds deeds).display.held +
        (run.afterDeeds deeds).queued + (run.afterDeeds deeds).timers.held =
      run.obtained deeds) ∧
    (∀ before since, (run.afterDeeds before).display = .draining →
      (run.afterDeeds (before ++ since)).display = .checking →
      run.sent before ≤ run.played (before ++ since)) ∧
    (∀ deeds, ∃ before since, deeds = before ++ since ∧ run.LastDrain before since) ∧
    ∀ before since result, run.LastDrain before since →
      (run.afterDeeds (before ++ since)).result? = some result →
      run.played (before ++ since) = run.sent before ∧
      run.obtained (before ++ since) =
        run.played (before ++ since) + (run.afterDeeds before).sent since := by
  obtain ⟨hpres, h0, h1, h2, hq⟩ : run.presentation = presentation ∧ run.timers.held = 0 ∧
      run.display.held = 0 ∧ run.queued = 0 ∧ ¬run.display.AtQueue := by
    obtain ⟨-, -, ⟨-, rfl⟩ | ⟨_, -, rfl⟩⟩ := launch_eq_ok_iff.mp hl
    · exact ⟨rfl, rfl, rfl, rfl, id⟩
    · exact ⟨rfl, rfl, rfl, rfl, id⟩
  refine ⟨?_, ?_, exists_lastDrain _, ?_⟩
  · intro deeds
    have ht := timers_held_afterDeeds run deeds
    have hd := display_held_afterDeeds run deeds
    refine ⟨?_, by omega⟩
    rw [presentation_afterDeeds, hpres]
  · intro before since hb hs
    have hd := display_held_afterDeeds run before
    have hq : (run.afterDeeds before).display.AtQueue := by
      rw [hb]
      trivial
    rw [afterDeeds_append] at hs
    rcases held_le_played hq since with hp | hp
    · rw [hs] at hp
      exact hp.elim
    · rw [played_append]
      omega
  · intro before since result h hr
    -- both have ended, so the timers hold nothing and the display is not at the queue
    obtain ⟨-, timers, display, -, htimers, hdisplay, -⟩ := result?_eq_some_iff.mp hr
    have hp := h.played_eq h1 h2
    have hs : (run.afterDeeds before).played since = 0 := by
      refine (h.played_since hq).resolve_left fun hq => ?_
      rw [hdisplay] at hq
      exact hq
    have ht := timers_held_afterDeeds run (before ++ since)
    rw [htimers, TimerPhase.held, sent_append] at ht
    rw [played_append]
    omega

/-- The second of two beeps is obtained while the display still has the first, and it is sent
too late to be played. In between somebody sets the sound timer once more. -/
theorem beeps_conserved_late_beep :
    let machine : Machine := ⟨{ State.initial with sound := 1 }, .released⟩
    let run := start (Console.ofMachine machine .standard) Recorder.empty
    let first : List Deed := [.act .timers, .act .timers, .act .timers,
      .act .display, .act .display, .act .display, .act .display]
    let second : List Deed := [.act .display, .visit machine false, .act .timers,
      .act .timers, .act .display]
    let since : List Deed := [.act .timers, .act .stop, .act .timers, .act .display,
      .act .display, .act (.cpu 0)]
    let before := first ++ second ++ [.act .display]
    run.LastDrain before since ∧ (run.afterDeeds (before ++ since)).result? = some (.ok ()) ∧
      run.sent first ≤ run.played before ∧ run.obtained (before ++ since) = 2 ∧
      (run.afterDeeds (before ++ since)).presentation.beeps = 1 := by
  intro machine run first second since before
  have hl : launch .started (Console.ofMachine machine .standard) Recorder.empty = .ok run := rfl
  have hd : (run.afterDeeds first).display = .draining := by decide +kernel
  have hc : (run.afterDeeds (first ++ (second ++ [.act .display]))).display = .checking := by
    decide +kernel
  have hlast : run.LastDrain before since := .drain (by decide +kernel) (by decide +kernel)
  have hr : (run.afterDeeds (before ++ since)).result? = some (.ok ()) := by decide +kernel
  obtain ⟨hcalls, hq, -, he⟩ := beeps_conserved hl
  obtain ⟨hp, ho⟩ := he before since _ hlast hr
  have hb : run.sent before = 1 := by decide +kernel
  have ha : (run.afterDeeds before).sent since = 1 := by decide +kernel
  rw [hp, hb, ha] at ho
  refine ⟨hlast, hr, hq first _ hd hc, ho, ?_⟩
  rw [(hcalls _).1, Recorder.after_eq]
  exact (Nat.zero_add _).trans (hp.trans hb)

end Timelines

end HexConsole
