import HexConsole.Schedule.Deeds

/-! # Moves of the timelines

An action finds its timeline in some phase and does what comes next there. The moves say what
that is, one for every phase and every way in which the phase can go on, and one for a visit
from outside, so that what deeds keep is shown by cases of the move. A row of deeds is a row of
moves.
-/

namespace HexConsole.Timelines

variable {P : Type} [Presentation P] {t t' : Timelines P} {deed : Deed} {action : Action}
  {happening : Option Happening}

/-- What a deed can do to timelines, and what can be seen of it. -/
inductive Move (t : Timelines P) : Deed → Option Happening → Timelines P → Prop

  | cpuBegins {byte : UInt8} : t.cpu = .checking → t.console.stopped = false →
      Move t (.act (.cpu byte)) none { t with cpu := .stepping }

  | cpuQuits {byte : UInt8} : t.cpu = .checking → t.console.stopped = true →
      Move t (.act (.cpu byte)) none { t with cpu := .done (.ok ()) }

  | cpuLoses {byte : UInt8} : t.cpu = .stepping → t.console.poisoned = true →
      Move t (.act (.cpu byte)) none { t with cpu := .failing .poisoned }

  | steps {byte : UInt8} {machine : Machine} : t.cpu = .stepping →
      t.console.poisoned = false → t.console.machine.step byte = (.ok (), machine) →
      Move t (.act (.cpu byte)) (some (.stepped (.ok ())))
        { t with console := { t.console with machine }, cpu := .checking }

  | faults {byte : UInt8} {fault : Fault} {machine : Machine} : t.cpu = .stepping →
      t.console.poisoned = false → t.console.machine.step byte = (.error fault, machine) →
      Move t (.act (.cpu byte)) (some (.stepped (.error fault)))
        { t with console := { t.console with machine }, cpu := .failing fault }

  | cpuFails {byte : UInt8} {fault : Fault} : t.cpu = .failing fault →
      Move t (.act (.cpu byte)) (some (.failed fault))
        { t with console := { t.console with stopped := true }, cpu := .done (.error fault) }

  | cpuRests {byte : UInt8} {result : Except Fault Unit} : t.cpu = .done result →
      Move t (.act (.cpu byte)) none t

  | timersBegin : t.timers = .checking → t.console.stopped = false →
      Move t (.act .timers) none { t with timers := .ticking }

  | timersQuit : t.timers = .checking → t.console.stopped = true →
      Move t (.act .timers) none { t with timers := .done (.ok ()) }

  | timersLose : t.timers = .ticking → t.console.poisoned = true →
      Move t (.act .timers) none { t with timers := .done (.error .poisoned) }

  | ticks {beep : Bool} {machine : Machine} : t.timers = .ticking →
      t.console.poisoned = false → t.console.machine.tick = (beep, machine) →
      Move t (.act .timers) (some (.ticked beep))
        { t with
          console := { t.console with machine }
          timers := if beep then .sending else .checking }

  | sends : t.timers = .sending →
      Move t (.act .timers) none { t with queued := t.queued + 1, timers := .checking }

  | timersRest {result : Except Fault Unit} : t.timers = .done result →
      Move t (.act .timers) none t

  | displayBegins : t.display = .checking → t.console.stopped = false →
      Presentation.closed t.presentation = false →
      Move t (.act .display) none { t with display := .polling }

  | displayEnds : t.display = .checking →
      (t.console.stopped || Presentation.closed t.presentation) = true →
      Move t (.act .display) none { t with display := .leaving (.ok ()) }

  | polls {key : Key} {presentation : P} : t.display = .polling →
      Presentation.pollKey t.presentation = (key, presentation) →
      Move t (.act .display) (some (.polled key)) { t with presentation, display := .exchanging key }

  | displayLoses {key : Key} : t.display = .exchanging key → t.console.poisoned = true →
      Move t (.act .display) none { t with display := .leaving (.error .poisoned) }

  | reports {key : Key} : t.display = .exchanging key → t.console.poisoned = false →
      Move t (.act .display) (some (.reported key))
        { t with
          console := { t.console with machine := t.console.machine.setKey key }
          display := .rendering t.console.machine.state.screen }

  | renders {frame : Screen} : t.display = .rendering frame →
      Move t (.act .display) (some (.rendered frame))
        { t with
          presentation := Presentation.render t.presentation frame
          display := .draining }

  | drains : t.display = .draining → t.queued = 0 →
      Move t (.act .display) none { t with display := .checking }

  | takes {queued : Nat} : t.display = .draining → t.queued = queued + 1 →
      Move t (.act .display) none { t with queued, display := .beeping }

  | beeps : t.display = .beeping →
      Move t (.act .display) (some .beeped)
        { t with presentation := Presentation.beep t.presentation, display := .draining }

  | leaves {result : Except Fault Unit} : t.display = .leaving result →
      Move t (.act .display) none
        { t with console := { t.console with stopped := true }, display := .done result }

  | displayRests {result : Except Fault Unit} : t.display = .done result →
      Move t (.act .display) none t

  | stops : Move t (.act .stop) none { t with console := { t.console with stopped := true } }

  | visits {machine : Machine} {poisoned : Bool} :
      Move t (.visit machine poisoned) none
        { t with console := { t.console with machine, poisoned } }

theorem move_actCpu (t : Timelines P) (byte : UInt8) :
    t.Move (.act (.cpu byte)) (t.actCpu byte).1 (t.actCpu byte).2 := by
  unfold actCpu
  split
  case h_1 hc =>
    split
    case isTrue hs => exact .cpuQuits hc hs
    case isFalse hs => exact .cpuBegins hc (eq_false_of_ne_true hs)
  case h_2 hc =>
    split
    case isTrue hp => exact .cpuLoses hc hp
    case isFalse hp =>
      have hp := eq_false_of_ne_true hp
      rcases hm : t.console.machine.step byte with ⟨_ | _, machine⟩
      · exact .faults hc hp hm
      · exact .steps hc hp hm
  case h_3 hc => exact .cpuFails hc
  case h_4 hc => exact .cpuRests hc

theorem move_actTimers (t : Timelines P) :
    t.Move (.act .timers) t.actTimers.1 t.actTimers.2 := by
  unfold actTimers
  split
  case h_1 ht =>
    split
    case isTrue hs => exact .timersQuit ht hs
    case isFalse hs => exact .timersBegin ht (eq_false_of_ne_true hs)
  case h_2 ht =>
    split
    case isTrue hp => exact .timersLose ht hp
    case isFalse hp => exact .ticks ht (eq_false_of_ne_true hp) rfl
  case h_3 ht => exact .sends ht
  case h_4 ht => exact .timersRest ht

theorem move_actDisplay (t : Timelines P) :
    t.Move (.act .display) t.actDisplay.1 t.actDisplay.2 := by
  unfold actDisplay
  split
  case h_1 hd =>
    extract_lets ended
    split
    case isTrue he => exact .displayEnds hd he
    case isFalse he =>
      obtain ⟨hs, hc⟩ := Bool.or_eq_false_iff.mp (eq_false_of_ne_true he)
      exact .displayBegins hd hs hc
  case h_2 hd => exact .polls hd rfl
  case h_3 hd =>
    split
    case isTrue hp => exact .displayLoses hd hp
    case isFalse hp => exact .reports hd (eq_false_of_ne_true hp)
  case h_4 hd => exact .renders hd
  case h_5 hd =>
    split
    case h_1 hq => exact .drains hd hq
    case h_2 hq => exact .takes hd hq
  case h_6 hd => exact .beeps hd
  case h_7 hd => exact .leaves hd
  case h_8 hd => exact .displayRests hd

/-- Every action is a move. -/
theorem move_act (t : Timelines P) (action : Action) :
    t.Move (.act action) (t.act action).1 (t.act action).2 := by
  cases action with
  | cpu byte => exact move_actCpu t byte
  | timers => exact move_actTimers t
  | display => exact move_actDisplay t
  | stop => exact .stops

/-- Every deed is a move. -/
theorem exists_move (t : Timelines P) (deed : Deed) :
    ∃ happening, t.Move deed happening (t.meet deed) := by
  cases deed with
  | act action => exact ⟨_, move_act t action⟩
  | visit machine poisoned => exact ⟨none, .visits⟩

/-- What every allowed move keeps holds after any row of allowed deeds. -/
theorem afterDeeds_induction {holds : Timelines P → Prop} {allowed : Deed → Prop}
    (hm : ∀ t deed happening t', Move t deed happening t' → allowed deed → holds t → holds t')
    (h : holds t) (deeds : List Deed) (ha : ∀ deed ∈ deeds, allowed deed) :
    holds (t.afterDeeds deeds) := by
  induction deeds generalizing t with
  | nil => exact h
  | cons deed deeds ih =>
    obtain ⟨ha, ha'⟩ := List.forall_mem_cons.mp ha
    obtain ⟨happening, hd⟩ := exists_move t deed
    exact ih (hm _ _ _ _ hd ha h) ha'

omit [Presentation P] in
theorem launch_eq_ok_iff {threads : Threads} {console : Console} {presentation : P} :
    launch threads console presentation = .ok t ↔
      console.rates.validate = .ok () ∧ threads.cpu = .ok () ∧
        ((threads.timers = .ok () ∧ t = start console presentation) ∨
          ∃ reason, threads.timers = .error reason ∧
            t = abandon console presentation (.unreadable reason)) := by
  obtain ⟨cpu, timers⟩ := threads
  unfold launch
  cases console.rates.validate with
  | error fault => exact ⟨nofun, nofun⟩
  | ok =>
    cases cpu with
    | error reason => exact ⟨nofun, nofun⟩
    | ok =>
      cases timers with
      | ok =>
        constructor
        · intro h
          exact ⟨rfl, rfl, .inl ⟨rfl, (Except.ok.inj h).symm⟩⟩
        · rintro ⟨-, -, ⟨-, rfl⟩ | ⟨_, h, -⟩⟩
          · rfl
          · cases h
      | error reason =>
        constructor
        · intro h
          exact ⟨rfl, rfl, .inr ⟨reason, rfl, (Except.ok.inj h).symm⟩⟩
        · rintro ⟨-, -, ⟨h, -⟩ | ⟨_, ⟨⟩, rfl⟩⟩
          · cases h
          · rfl

omit [Presentation P] in
/-- A run that gets its threads begins unless a rate is zero. -/
theorem launch_started_iff {console : Console} {presentation : P} :
    launch .started console presentation = .ok t ↔
      console.rates.validate = .ok () ∧ t = start console presentation := by
  rw [launch_eq_ok_iff]
  constructor
  · rintro ⟨hv, -, ⟨-, rfl⟩ | ⟨_, h, -⟩⟩
    · exact ⟨hv, rfl⟩
    · cases h
  · rintro ⟨hv, rfl⟩
    exact ⟨hv, rfl, .inl ⟨rfl, rfl⟩⟩

omit [Presentation P] in
theorem result?_eq_some_iff {result : Except Fault Unit} :
    t.result? = some result ↔
      ∃ cpu timers display, t.cpu = .done cpu ∧ t.timers = .done timers ∧
        t.display = .done display ∧ verdict t.refusal cpu timers display = result := by
  unfold result?
  constructor
  · intro h
    split at h
    case h_1 cpu timers display hc ht hd =>
      exact ⟨cpu, timers, display, hc, ht, hd, Option.some.inj h⟩
    case h_2 => cases h
  · rintro ⟨cpu, timers, display, hc, ht, hd, rfl⟩
    rw [hc, ht, hd]

theorem Move.rates (hm : Move t deed happening t') :
    t'.console.rates = t.console.rates := by
  cases hm <;> rfl

theorem Move.refusal (hm : Move t deed happening t') : t'.refusal = t.refusal := by
  cases hm <;> rfl

theorem Move.poisoned {poisoned : Bool} (hm : Move t deed happening t')
    (hp : t.console.poisoned = poisoned) (hd : deed.Leaves poisoned) :
    t'.console.poisoned = poisoned := by
  cases hm with
  | visits => exact hd
  | _ => exact hp

/-- The deeds that set the stop flag: the action of the processor after a fault, that of the
display at its end, and anybody's from outside. -/
def Stops (t : Timelines P) : Deed → Prop
  | .act (.cpu _) => ∃ fault, t.cpu = .failing fault
  | .act .display => ∃ result, t.display = .leaving result
  | .act .stop => True
  | .act .timers | .visit .. => False

theorem Move.stopped_iff (hm : Move t deed happening t') :
    t'.console.stopped = true ↔ t.console.stopped = true ∨ t.Stops deed := by
  cases hm with
  | cpuFails hc => exact iff_of_true rfl (.inr ⟨_, hc⟩)
  | leaves hd => exact iff_of_true rfl (.inr ⟨_, hd⟩)
  | stops => exact iff_of_true rfl (.inr trivial)
  | cpuBegins hp | cpuQuits hp | cpuLoses hp | steps hp | faults hp | cpuRests hp
  | displayBegins hp | displayEnds hp | polls hp | displayLoses hp | reports hp | renders hp
  | drains hp | takes hp | beeps hp | displayRests hp =>
    refine (or_iff_left ?_).symm
    rintro ⟨_, h⟩
    rw [hp] at h
    cases h
  | timersBegin | timersQuit | timersLose | ticks | sends | timersRest | visits =>
    exact (or_iff_left id).symm

theorem Move.stopped (hm : Move t deed happening t') (hs : t.console.stopped = true) :
    t'.console.stopped = true :=
  hm.stopped_iff.mpr (.inl hs)

end HexConsole.Timelines
