import HexConsole.Proofs.Halting
import HexConsole.Proofs.Traces
import HexConsole.Recorder
import Mathlib.Control.Monad.Basic

/-! # How a run ends

A run that gets its threads ends with the first fault of the processor, the timers and the
display. As long as the lock is not poisoned only the processor has faults, and its first is its
last: it takes no further step, and whatever the others still do leaves the state of the failed
step alone but for the timers. So the result of a run tells exactly how its steps went. A run
that does not get a thread returns why, whatever its steps have come to by then.
-/

namespace HexConsole

namespace Fault

/-- The address of the instruction that a fault names. -/
def pc? : Fault → Option UInt16
  | unknownOpcode _ pc | stackUnderflow pc | stackOverflow pc | addressOutOfRange _ pc => some pc
  | unreadable _ | invalidRates _ | poisoned => none

end Fault

namespace State

variable {s : State} {fault : Fault}

theorem rangeFault?_names {address len : Nat} (h : s.rangeFault? address len = some fault) :
    fault.isFatal = true ∧ fault.pc? = some s.pc := by
  obtain ⟨-, hf⟩ := Option.ite_none_right_eq_some.mp h
  obtain rfl := Option.some.inj hf
  exact ⟨rfl, rfl⟩

theorem instruction_fault?_names {i : Instruction} (h : i.fault? s = some fault) :
    fault.isFatal = true ∧ fault.pc? = some s.pc := by
  cases i with
  | leave | call =>
    obtain ⟨-, hf⟩ := Option.ite_none_right_eq_some.mp h
    obtain rfl := Option.some.inj hf
    exact ⟨rfl, rfl⟩
  | draw | storeDecimal | store | load => exact rangeFault?_names h
  | unknown word =>
    obtain rfl := Option.some.inj h
    exact ⟨rfl, rfl⟩
  | _ => cases h

/-- The fault of a step is fatal and names the program counter. -/
theorem fault?_names (h : s.fault? = some fault) :
    fault.isFatal = true ∧ fault.pc? = some s.pc := by
  rcases Option.or_eq_some_iff.mp h with hr | ⟨-, hi⟩
  · exact rangeFault?_names hr
  · exact instruction_fault?_names hi

end State

/-- The fault with which a timeline ends. -/
def CpuPhase.fault? : CpuPhase → Option Fault
  | failing fault | done (.error fault) => some fault
  | checking | stepping | done (.ok ()) => none

def TimerPhase.fault? : TimerPhase → Option Fault
  | done (.error fault) => some fault
  | checking | ticking | sending | done (.ok ()) => none

def DisplayPhase.fault? : DisplayPhase → Option Fault
  | leaving (.error fault) | done (.error fault) => some fault
  | _ => none

/-- The display does not begin another turn. -/
def DisplayPhase.Ended : DisplayPhase → Prop
  | leaving _ | done _ => True
  | checking | polling | exchanging _ | rendering _ | draining | beeping => False

namespace Timelines

variable {P : Type} [Presentation P] {t t' : Timelines P} {deed : Deed} {deeds : List Deed}
  {happening : Option Happening} {fault : Fault}

/-- Only the processor can still have a fault. -/
structure Unharmed (t : Timelines P) : Prop where
  threads : t.refusal = none
  lock : t.console.poisoned = false
  timers : t.timers.fault? = none
  display : t.display.fault? = none

/-- The instruction that the processor executes between two rows of deeds fails. It is the first
to fail and the last of all, and the later actions change nothing of the state but the timers. -/
structure FailsAt (t : Timelines P) (fault : Fault) (before : List Deed) (byte : UInt8)
    (after : List Deed) : Prop where
  step : (t.afterDeeds before).console.machine.step byte =
    (.error fault, (t.afterDeeds before).console.machine)
  executed : (t.afterDeeds before).event? (.act (.cpu byte)) = some (.step byte)
  first : ∀ step ∈ t.steps before, step = .ok ()
  last : ((t.afterDeeds before).meet (.act (.cpu byte))).steps after = []
  state : (∀ deed ∈ after, ¬deed.IsVisit) →
    (t.afterDeeds before).console.machine.state.Retimed
      (t.afterDeeds (before ++ .act (.cpu byte) :: after)).console.machine.state

omit [Presentation P] in
theorem Stops.fault_or_ended (h : t.Stops deed) (hd : deed ≠ .act .stop) :
    (∃ fault, t.cpu.fault? = some fault) ∨ t.display.Ended := by
  rcases deed with (byte | _ | _ | _) | _
  case act.cpu =>
    obtain ⟨fault, hc⟩ := h
    exact .inl ⟨fault, by rw [hc]; rfl⟩
  case act.display =>
    obtain ⟨result, hd⟩ := h
    exact .inr (hd ▸ trivial)
  case act.stop => exact absurd rfl hd
  all_goals exact h.elim

omit [Presentation P] in
/-- A run that got its threads returns the first fault of the processor, the timers and the
display. -/
theorem result_eq_first_fault {result : Except Fault Unit} (ht : t.refusal = none)
    (hr : t.result? = some result) :
    result = match t.cpu.fault?.or (t.timers.fault?.or t.display.fault?) with
      | some fault => .error fault
      | none => .ok () := by
  obtain ⟨cpu, timers, display, hcpu, htimers, hdisplay, rfl⟩ := result?_eq_some_iff.mp hr
  rw [hcpu, htimers, hdisplay, ht]
  rcases cpu with fault | _
  · rfl
  · rcases timers with fault | _
    · rfl
    · cases display <;> rfl

omit [Presentation P] in
theorem Unharmed.result_eq {result : Except Fault Unit} (hu : t.Unharmed)
    (hr : t.result? = some result) :
    result = match t.cpu.fault? with
      | some fault => .error fault
      | none => .ok () := by
  have h := result_eq_first_fault hu.threads hr
  rwa [hu.timers, hu.display, Option.none_or, Option.or_none] at h

theorem Move.unharmed (hm : Move t deed happening t') (hd : deed.Leaves false)
    (hu : t.Unharmed) : t'.Unharmed := by
  obtain ⟨hr, hp, ht, hf⟩ := hu
  have hr' := hm.refusal.trans hr
  have hp' := hm.poisoned hp hd
  cases hm with
  | timersLose _ h | displayLoses _ h =>
    rw [hp] at h
    cases h
  | ticks _ _ _ =>
    refine ⟨hr', hp', ?_, hf⟩
    split <;> rfl
  | @leaves result h =>
    rw [h] at hf
    cases result with
    | error fault => cases hf
    | ok => exact ⟨hr', hp', ht, rfl⟩
  | timersBegin | timersQuit | sends => exact ⟨hr', hp', rfl, hf⟩
  | displayBegins | displayEnds | polls | reports | renders | drains | takes | beeps =>
    exact ⟨hr', hp', ht, rfl⟩
  | _ => exact ⟨hr', hp', ht, hf⟩

theorem Unharmed.afterDeeds (hu : t.Unharmed) (hd : ∀ deed ∈ deeds, deed.Leaves false) :
    (t.afterDeeds deeds).Unharmed :=
  afterDeeds_induction (fun _ _ _ _ hm hd hu => hm.unharmed hd hu) hu deeds hd

theorem Move.cpu_of_fault (hm : Move t deed happening t') (hf : t.cpu.fault? = some fault) :
    t'.cpu.fault? = some fault ∧ (∀ result, happening ≠ some (.stepped result)) ∧
      (¬deed.IsVisit → t.console.machine.state.Retimed t'.console.machine.state) := by
  cases hm with
  | cpuBegins hc | cpuQuits hc | cpuLoses hc | steps hc | faults hc =>
    rw [hc] at hf
    cases hf
  | cpuFails hc =>
    rw [hc] at hf
    exact ⟨hf, nofun, fun _ => .refl _⟩
  | ticks _ _ hb =>
    obtain ⟨-, rfl⟩ := Prod.mk.inj hb
    exact ⟨hf, nofun, fun _ => ⟨_, _, rfl⟩⟩
  | visits => exact ⟨hf, nofun, fun hv => absurd trivial hv⟩
  | _ => exact ⟨hf, nofun, fun _ => .refl _⟩

theorem Move.cpu_of_none (hm : Move t deed happening t') (hp : t.console.poisoned = false)
    (hf : t.cpu.fault? = none) :
    (t'.cpu.fault? = none ∧
      ∀ result, happening = some (.stepped result) → result = .ok ()) ∨
    ∃ byte fault, deed = .act (.cpu byte) ∧
      t.event? (.act (.cpu byte)) = some (.step byte) ∧
      t.console.machine.step byte = (.error fault, t.console.machine) ∧
      t'.console.machine = t.console.machine ∧ t'.cpu.fault? = some fault := by
  cases hm with
  | cpuLoses _ h =>
    rw [hp] at h
    cases h
  | @faults byte fault machine hc _ hs =>
    obtain ⟨-, rfl⟩ := Machine.step_eq_error_iff.mp hs
    exact .inr ⟨byte, fault, rfl, by simp [event?, hc, hp], hs, rfl, rfl⟩
  | steps =>
    refine .inl ⟨rfl, ?_⟩
    rintro result ⟨⟩
    rfl
  | cpuFails hc =>
    rw [hc] at hf
    cases hf
  | cpuBegins | cpuQuits => exact .inl ⟨rfl, by rintro _ ⟨⟩⟩
  | _ => exact .inl ⟨hf, by rintro _ ⟨⟩⟩

/-- A processor with a fault keeps it and executes nothing any more. -/
theorem cpu_afterDeeds_of_fault (hf : t.cpu.fault? = some fault) (deeds : List Deed) :
    (t.afterDeeds deeds).cpu.fault? = some fault ∧ t.steps deeds = [] ∧
      ((∀ deed ∈ deeds, ¬deed.IsVisit) →
        t.console.machine.state.Retimed (t.afterDeeds deeds).console.machine.state) := by
  induction deeds generalizing t with
  | nil => exact ⟨hf, rfl, fun _ => .refl _⟩
  | cons deed deeds ih =>
    obtain ⟨happening, hm⟩ := exists_move t deed
    obtain ⟨hf', hn, hs⟩ := hm.cpu_of_fault hf
    obtain ⟨hf'', hns, hs'⟩ := ih hf'
    refine ⟨hf'', ?_, fun hv => ?_⟩
    · rw [steps_cons, hns, List.append_nil, List.eq_nil_iff_forall_not_mem]
      exact fun result hr => hn result (hm.mem_results_iff.mp hr)
    · obtain ⟨hv, hv'⟩ := List.forall_mem_cons.mp hv
      exact (hs hv).trans (hs' hv')

theorem FailsAt.cons {before after : List Deed} {byte : UInt8}
    (hs : ∀ step ∈ t.console.machine.results (t.event? deed).toList, step = .ok ())
    (h : (t.meet deed).FailsAt fault before byte after) :
    t.FailsAt fault (deed :: before) byte after := by
  refine ⟨h.step, h.executed, ?_, h.last, h.state⟩
  intro step hm
  rw [steps_cons] at hm
  rcases List.mem_append.mp hm with hm | hm
  · exact hs step hm
  · exact h.first step hm

theorem FailsAt.mem_steps_iff {before after : List Deed} {byte : UInt8} {fault' : Fault}
    (h : t.FailsAt fault before byte after) :
    .error fault' ∈ t.steps (before ++ .act (.cpu byte) :: after) ↔ fault' = fault := by
  have hs : (t.afterDeeds before).console.machine.results
      ((t.afterDeeds before).event? (.act (.cpu byte))).toList = [.error fault] := by
    rw [h.executed, Option.toList, Machine.results_step, h.step]
  rw [steps_append, steps_cons, hs, h.last, List.append_nil, List.mem_append,
    List.mem_singleton, Except.error.injEq, or_iff_right]
  intro hm
  cases h.first _ hm

/-- Either no step of a row of deeds fails, or the row has a failing step. -/
theorem cpu_afterDeeds_of_none (hu : t.Unharmed) (hf : t.cpu.fault? = none)
    (hd : ∀ deed ∈ deeds, deed.Leaves false) :
    ((t.afterDeeds deeds).cpu.fault? = none ∧ ∀ step ∈ t.steps deeds, step = .ok ()) ∨
    ∃ fault before byte after, deeds = before ++ .act (.cpu byte) :: after ∧
      t.FailsAt fault before byte after ∧ (t.afterDeeds deeds).cpu.fault? = some fault := by
  induction deeds generalizing t with
  | nil => exact .inl ⟨hf, nofun⟩
  | cons deed deeds ih =>
    obtain ⟨hd, hd'⟩ := List.forall_mem_cons.mp hd
    obtain ⟨happening, hm⟩ := exists_move t deed
    rcases hm.cpu_of_none hu.lock hf with ⟨hf', ha⟩ | ⟨byte, fault, rfl, he, hst, hk, hf'⟩
    · have hs : ∀ step ∈ t.console.machine.results (t.event? deed).toList, step = .ok () :=
        fun step hr => ha step (hm.mem_results_iff.mp hr)
      rcases ih (hm.unharmed hd hu) hf' hd' with
        ⟨hf'', hs'⟩ | ⟨fault, before, byte, after, rfl, h, hf''⟩
      · refine .inl ⟨hf'', ?_⟩
        intro step hr
        rw [steps_cons] at hr
        exact (List.mem_append.mp hr).elim (hs step) (hs' step)
      · exact .inr ⟨fault, deed :: before, byte, after, rfl, h.cons hs, hf''⟩
    · obtain ⟨hf'', hn, hs⟩ := cpu_afterDeeds_of_fault hf' deeds
      rw [hk] at hs
      exact .inr ⟨fault, [], byte, deeds, rfl, ⟨hst, he, nofun, hn, hs⟩, hf''⟩

/-- A run that gets its threads and whose lock is not poisoned returns the fault of its failing
step if there is one, and success if there is none. The fault is fatal and names the address of
the failing instruction, and unless somebody visits the machine after that, it is left in the
state of that step but for the timers. A machine that nobody visits at all has lived through the
events of the run. -/
theorem run_outcome {console : Console} {presentation : P} {run : Timelines P}
    {result : Except Fault Unit} (hl : launch .started console presentation = .ok run)
    (hp : console.poisoned = false) (hd : ∀ deed ∈ deeds, deed.Leaves false)
    (hr : (run.afterDeeds deeds).result? = some result) :
    (∀ fault, result = .error fault ↔ .error fault ∈ run.steps deeds) ∧
    (result = .ok () ↔ ∀ step ∈ run.steps deeds, step = .ok ()) ∧
    (∀ fault, result = .error fault →
      fault.isFatal = true ∧
      ∃ before byte after, deeds = before ++ .act (.cpu byte) :: after ∧
        run.FailsAt fault before byte after ∧
        fault.pc? = some (run.afterDeeds before).console.machine.state.pc ∧
        ((∀ deed ∈ after, ¬deed.IsVisit) →
          fault.pc? = some (run.afterDeeds deeds).console.machine.state.pc)) ∧
    ((∀ deed ∈ deeds, ¬deed.IsVisit) →
      (run.afterDeeds deeds).console.machine = console.machine.after (run.events deeds) ∧
      run.steps deeds = console.machine.results (run.events deeds)) := by
  obtain ⟨-, rfl⟩ := launch_started_iff.mp hl
  have hu : (start console presentation).Unharmed := ⟨rfl, hp, rfl, rfl⟩
  have hres := (hu.afterDeeds hd).result_eq hr
  have hm : (∀ deed ∈ deeds, ¬deed.IsVisit) →
      ((start console presentation).afterDeeds deeds).console.machine =
        console.machine.after ((start console presentation).events deeds) ∧
      (start console presentation).steps deeds =
        console.machine.results ((start console presentation).events deeds) := by
    intro hv
    obtain ⟨hm, ha⟩ := machine_afterDeeds (t := start console presentation) hv
    exact ⟨hm, by rw [steps, ha]; rfl⟩
  rcases cpu_afterDeeds_of_none hu rfl hd with
    ⟨hf, hs⟩ | ⟨fault, before, byte, after, rfl, h, hf⟩
  · rw [hf] at hres
    subst hres
    refine ⟨fun fault => ?_, ⟨fun _ => hs, fun _ => rfl⟩, by rintro _ ⟨⟩, hm⟩
    constructor
    · rintro ⟨⟩
    · intro hm
      cases hs _ hm
  · rw [hf] at hres
    subst hres
    refine ⟨fun fault' => ?_, ?_, ?_, hm⟩
    · rw [h.mem_steps_iff]
      exact ⟨fun he => (Except.error.inj he).symm, fun he => he ▸ rfl⟩
    · constructor
      · rintro ⟨⟩
      · intro hs
        cases hs _ (h.mem_steps_iff.mpr rfl)
    · rintro fault' ⟨⟩
      obtain ⟨hf, -⟩ := Machine.step_eq_error_iff.mp h.step
      obtain ⟨hfatal, hpc⟩ := State.fault?_names hf
      refine ⟨hfatal, before, byte, after, rfl, h, hpc, fun hv => ?_⟩
      obtain ⟨delay, sound, hs⟩ := h.state hv
      rw [hpc, hs]

/-- An unknown word ends a run with its fault although somebody outside stops the run between
the failing step and its report. -/
theorem run_outcome_unknown_word :
    let console := Console.ofMachine (.ofProgram [0xFF, 0xFF]) .standard
    let run := start console Recorder.empty
    let deeds : List Deed := [.act .timers, .act (.cpu 0), .act (.cpu 0), .act .timers,
      .act .stop, .act .display, .act .display, .act .timers, .act (.cpu 0)]
    let fault := Fault.unknownOpcode 0xFFFF 0x200
    launch .started console Recorder.empty = .ok run ∧
      (run.afterDeeds deeds).result? = some (.error fault) ∧ .error fault ∈ run.steps deeds ∧
      (run.afterDeeds deeds).console.machine = console.machine.after (run.events deeds) := by
  intro console run deeds fault
  have hl : launch .started console Recorder.empty = .ok run := rfl
  have hr : (run.afterDeeds deeds).result? = some (.error fault) := by decide +kernel
  have hd : ∀ deed ∈ deeds, deed.Leaves false := by simp [deeds, Deed.Leaves]
  have hv : ∀ deed ∈ deeds, ¬deed.IsVisit := by simp [deeds, Deed.IsVisit]
  obtain ⟨hm, -, -, he⟩ := run_outcome hl rfl hd hr
  exact ⟨hl, hr, (hm fault).mp rfl, (he hv).1⟩

/-- A run that does not get the timers' thread returns this, which is not fatal, although the
processor has executed an unknown word by then. -/
theorem run_outcome_refused :
    let console := Console.ofMachine (.ofProgram [0xFF, 0xFF]) .standard
    let threads : Threads := ⟨.ok (), .error "Resource temporarily unavailable (os error 11)"⟩
    let fault := Fault.unreadable "Resource temporarily unavailable (os error 11)"
    let run := abandon console Recorder.empty fault
    let deeds : List Deed := [.act (.cpu 0), .act (.cpu 0), .act (.cpu 0), .act .display]
    launch threads console Recorder.empty = .ok run ∧
      (run.afterDeeds deeds).result? = some (.error fault) ∧ fault.isFatal = false ∧
      run.steps deeds = [.error (.unknownOpcode 0xFFFF 0x200)] := by
  intro console threads fault run deeds
  exact ⟨rfl, by decide +kernel, rfl, by decide +kernel⟩

end Timelines

end HexConsole
