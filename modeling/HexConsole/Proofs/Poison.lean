import HexConsole.Proofs.Outcome
import HexConsole.Recorder

/-! # A poisoned lock

No timeline gets a machine whose lock is poisoned. The processor finds that out and stops the others,
the timers only end, and the display ends and stops the others. Each of them may also find the
stop flag set and end with success, but then the processor or the display has set it, and one of
these two has the fault to report.
-/

namespace HexConsole

/-- The display has had the machine in its turn. -/
def DisplayPhase.Served : DisplayPhase → Prop
  | rendering _ | draining | beeping => True
  | checking | polling | exchanging _ | leaving _ | done _ => False

namespace Timelines

variable {P : Type} [Presentation P] {t t' : Timelines P} {deed : Deed} {deeds : List Deed}
  {happening : Option Happening} {fault : Fault}

/-- A timeline ends with a fault. -/
def Faulty (t : Timelines P) (fault : Fault) : Prop :=
  t.cpu.fault? = some fault ∨ t.timers.fault? = some fault ∨ t.display.fault? = some fault

/-- The processor or the display has found the lock poisoned. -/
def Discovered (t : Timelines P) : Prop :=
  t.cpu.fault? = some .poisoned ∨ t.display.fault? = some .poisoned

/-- No timeline gets the machine, and whoever stops the run has found out why. -/
structure LockedOut (t : Timelines P) : Prop where
  threads : t.refusal = none
  lock : t.console.poisoned = true
  unserved : ¬t.display.Served
  opened : t.display = .checking → Presentation.closed t.presentation = false
  faulty : ∀ fault, t.Faulty fault → fault = .poisoned
  stopped : t.console.stopped = true → t.Discovered
  ended : t.display.Ended → t.Discovered

theorem Move.faulty (hm : Move t deed happening t') (hp : t.console.poisoned = true)
    (h : t'.Faulty fault) : t.Faulty fault ∨ fault = .poisoned := by
  cases hm with
  | steps _ hl | faults _ hl | ticks _ hl | reports _ hl =>
    rw [hp] at hl
    cases hl
  | cpuBegins | cpuQuits => exact .inl (h.imp nofun id)
  | timersBegin | timersQuit | sends => exact .inl (h.imp_right (Or.imp nofun id))
  | displayBegins | displayEnds | polls | renders | drains | takes | beeps =>
    exact .inl (h.imp_right (Or.imp_right nofun))
  | cpuLoses =>
    rcases h with h | h
    · exact .inr (Option.some.inj h).symm
    · exact .inl (.inr h)
  | timersLose =>
    rcases h with h | h | h
    · exact .inl (.inl h)
    · exact .inr (Option.some.inj h).symm
    · exact .inl (.inr (.inr h))
  | displayLoses =>
    rcases h with h | h | h
    · exact .inl (.inl h)
    · exact .inl (.inr (.inl h))
    · exact .inr (Option.some.inj h).symm
  | cpuFails hc =>
    refine .inl (h.imp_left fun h => ?_)
    rw [hc]
    exact h
  | @leaves result hd =>
    refine .inl (h.imp_right (Or.imp_right fun h => ?_))
    rw [hd]
    cases result with
    | ok => cases h
    | error fault => exact h
  | _ => exact .inl h

theorem Move.discovered (hm : Move t deed happening t') (h : t.Discovered) : t'.Discovered := by
  rcases h with h | h
  · exact .inl (hm.cpu_of_fault h).1
  · refine .inr ?_
    cases hm with
    | displayBegins hd | displayEnds hd | polls hd | displayLoses hd | reports hd | renders hd
    | drains hd | takes hd | beeps hd =>
      rw [hd] at h
      cases h
    | @leaves result hd =>
      rw [hd] at h
      cases result with
      | ok => cases h
      | error fault => exact h
    | _ => exact h

/-- Nobody stops a run from inside who has not found the lock poisoned. -/
theorem LockedOut.discovered_of_stops (h : t.LockedOut) (ha : deed ≠ .act .stop)
    (hs : t.Stops deed) : t.Discovered := by
  rcases hs.fault_or_ended ha with ⟨fault, hf⟩ | he
  · exact .inl (h.faulty fault (.inl hf) ▸ hf)
  · exact h.ended he

theorem Move.lockedOut (hm : Move t deed happening t') (hv : deed.Leaves true)
    (ha : deed ≠ .act .stop) (h : t.LockedOut) : t'.LockedOut := by
  have hp := hm.poisoned h.lock hv
  refine ⟨hm.refusal.trans h.threads, hp, ?_, ?_, fun fault hf => ?_, fun hs => ?_, fun he => ?_⟩
  · cases hm with
    | displayBegins | displayEnds | polls | displayLoses | drains | leaves => exact id
    | renders hd | takes hd | beeps hd => exact absurd (hd ▸ trivial) h.unserved
    | reports _ hl =>
      rw [h.lock] at hl
      cases hl
    | _ => exact h.unserved
  · cases hm with
    | displayBegins | displayEnds | polls | displayLoses | reports | renders | takes | beeps
    | leaves => exact nofun
    | drains hd => exact absurd (hd ▸ trivial) h.unserved
    | _ => exact h.opened
  · exact (hm.faulty h.lock hf).elim (h.faulty fault) id
  · exact hm.discovered ((hm.stopped_iff.mp hs).elim h.stopped (h.discovered_of_stops ha))
  · have hd := hm.discovered
    cases hm with
    | displayBegins | polls | reports | renders | drains | takes | beeps => exact he.elim
    | displayEnds hc hs =>
      -- the presentation is open, so the flag is set, and by one who has found out
      rw [h.opened hc, Bool.or_false] at hs
      exact hd (h.stopped hs)
    | displayLoses => exact .inr rfl
    | leaves hl => exact hd (h.ended (hl ▸ trivial))
    | _ => exact hd (h.ended he)

theorem LockedOut.event?_eq_none (h : t.LockedOut) (deed : Deed) : t.event? deed = none := by
  rcases deed with (_ | _ | _ | _) | _
  case act.stop | visit => rfl
  all_goals
    simp only [event?, h.lock]
    split <;> rfl

/-- The display only polls keys. -/
theorem LockedOut.call?_eq (h : t.LockedOut) {c : Presentation.Call}
    (hc : t.call? deed = some c) : c = .poll := by
  rcases deed with (_ | _ | _ | _) | _
  case act.display =>
    simp only [call?] at hc
    split at hc
    case h_1 => exact (Option.some.inj hc).symm
    case h_2 hd | h_3 hd => exact absurd (hd ▸ trivial) h.unserved
    case h_4 => cases hc
  all_goals cases hc

theorem LockedOut.afterDeeds (h : t.LockedOut) (hd : ∀ deed ∈ deeds, deed.Leaves true)
    (ha : .act .stop ∉ deeds) :
    (t.afterDeeds deeds).LockedOut ∧ t.events deeds = [] ∧ ∀ c ∈ t.calls deeds, c = .poll := by
  induction deeds generalizing t with
  | nil => exact ⟨h, rfl, nofun⟩
  | cons deed deeds ih =>
    obtain ⟨_, hm⟩ := exists_move t deed
    obtain ⟨ha, ha'⟩ := List.ne_and_not_mem_of_not_mem_cons ha
    obtain ⟨hd, hd'⟩ := List.forall_mem_cons.mp hd
    obtain ⟨hl, he, hc⟩ := ih (hm.lockedOut hd ha.symm h) hd' ha'
    refine ⟨hl, ?_, fun c hmem => ?_⟩
    · rw [events, h.event?_eq_none, he]
      rfl
    · rcases List.mem_append.mp hmem with hmem | hmem
      · exact h.call?_eq (Option.mem_toList.mp hmem)
      · exact hc c hmem

omit [Presentation P] in
theorem Discovered.result_eq (h : t.Discovered) (ht : t.refusal = none)
    (hf : ∀ fault, t.Faulty fault → fault = .poisoned) {result : Except Fault Unit}
    (hr : t.result? = some result) : result = .error .poisoned := by
  have he := result_eq_first_fault ht hr
  cases hfault : t.cpu.fault?.or (t.timers.fault?.or t.display.fault?) with
  | some fault =>
    have hf' : t.Faulty fault := by
      simp only [Option.or_eq_some_iff] at hfault
      exact hfault.imp id fun ⟨_, h⟩ => h.imp id And.right
    rw [he, hfault, hf fault hf']
  | none =>
    simp only [Option.or_eq_none_iff] at hfault
    obtain ⟨hc, -, hd⟩ := hfault
    simp [Discovered, hc, hd] at h

/-- A run that gets its threads and whose lock is poisoned from the beginning returns this fault,
in whichever order the timelines find the lock poisoned or the stop flag set. No instruction is
executed, no timer ticks and no frame is shown: all that is done is to poll keys. -/
theorem poisoned_run {console : Console} {presentation : P} {run : Timelines P}
    (hl : launch .started console presentation = .ok run) (hp : console.poisoned = true)
    (hs : console.stopped = false) (hc : Presentation.closed presentation = false)
    (hd : ∀ deed ∈ deeds, deed.Leaves true) (ha : .act .stop ∉ deeds) :
    (∀ result, (run.afterDeeds deeds).result? = some result → result = .error .poisoned) ∧
    run.events deeds = [] ∧ (∀ c ∈ run.calls deeds, c = .poll) ∧
    (run.afterDeeds deeds).presentation = Presentation.after presentation (run.calls deeds) ∧
    ((∀ deed ∈ deeds, ¬deed.IsVisit) →
      (run.afterDeeds deeds).console.machine = console.machine) := by
  obtain ⟨-, rfl⟩ := launch_started_iff.mp hl
  have h : (start console presentation).LockedOut := by
    refine ⟨rfl, hp, id, fun _ => hc, ?_, ?_, False.elim⟩
    · rintro fault (h | h | h) <;> cases h
    · intro h
      cases hs.symm.trans h
  obtain ⟨hl', he, hcalls⟩ := h.afterDeeds hd ha
  refine ⟨fun result hr => ?_, he, hcalls, presentation_afterDeeds .., fun hv => ?_⟩
  · obtain ⟨-, -, display, -, -, hdone, -⟩ := result?_eq_some_iff.mp hr
    exact (hl'.ended (hdone ▸ trivial)).result_eq hl'.threads hl'.faulty hr
  · rw [(machine_afterDeeds hv).1, he]
    rfl

/-- The display alone finds the lock poisoned; the others only see that the run is stopped. -/
theorem poisoned_run_quiet_processor :
    let console := { Console.ofMachine .initial .standard with poisoned := true }
    let run := start console Recorder.empty
    let deeds : List Deed := [.act .display, .act .display, .act .display,
      .visit .initial true, .act .display, .act (.cpu 0), .act .timers]
    (run.afterDeeds deeds).cpu.fault? = none ∧ (run.afterDeeds deeds).timers.fault? = none ∧
      (run.afterDeeds deeds).result? = some (.error .poisoned) ∧
      run.events deeds = [] ∧ ∀ c ∈ run.calls deeds, c = .poll := by
  intro console run deeds
  have hl : launch .started console Recorder.empty = .ok run := rfl
  have hd : ∀ deed ∈ deeds, deed.Leaves true := by simp [deeds, Deed.Leaves]
  have ha : .act .stop ∉ deeds := by simp [deeds]
  obtain ⟨hr, he, hc, -⟩ := poisoned_run hl rfl rfl rfl hd ha
  have hsome : (run.afterDeeds deeds).result?.isSome := by decide +kernel
  obtain ⟨result, hres⟩ := Option.isSome_iff_exists.mp hsome
  refine ⟨by decide +kernel, by decide +kernel, ?_, he, hc⟩
  rw [hres, hr result hres]

/-- A run that does not get the timers' thread returns this, although the processor has found
the lock poisoned by then. -/
theorem poisoned_run_refused :
    let console := { Console.ofMachine .initial .standard with poisoned := true }
    let threads : Threads := ⟨.ok (), .error "Resource temporarily unavailable (os error 11)"⟩
    let fault := Fault.unreadable "Resource temporarily unavailable (os error 11)"
    let run := abandon console Recorder.empty fault
    let deeds : List Deed := [.act (.cpu 0), .act (.cpu 0), .act (.cpu 0), .act .display]
    launch threads console Recorder.empty = .ok run ∧
      console.stopped = false ∧ Recorder.empty.closed = false ∧
      (run.afterDeeds deeds).cpu.fault? = some .poisoned ∧
      (run.afterDeeds deeds).result? = some (.error fault) := by
  intro console threads fault run deeds
  exact ⟨rfl, rfl, rfl, by decide +kernel, by decide +kernel⟩

end Timelines

end HexConsole
