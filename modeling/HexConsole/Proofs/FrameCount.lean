import HexConsole.Proofs.Outcome
import HexConsole.Proofs.Scripts

/-! # Counting frames

In each turn the display reads the keypad once, reports the key and shows one frame, unless the
lock is poisoned. Before its turn it asks whether the presentation is closed, so a recorder with
a limit never gets more frames than that. If no instruction fails and nobody else stops the run,
then the display ends only because of the limit, and the recorder gets exactly so many.
-/

namespace HexConsole

open Presentation

/-- The keys that were polled in a turn and not yet answered by a frame. -/
def DisplayPhase.unanswered : DisplayPhase → Nat
  | exchanging _ | rendering _ => 1
  | checking | polling | draining | beeping | leaving _ | done _ => 0

/-- The frames that a turn still has to show. -/
def DisplayPhase.unshown : DisplayPhase → Nat
  | polling | exchanging _ | rendering _ => 1
  | checking | draining | beeping | leaving _ | done _ => 0

namespace Presentation

variable {P : Type} [Presentation P]

theorem length_keys (p : P) (calls : List Call) : (keys p calls).length = calls.count .poll := by
  induction calls generalizing p with
  | nil => rfl
  | cons c calls ih =>
    rw [keys, List.length_append, ih, List.count_cons, Nat.add_comm]
    cases c <;> rfl

end Presentation

namespace Recorder

variable {r : Recorder} {n : Nat}

/-- A recorder reports the keys of its script from the first on, and then the last for ever. -/
theorem keys_eq (r : Recorder) (calls : List Call) :
    keys r calls = (List.range (calls.count .poll)).map fun k =>
      r.script.getD (min k (r.script.length - 1)) .released := by
  induction calls using List.reverseRecOn with
  | nil => rfl
  | append_singleton calls c ih =>
    rw [keys_append, ih, List.count_append]
    cases c with
    | poll =>
      have hk : keys (after r calls) [.poll] =
          [(upcoming r.script (calls.count .poll)).headD .released] := by
        rw [after_eq]
        simp [keys, key?, Presentation.pollKey, pollKey_eq]
      rw [hk, headD_upcoming]
      simp [List.range_succ]
    | render | beep => simp [keys, key?]

theorem closed_iff (h : r.limit = some n) : r.closed = true ↔ n ≤ r.frames := by
  simp [closed, h]

end Recorder

namespace Timelines

section

variable {P : Type} [Presentation P] {t t' : Timelines P} {deed : Deed} {deeds : List Deed}
  {happening : Option Happening}

/-- The keys that the presentation reports in a row of deeds. -/
def keys (t : Timelines P) (deeds : List Deed) : List Key :=
  Presentation.keys t.presentation (t.calls deeds)

/-- The frames that are shown in a row of deeds. -/
def frames (t : Timelines P) (deeds : List Deed) : List Screen :=
  Recorder.shown (t.calls deeds)

/-- The key that was polled last; the machine has it unless it is still to be reported. -/
def latestKey (t : Timelines P) : Key :=
  match t.display with
  | .exchanging key => key
  | _ => t.console.machine.key

theorem keys_cons (t : Timelines P) (deed : Deed) (deeds : List Deed) :
    t.keys (deed :: deeds) =
      Presentation.keys t.presentation (t.call? deed).toList ++ (t.meet deed).keys deeds := by
  obtain ⟨_, hm⟩ := exists_move t deed
  rw [keys, calls, keys_append, ← hm.presentation]
  rfl

theorem frames_cons (t : Timelines P) (deed : Deed) (deeds : List Deed) :
    t.frames (deed :: deeds) =
      Recorder.shown (t.call? deed).toList ++ (t.meet deed).frames deeds :=
  List.filterMap_append

/-- Every key that is polled is answered by a frame, as long as the machine can be had. -/
theorem Move.unanswered (hm : Move t deed happening t') (hp : t.console.poisoned = false) :
    t'.display.unanswered + (Recorder.shown (t.call? deed).toList).length =
      t.display.unanswered + (t.call? deed).toList.count .poll := by
  cases hm with
  | displayLoses _ h =>
    rw [hp] at h
    cases h
  | displayBegins hd | displayEnds hd | polls hd | reports hd | renders hd | drains hd | takes hd
  | beeps hd | leaves hd | displayRests hd =>
    simp [DisplayPhase.unanswered, call?, Recorder.shown, Call.frame?, hd]
  | _ => rfl

theorem unanswered_afterDeeds (hp : t.console.poisoned = false)
    (hd : ∀ deed ∈ deeds, deed.Leaves false) :
    (t.afterDeeds deeds).display.unanswered + (t.frames deeds).length =
      t.display.unanswered + (t.keys deeds).length := by
  induction deeds generalizing t with
  | nil => rfl
  | cons deed deeds ih =>
    obtain ⟨_, hm⟩ := exists_move t deed
    obtain ⟨hd, hd'⟩ := List.forall_mem_cons.mp hd
    have hu := hm.unanswered hp
    have ha := ih (hm.poisoned hp hd) hd'
    rw [afterDeeds_cons, frames_cons, keys_cons, List.length_append, List.length_append,
      length_keys]
    omega

theorem Move.latestKey (hm : Move t deed happening t') (hp : t.console.poisoned = false)
    (hv : ¬deed.IsVisit) :
    t'.latestKey =
      (Presentation.keys t.presentation (t.call? deed).toList).getLast?.getD t.latestKey := by
  cases hm with
  | displayLoses _ h =>
    rw [hp] at h
    cases h
  | visits => exact absurd trivial hv
  | steps _ _ hs =>
    obtain ⟨-, rfl⟩ := Machine.step_eq_ok_iff.mp hs
    rfl
  | faults _ _ hs =>
    obtain ⟨-, rfl⟩ := Machine.step_eq_error_iff.mp hs
    rfl
  | ticks _ _ hb =>
    obtain ⟨-, rfl⟩ := Prod.mk.inj hb
    rfl
  | polls hd hk => simp [Timelines.latestKey, call?, Presentation.keys, key?, hd, hk]
  | displayBegins hd | displayEnds hd | reports hd | renders hd | drains hd | takes hd
  | beeps hd | leaves hd | displayRests hd =>
    simp [Timelines.latestKey, call?, Presentation.keys, key?, Machine.setKey, hd]
  | _ => rfl

theorem latestKey_afterDeeds (hp : t.console.poisoned = false)
    (hv : ∀ deed ∈ deeds, ¬deed.IsVisit) :
    (t.afterDeeds deeds).latestKey = (t.keys deeds).getLast?.getD t.latestKey := by
  induction deeds generalizing t with
  | nil => rfl
  | cons deed deeds ih =>
    obtain ⟨_, hm⟩ := exists_move t deed
    obtain ⟨hv, hv'⟩ := List.forall_mem_cons.mp hv
    have hp' := hm.poisoned hp (Deed.leaves_of_not_isVisit hv)
    rw [afterDeeds_cons, ih hp' hv', hm.latestKey hp hv, keys_cons, List.getLast?_append]
    cases ((t.meet deed).keys deeds).getLast? <;> rfl

theorem length_keys_of_result {result : Except Fault Unit} (hp : t.console.poisoned = false)
    (h0 : t.display.unanswered = 0) (hd : ∀ deed ∈ deeds, deed.Leaves false)
    (hr : (t.afterDeeds deeds).result? = some result) :
    (t.keys deeds).length = (t.frames deeds).length := by
  obtain ⟨-, -, display, -, -, hdone, -⟩ := result?_eq_some_iff.mp hr
  have hk := unanswered_afterDeeds hp hd
  rw [hdone, h0] at hk
  simpa [DisplayPhase.unanswered] using hk.symm

/-- When a run has returned, a machine that nobody visits has got the key that was polled last. -/
theorem getLast?_keys_of_result {result : Except Fault Unit} (hp : t.console.poisoned = false)
    (hv : ∀ deed ∈ deeds, ¬deed.IsVisit)
    (hr : (t.afterDeeds deeds).result? = some result) (hk : t.keys deeds ≠ []) :
    (t.keys deeds).getLast? = some (t.afterDeeds deeds).console.machine.key := by
  obtain ⟨-, -, display, -, -, hdone, -⟩ := result?_eq_some_iff.mp hr
  have hkey := latestKey_afterDeeds hp hv
  rw [List.getLast?_eq_some_getLast hk, Option.getD_some, latestKey, hdone] at hkey
  rw [List.getLast?_eq_some_getLast hk, ← hkey]

end

section

variable {t t' : Timelines Recorder} {n : Nat} {deed : Deed} {deeds : List Deed}
  {happening : Option Happening}

/-- The recorder closes after `n` frames, and the frame of a turn that has begun is one of them. -/
structure Limited (n : Nat) (t : Timelines Recorder) : Prop where
  limit : t.presentation.limit = some n
  frames : t.presentation.frames + t.display.unshown ≤ n

/-- Nothing but the limit has ended the display or stopped the run. -/
structure Undisturbed (n : Nat) (t : Timelines Recorder) : Prop where
  cpu : t.cpu.fault? = none
  stopped : t.console.stopped = true → n ≤ t.presentation.frames
  ended : t.display.Ended → n ≤ t.presentation.frames

theorem Move.frames (hm : Move t deed happening t') :
    t'.presentation.frames =
      t.presentation.frames + (Recorder.shown (t.call? deed).toList).length := by
  rw [hm.presentation, Recorder.after_eq]

theorem Move.limit (hm : Move t deed happening t') :
    t'.presentation.limit = t.presentation.limit := by
  rw [hm.presentation, Recorder.after_eq]

/-- A turn begins only before the limit, and shows one frame. -/
theorem Move.limited (hm : Move t deed happening t') (h : t.Limited n) : t'.Limited n := by
  refine ⟨hm.limit.trans h.limit, ?_⟩
  have hf := h.frames
  rw [hm.frames]
  cases hm with
  | displayBegins hd _ hc =>
    have hn : ¬n ≤ t.presentation.frames := by
      rw [← Recorder.closed_iff h.limit]
      exact Bool.eq_false_iff.mp hc
    simp only [call?, hd]
    exact Nat.lt_of_not_le hn
  | displayEnds hd | polls hd | displayLoses hd | reports hd | renders hd | drains hd | takes hd
  | beeps hd | leaves hd | displayRests hd =>
    simp only [hd, DisplayPhase.unshown] at hf
    simp [call?, Recorder.shown, Call.frame?, List.filterMap, DisplayPhase.unshown, hd]
    omega
  | _ => exact hf

theorem Move.undisturbed (hm : Move t deed happening t') (hl : t.presentation.limit = some n)
    (hp : t.console.poisoned = false) (hs : deed ≠ .act .stop)
    (hr : ∀ step ∈ t.console.machine.results (t.event? deed).toList, step = .ok ())
    (h : t.Undisturbed n) : t'.Undisturbed n := by
  have hle : t.presentation.frames ≤ t'.presentation.frames := hm.frames ▸ Nat.le_add_right _ _
  refine ⟨?_, fun hs' => Nat.le_trans ?_ hle, fun he => Nat.le_trans ?_ hle⟩
  · rcases hm.cpu_of_none hp h.cpu with ⟨hf, -⟩ | ⟨byte, fault, rfl, he, hst, -⟩
    · exact hf
    · rw [he, Option.toList, Machine.results_step, hst] at hr
      cases hr _ List.mem_cons_self
  · rcases hm.stopped_iff.mp hs' with hs' | hs'
    · exact h.stopped hs'
    · rcases hs'.fault_or_ended hs with ⟨fault, hf⟩ | he
      · rw [h.cpu] at hf
        cases hf
      · exact h.ended he
  · cases hm with
    | displayBegins | polls | reports | renders | drains | takes | beeps => exact he.elim
    | displayEnds _ hc =>
      -- the flag is set because of the limit, or the limit is reached
      rcases Bool.or_eq_true_iff.mp hc with hc | hc
      · exact h.stopped hc
      · exact (Recorder.closed_iff hl).mp hc
    | displayLoses _ hp' =>
      rw [hp] at hp'
      cases hp'
    | leaves hd => exact h.ended (hd ▸ trivial)
    | _ => exact h.ended he

theorem Undisturbed.afterDeeds (h : t.Undisturbed n) (hl : t.presentation.limit = some n)
    (hp : t.console.poisoned = false) (hd : ∀ deed ∈ deeds, deed.Leaves false)
    (hs : .act .stop ∉ deeds) (hr : ∀ step ∈ t.steps deeds, step = .ok ()) :
    (t.afterDeeds deeds).Undisturbed n := by
  induction deeds generalizing t with
  | nil => exact h
  | cons deed deeds ih =>
    obtain ⟨_, hm⟩ := exists_move t deed
    obtain ⟨hd, hd'⟩ := List.forall_mem_cons.mp hd
    obtain ⟨hs, hs'⟩ := List.ne_and_not_mem_of_not_mem_cons hs
    rw [steps_cons, List.forall_mem_append] at hr
    exact ih (hm.undisturbed hl hp hs.symm hr.1 h) (hm.limit.trans hl)
      (hm.poisoned hp hd) hd' hs' hr.2

/-- A recorder that closes after `n` frames is never shown more, and what it reports are the keys
of its script, as many as it is polled. When the run returns, as many keys were polled as frames
were shown. If the run got its threads, no instruction failed and nobody outside stopped the run,
it returns success after exactly `n` frames and keys, and a machine that nobody visited has the
last key. -/
theorem frame_count {threads : Threads} {machine : Machine} {rates : Rates} {script : List Key}
    {run : Timelines Recorder}
    (hl : launch threads (.ofMachine machine rates) (Recorder.ofScript script (some n)) = .ok run)
    (hd : ∀ deed ∈ deeds, deed.Leaves false) :
    (run.afterDeeds deeds).presentation =
      after (Recorder.ofScript script (some n)) (run.calls deeds) ∧
    (run.afterDeeds deeds).presentation.frames = (run.frames deeds).length ∧
    (run.frames deeds).length ≤ n ∧
    (run.keys deeds = (List.range (run.keys deeds).length).map fun k =>
      script.getD (min k (script.length - 1)) .released) ∧
    ∀ result, (run.afterDeeds deeds).result? = some result →
      (run.keys deeds).length = (run.frames deeds).length ∧
      (threads.timers = .ok () → (∀ step ∈ run.steps deeds, step = .ok ()) →
        .act .stop ∉ deeds →
        result = .ok () ∧ (run.frames deeds).length = n ∧ (run.keys deeds).length = n ∧
        (1 ≤ n → (∀ deed ∈ deeds, ¬deed.IsVisit) →
          (run.keys deeds)[n - 1]? =
            some (run.afterDeeds deeds).console.machine.key)) := by
  obtain ⟨hpres, hp, hl0, hu0⟩ : run.presentation = Recorder.ofScript script (some n) ∧
      run.console.poisoned = false ∧ run.Limited n ∧ run.display.unanswered = 0 := by
    obtain ⟨-, -, ⟨-, rfl⟩ | ⟨_, -, rfl⟩⟩ := launch_eq_ok_iff.mp hl
    · exact ⟨rfl, rfl, ⟨rfl, Nat.zero_le n⟩, rfl⟩
    · exact ⟨rfl, rfl, ⟨rfl, Nat.zero_le n⟩, rfl⟩
  have hafter : (run.afterDeeds deeds).presentation =
      after (Recorder.ofScript script (some n)) (run.calls deeds) := by
    rw [presentation_afterDeeds, hpres]
  have hf : (run.afterDeeds deeds).presentation.frames = (run.frames deeds).length := by
    rw [hafter, Recorder.after_eq]
    exact Nat.zero_add _
  have hle : (run.frames deeds).length ≤ n := by
    have ha : (run.afterDeeds deeds).Limited n :=
      afterDeeds_induction (fun _ _ _ _ hm _ => hm.limited) hl0 deeds hd
    have hn := ha.frames
    omega
  refine ⟨hafter, hf, hle, ?_, fun result hres => ?_⟩
  · rw [keys, length_keys, Recorder.keys_eq, hpres]
    rfl
  have hk := length_keys_of_result hp hu0 hd hres
  refine ⟨hk, fun ht hr hs => ?_⟩
  obtain rfl : run = start (.ofMachine machine rates) (Recorder.ofScript script (some n)) := by
    obtain ⟨-, -, ⟨-, h⟩ | ⟨_, h, -⟩⟩ := launch_eq_ok_iff.mp hl
    · exact h
    · cases ht.symm.trans h
  generalize hrun : start (.ofMachine machine rates) (Recorder.ofScript script (some n)) = run at *
  obtain ⟨hu, hn0⟩ : run.Unharmed ∧ run.Undisturbed n := by
    subst hrun
    exact ⟨⟨rfl, rfl, rfl, rfl⟩, ⟨rfl, nofun, nofun⟩⟩
  obtain ⟨-, -, display, -, -, hdone, -⟩ := result?_eq_some_iff.mp hres
  have ha := hn0.afterDeeds hl0.limit hp hd hs hr
  have hn : n ≤ (run.frames deeds).length := hf ▸ ha.ended (hdone ▸ trivial)
  have hfn : (run.frames deeds).length = n := Nat.le_antisymm hle hn
  have hok : result = .ok () := by rw [(hu.afterDeeds hd).result_eq hres, ha.cpu]
  have hkn : (run.keys deeds).length = n := hk.trans hfn
  refine ⟨hok, hfn, hkn, fun hn hv => ?_⟩
  have hne : run.keys deeds ≠ [] := List.ne_nil_of_length_pos (by omega)
  rw [← getLast?_keys_of_result hp hv hres hne, List.getLast?_eq_getElem?, hkn]

/-- A program waits for a key, which the second of two polls finds. -/
theorem frame_count_awaited_key :
    let console := Console.ofMachine (.ofProgram [0xF5, 0x0A]) .standard
    let run := start console (Recorder.ofScript [.released, .press 7] (some 2))
    let turn : List Deed := List.replicate 5 (.act .display)
    let deeds := [.act (.cpu 0), .act (.cpu 0)] ++ turn ++ [.act (.cpu 0), .act .timers] ++
      turn ++ [.act (.cpu 0), .act .display, .act .timers, .act .display, .act (.cpu 0),
        .act .timers]
    (run.afterDeeds deeds).result? = some (.ok ()) ∧ run.steps deeds = [.ok (), .ok ()] ∧
      (run.frames deeds).length = 2 ∧ run.keys deeds = [.released, .press 7] ∧
      (run.keys deeds)[1]? = some (run.afterDeeds deeds).console.machine.key := by
  intro console run turn deeds
  have hl : launch .started console (Recorder.ofScript [.released, .press 7] (some 2)) = .ok run :=
    rfl
  have hd : ∀ deed ∈ deeds, deed.Leaves false := by simp [deeds, turn, Deed.Leaves]
  have hv : ∀ deed ∈ deeds, ¬deed.IsVisit := by simp [deeds, turn, Deed.IsVisit]
  have hs : .act .stop ∉ deeds := by simp [deeds, turn]
  have hr : (run.afterDeeds deeds).result? = some (.ok ()) := by decide +kernel
  have hsteps : run.steps deeds = [.ok (), .ok ()] := by decide +kernel
  have hok : ∀ step ∈ run.steps deeds, step = .ok () := by
    rw [hsteps]
    simp
  obtain ⟨-, -, -, hkeys, he⟩ := frame_count hl hd
  obtain ⟨-, hf, hk, hkey⟩ := (he _ hr).2 rfl hok hs
  rw [hk] at hkeys
  exact ⟨hr, hsteps, hf, hkeys, hkey (by decide) hv⟩

/-- A run that does not get the processor's thread shows no frame at all, and somebody who visits
the machine at the end of a run leaves another key than the last that was polled. -/
theorem frame_count_refused :
    let console := Console.ofMachine (.ofProgram [0x12, 0x00]) .standard
    let reason := "Resource temporarily unavailable (os error 11)"
    let recorder := Recorder.ofScript [.press 7] (some 1)
    let run := start console recorder
    let visitor : Machine := ⟨State.initial, .press 1⟩
    let deeds : List Deed := List.replicate 7 (.act .display) ++
      [.visit visitor false, .act (.cpu 0), .act .timers]
    launch ⟨.error reason, .ok ()⟩ console recorder = .error (.unreadable reason) ∧
      recorder.frames = 0 ∧ launch .started console recorder = .ok run ∧
      (run.afterDeeds deeds).result? = some (.ok ()) ∧ run.steps deeds = [] ∧
      run.keys deeds = [.press 7] ∧ (run.afterDeeds deeds).console.machine.key = .press 1 := by
  intro console reason recorder run visitor deeds
  exact ⟨rfl, rfl, rfl, by decide +kernel, by decide +kernel, by decide +kernel,
    by decide +kernel⟩

end

end Timelines

end HexConsole
