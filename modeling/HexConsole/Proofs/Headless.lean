import HexConsole.Launcher.AnyOrder
import HexConsole.Proofs.FrameCount

/-! # Runs without a window

A recorder without a limit never closes, and nobody outside knows the run, so only a failed
instruction ends it. A start without a window therefore never succeeds: it fails before the run,
or with the fault of an instruction, or it does not return.
-/

namespace HexConsole

namespace Timelines

variable {t t' : Timelines Recorder} {deed : Deed} {deeds : List Deed} {actions : List Action}
  {happening : Option Happening}

/-- Nobody stops the run or leaves it unless the processor has a fault. -/
structure Tireless (t : Timelines Recorder) : Prop where
  limit : t.presentation.limit = none
  stopped : t.console.stopped = true → ∃ fault, t.cpu.fault? = some fault
  ended : t.display.Ended → ∃ fault, t.cpu.fault? = some fault

theorem Move.tireless (hm : Move t deed happening t') (hp : t.console.poisoned = false)
    (ha : deed ≠ .act .stop) (h : t.Tireless) : t'.Tireless := by
  have hf (hc : ∃ fault, t.cpu.fault? = some fault) : ∃ fault, t'.cpu.fault? = some fault := by
    obtain ⟨fault, hc⟩ := hc
    exact ⟨fault, (hm.cpu_of_fault hc).1⟩
  refine ⟨hm.limit.trans h.limit, fun hs => hf ?_, fun he => hf ?_⟩
  · rcases hm.stopped_iff.mp hs with hs | hs
    · exact h.stopped hs
    · exact (hs.fault_or_ended ha).elim id h.ended
  · cases hm with
    | displayBegins | polls | reports | renders | drains | takes | beeps => exact he.elim
    | displayEnds _ hs =>
      -- a recorder without a limit is never closed
      have hc : Presentation.closed t.presentation = false := by
        change t.presentation.closed = false
        rw [Recorder.closed, h.limit]
      rw [hc, Bool.or_false] at hs
      exact h.stopped hs
    | displayLoses _ hp' =>
      rw [hp] at hp'
      cases hp'
    | leaves hd => exact h.ended (hd ▸ trivial)
    | _ => exact h.ended he

theorem Tireless.afterDeeds (h : t.Tireless) (hp : t.console.poisoned = false)
    (hd : ∀ deed ∈ deeds, deed.Leaves false) (ha : .act .stop ∉ deeds) :
    (t.afterDeeds deeds).Tireless := by
  induction deeds generalizing t with
  | nil => exact h
  | cons deed deeds ih =>
    obtain ⟨_, hm⟩ := exists_move t deed
    obtain ⟨hd, hd'⟩ := List.forall_mem_cons.mp hd
    obtain ⟨ha, ha'⟩ := List.ne_and_not_mem_of_not_mem_cons ha
    exact ih (hm.tireless hp ha.symm h) (hm.poisoned hp hd) hd' ha'

end Timelines

namespace Launcher

variable {o : Options} {plan : Plan} {console : Console} {failure : Failure}
  {opening : String → Except FileError Source}

end Launcher

end HexConsole
