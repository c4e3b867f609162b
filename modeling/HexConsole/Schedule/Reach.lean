import HexConsole.Schedule.Deeds
import HexConsole.Schedule.Session

/-! # Sessions are interleavings

Timelines reach others by a row of deeds in any order. Every turn of a session is such a row,
in which nobody outside acts, so whatever holds of all interleavings holds of sessions.
-/

namespace HexConsole

variable {P : Type} [Presentation P]

namespace Timelines

/-- A row of deeds leads from one state of the timelines to another. -/
def Reaches (s t : Timelines P) : Prop := ∃ deeds, t = s.afterDeeds deeds

theorem Reaches.trans {s t u : Timelines P} (h : Reaches s t) (h' : Reaches t u) :
    Reaches s u := by
  obtain ⟨deeds, rfl⟩ := h
  obtain ⟨deeds', rfl⟩ := h'
  exact ⟨deeds ++ deeds', (afterDeeds_append ..).symm⟩

/-- A row of actions of the timelines alone leads from one state to another. -/
def ReachesAlone (s t : Timelines P) : Prop :=
  ∃ actions, .stop ∉ actions ∧ t = s.afterActs actions

namespace ReachesAlone

theorem reaches {s t : Timelines P} (h : ReachesAlone s t) : Reaches s t := by
  obtain ⟨actions, -, rfl⟩ := h
  exact ⟨actions.map .act, (afterDeeds_act ..).symm⟩

theorem refl (s : Timelines P) : ReachesAlone s s := ⟨[], nofun, rfl⟩

theorem act (s : Timelines P) {action : Action} (ha : action ≠ .stop) :
    ReachesAlone s (s.act action).2 :=
  ⟨[action], fun hm => ha (List.mem_singleton.mp hm).symm, rfl⟩

theorem trans {s t u : Timelines P} (h : ReachesAlone s t) (h' : ReachesAlone t u) :
    ReachesAlone s u := by
  obtain ⟨actions, ha, rfl⟩ := h
  obtain ⟨actions', ha', rfl⟩ := h'
  refine ⟨actions ++ actions', fun hm => ?_, (List.foldl_append ..).symm⟩
  exact (List.mem_append.mp hm).elim ha ha'

theorem actUntil (rests : Timelines P → Bool) (action : Action) (ha : action ≠ .stop)
    (count : Nat) (s : Timelines P) : ReachesAlone s (s.actUntil rests action count) := by
  induction count generalizing s with
  | zero => exact .refl s
  | succ count ih =>
    simp only [Timelines.actUntil]
    split
    · exact .act s ha
    · exact (ReachesAlone.act s ha).trans (ih _)

end ReachesAlone

end Timelines

namespace Session

open Timelines

end Session

end HexConsole
