import HexConsole.Window.Basic
import Mathlib.Data.List.DropRight
import Mathlib.Data.List.FinRange
import Mathlib.Data.List.Induction
import Mathlib.Data.List.Nodup

/-! # Held keys

What a window knows of a key of the keypad is what the last event that told of it said. Events
wait until the keypad is read, so a reading answers for all events before it, wherever the
readings before it were. A key that is held for long goes down again and again, and each time
counts like the first.
-/

namespace HexConsole.Window

namespace Event

/-- The key of the keypad that an event tells of. -/
def keypad? : Event → Option (Fin 16)
  | down (some code) | up (some code) => keypadKey? code
  | down none | up none | quit => none

def isDown : Event → Bool
  | down _ => true
  | up _ | quit => false

/-- The window is asked to close. -/
def Closes (event : Event) : Prop := event = quit ∨ event = down (some escapeCode)

instance (event : Event) : Decidable event.Closes := inferInstanceAs (Decidable (_ ∨ _))

end Event

/-- The last of some events that tell of a key says that it went down. -/
def LastDown (events : List Event) (key : Fin 16) : Prop :=
  (events.filter fun event => event.keypad? = some key).getLast?.any Event.isDown = true

instance (events : List Event) (key : Fin 16) : Decidable (LastDown events key) :=
  inferInstanceAs (Decidable (_ = true))

/-- What is to be reported after some events: the lowest key that went down last, if any. -/
inductive Reports (events : List Event) : Key → Prop
  | pressed {key : Fin 16} : LastDown events key → (∀ lower < key, ¬LastDown events lower) →
      Reports events (.press (UInt8.ofNat key.val))
  | released : (∀ key, ¬LastDown events key) → Reports events .released

/-- What can be done with a window. -/
inductive Action where
  | call (call : Presentation.Call)
  | post (event : Event)
  | elapse (time : Nat)
  deriving DecidableEq

def Action.event? : Action → Option Event
  | post event => some event
  | call _ | elapse _ => none

def act (w : Window) : Action → Window
  | .call call => Presentation.call w call
  | .post event => w.post event
  | .elapse time => w.elapse time

/-- The window after a row of actions. -/
def after (w : Window) (actions : List Action) : Window := actions.foldl act w

/-- The events of a row of actions. -/
def posted (actions : List Action) : List Event := actions.filterMap Action.event?

/-- The events of a row of actions up to the last reading of the keypad. -/
def polled (actions : List Action) : List Event :=
  posted (actions.rdropWhile fun action => action ≠ .call .poll)

/-- The window is what its events have made of it so far. -/
structure Follows (w : Window) (events : List Event) : Prop where
  held : ∀ key, w.held.get key = true ↔ LastDown events key
  closed : w.closed = true ↔ ∃ event ∈ events, event.Closes

/-- The events that were polled have taken effect, and the others wait. -/
structure Tracks (w : Window) (actions : List Action) : Prop where
  follows : w.Follows (polled actions)
  posted_eq : posted actions = polled actions ++ w.queue

variable {w : Window} {event : Event} {events : List Event} {key : Fin 16} {action : Action}
  {actions : List Action} {code : Nat}

theorem keypadKey?_eq_some_iff :
    keypadKey? code = some key ↔ ∃ entry ∈ keyboard, entry.1.toNat = code ∧ entry.2 = key := by
  constructor
  · intro h
    obtain ⟨entry, he, hk⟩ := Option.map_eq_some_iff.mp h
    exact ⟨entry, List.mem_of_find?_eq_some he, by simpa using List.find?_some he, hk⟩
  · rintro ⟨entry, he, rfl, rfl⟩
    revert entry
    decide

theorem existsUnique_keypadKey? (key : Fin 16) : ∃! code, keypadKey? code = some key := by
  have hm : key ∈ keyboard.map (·.2) := keyboard_perm.mem_iff.mpr (List.mem_finRange key)
  have hn : (keyboard.map (·.2)).Nodup := keyboard_perm.nodup_iff.mpr (List.nodup_finRange 16)
  obtain ⟨entry, he, hk⟩ := List.exists_of_mem_map hm
  refine ⟨entry.1.toNat, keypadKey?_eq_some_iff.mpr ⟨entry, he, rfl, hk⟩, ?_⟩
  intro code hc
  obtain ⟨entry', he', rfl, hk'⟩ := keypadKey?_eq_some_iff.mp hc
  rw [List.inj_on_of_nodup_map hn he' he (hk'.trans hk.symm)]

theorem lastDown_concat :
    LastDown (events ++ [event]) key ↔
      if event.keypad? = some key then event.isDown = true else LastDown events key := by
  rw [LastDown, List.filter_append]
  split
  case isTrue h => simp [h]
  case isFalse h => simp [h, LastDown]

theorem hold_of_eq_none {down : Bool} (h : keypadKey? code = none) : w.hold code down = w := by
  simp only [hold, h]

theorem hold_rest {down : Bool} :
    w.hold code down = { w with held := (w.hold code down).held } := by
  unfold hold
  split <;> rfl

theorem get_held_hold {down : Bool} :
    (w.hold code down).held.get key =
      if keypadKey? code = some key then down else w.held.get key := by
  unfold hold
  split
  case h_1 k hk =>
    refine (Vector.getElem_ofFn key.isLt).trans (if_congr ?_ rfl rfl)
    rw [hk, Option.some_inj, eq_comm]
  case h_2 hk => rw [hk, if_neg nofun]

theorem get_held_handle :
    (w.handle event).held.get key =
      if event.keypad? = some key then event.isDown else w.held.get key := by
  cases event with
  | quit => rfl
  | up code =>
    cases code with
    | none => rfl
    | some code => exact get_held_hold
  | down code =>
    cases code with
    | none => rfl
    | some code =>
      simp only [handle]
      split
      case isTrue he =>
        simp [Event.keypad?, he, keypadKey?_escapeCode]
      case isFalse => exact get_held_hold

/-- An event changes which keys are held and whether the window is closed, and nothing else. -/
theorem handle_rest (w : Window) (event : Event) :
    w.handle event =
      { w with held := (w.handle event).held, closed := (w.handle event).closed } := by
  cases event with
  | quit => rfl
  | up code =>
    cases code with
    | none => rfl
    | some code =>
      simp only [handle]
      rw [hold_rest]
  | down code =>
    cases code with
    | none => rfl
    | some code =>
      simp only [handle]
      split
      · rfl
      · rw [hold_rest]

theorem closed_hold {down : Bool} : (w.hold code down).closed = w.closed := by rw [hold_rest]

theorem closed_handle : (w.handle event).closed = true ↔ w.closed = true ∨ event.Closes := by
  cases event with
  | quit => simp [handle, Event.Closes]
  | up code =>
    cases code with
    | none => simp [handle, Event.Closes]
    | some code => simp [handle, Event.Closes, closed_hold]
  | down code =>
    cases code with
    | none => simp [handle, Event.Closes]
    | some code =>
      simp only [handle, Event.Closes]
      split <;> simp [closed_hold, *]

theorem follows_ofScale (scale : Nat) : (ofScale scale).Follows [] := by
  constructor
  · intro key
    have hk : (ofScale scale).held.get key = false := Vector.getElem_replicate key.isLt
    rw [hk]
    rfl
  · simp [ofScale]

theorem Follows.handle (h : w.Follows events) : (w.handle event).Follows (events ++ [event]) := by
  constructor
  · intro key
    rw [get_held_handle, lastDown_concat]
    split
    · rfl
    · exact h.held key
  · rw [closed_handle, h.closed]
    simp

theorem Follows.foldl_handle (h : w.Follows events) (events' : List Event) :
    (events'.foldl Window.handle w).Follows (events ++ events') := by
  induction events' generalizing w events with
  | nil => rwa [List.append_nil]
  | cons event events' ih =>
    rw [List.append_cons]
    exact ih h.handle

theorem Follows.congr {w' : Window} (h : w.Follows events) (hh : w'.held = w.held)
    (hc : w'.closed = w.closed) : w'.Follows events := by
  constructor
  · rw [hh]
    exact h.held
  · rw [hc]
    exact h.closed

theorem queue_handle : (w.handle event).queue = w.queue := by rw [handle_rest]

theorem queue_foldl_handle (events : List Event) :
    (events.foldl Window.handle w).queue = w.queue := by
  induction events generalizing w with
  | nil => rfl
  | cons event events ih => exact ih.trans queue_handle

theorem pollKey_snd (w : Window) : w.pollKey.2 = w.handleQueue := by
  simp only [pollKey]
  split <;> rfl

theorem Follows.reports (h : w.handleQueue.Follows events) : Reports events w.pollKey.1 := by
  simp only [pollKey]
  split
  case h_1 key hk =>
    obtain ⟨hd, i, hi, rfl, hl⟩ := List.find?_eq_some_iff_getElem.mp hk
    refine .pressed ((h.held _).mp hd) fun lower hlt hn => ?_
    rw [List.getElem_finRange] at hlt
    have hf := hl lower hlt
    rw [List.getElem_finRange] at hf
    have ht := (h.held lower).mpr hn
    exact absurd ht (by simpa using hf)
  case h_2 hk =>
    refine .released fun key hd => ?_
    exact List.find?_eq_none.mp hk key (List.mem_finRange key) ((h.held key).mpr hd)

theorem posted_concat :
    posted (actions ++ [action]) = posted actions ++ action.event?.toList := by
  rw [posted, List.filterMap_append]
  cases action <;> rfl

theorem polled_concat :
    polled (actions ++ [action]) =
      if action = .call .poll then posted (actions ++ [action]) else polled actions := by
  rw [polled, List.rdropWhile_concat]
  by_cases ha : action = .call .poll <;> simp [ha, polled]

/-- Only a reading of the keypad has the waiting events take effect. -/
theorem act_of_ne (h : action ≠ .call .poll) :
    (w.act action).held = w.held ∧ (w.act action).closed = w.closed ∧
      (w.act action).queue = w.queue ++ action.event?.toList := by
  cases action with
  | post event => exact ⟨rfl, rfl, rfl⟩
  | elapse time => exact ⟨rfl, rfl, (List.append_nil _).symm⟩
  | call call =>
    cases call with
    | poll => exact absurd rfl h
    | beep | render frame => exact ⟨rfl, rfl, (List.append_nil _).symm⟩

theorem Tracks.follows_handleQueue (h : w.Tracks actions) :
    w.handleQueue.Follows (posted actions) := by
  have hf : { w with queue := [] }.Follows (polled actions) := h.follows.congr rfl rfl
  rw [h.posted_eq]
  exact hf.foldl_handle w.queue

theorem Tracks.act (h : w.Tracks actions) (action : Action) :
    (w.act action).Tracks (actions ++ [action]) := by
  by_cases ha : action = .call .poll
  · have hp : polled (actions ++ [action]) = posted actions := by
      rw [polled_concat, if_pos ha, posted_concat, ha]
      exact List.append_nil _
    have hw : w.act action = w.handleQueue := by
      rw [ha]
      exact pollKey_snd w
    constructor
    · rw [hp, hw]
      exact h.follows_handleQueue
    · rw [hp, hw, posted_concat, ha, handleQueue, queue_foldl_handle]
      rfl
  · have hp : polled (actions ++ [action]) = polled actions := polled_concat.trans (if_neg ha)
    obtain ⟨hh, hc, hq⟩ := act_of_ne (w := w) ha
    constructor
    · rw [hp]
      exact h.follows.congr hh hc
    · rw [hp, hq, posted_concat, h.posted_eq, List.append_assoc]

theorem tracks_after (scale : Nat) (actions : List Action) :
    ((ofScale scale).after actions).Tracks actions := by
  induction actions using List.reverseRecOn with
  | nil => exact ⟨follows_ofScale scale, rfl⟩
  | append_singleton actions action ih =>
    rw [after, List.foldl_concat]
    exact ih.act action

theorem closed_foldl_handle (h : w.closed = true) (events : List Event) :
    (events.foldl Window.handle w).closed = true := by
  induction events generalizing w with
  | nil => exact h
  | cons event events ih => exact ih (closed_handle.mpr (.inl h))

theorem closed_after (h : w.closed = true) (actions : List Action) :
    (w.after actions).closed = true := by
  induction actions generalizing w with
  | nil => exact h
  | cons action actions ih =>
    refine ih ?_
    by_cases ha : action = .call .poll
    · have hq : { w with queue := [] }.closed = true := h
      rw [ha]
      exact (congrArg closed (pollKey_snd w)).trans (closed_foldl_handle hq w.queue)
    · exact (act_of_ne ha).2.1.trans h

theorem handle_of_keypad?_eq_none (hk : event.keypad? = none) (hc : ¬event.Closes)
    (w : Window) : w.handle event = w := by
  cases event with
  | quit => exact absurd (.inl rfl) hc
  | up code =>
    cases code with
    | none => rfl
    | some code => exact hold_of_eq_none hk
  | down code =>
    cases code with
    | none => rfl
    | some code =>
      have he : code ≠ escapeCode := fun he => hc (.inr (he ▸ rfl))
      exact (if_neg he).trans (hold_of_eq_none hk)

/-- Whatever is done with a window, a reading of the keypad reports the lowest key that went down
last, and the window is closed once an event that closes it was polled, for ever. Other events
that tell of no key do nothing, and of each key of the keypad only one key of the keyboard tells. -/
theorem reports_lowest_held (scale : Nat) (actions : List Action) :
    let w := (ofScale scale).after actions
    Reports (posted actions) w.pollKey.1 ∧
    (w.closed = true ↔ ∃ event ∈ polled actions, event.Closes) ∧
    (w.closed = true → ∀ later, (w.after later).closed = true) ∧
    (∀ event : Event, event.keypad? = none → ¬event.Closes → ∀ w : Window, w.handle event = w) ∧
    ∀ key, ∃! code, keypadKey? code = some key := by
  intro w
  have hw : w.Tracks actions := tracks_after scale actions
  exact ⟨hw.follows_handleQueue.reports, hw.follows.closed, closed_after,
    fun _ hk hc w => handle_of_keypad?_eq_none hk hc w, existsUnique_keypadKey?⟩

/-- Two keys go down, Escape closes the window, and the lower key goes up after that. -/
theorem reports_lowest_held_after_escape :
    let actions : List Action := [.post (.down (some 113)), .post (.down (some 120)), .call .poll,
      .post (.down none), .post (.down (some escapeCode)), .call .poll, .call (.render .dark),
      .post (.up (some 120))]
    let w := (ofScale 1).after actions
    Reports (posted actions) (.press 4) ∧ LastDown (polled actions) 0 ∧ w.closed = true ∧
      (w.after [.post .quit, .call .poll, .call .beep]).closed = true := by
  intro actions w
  have hk : w.pollKey.1 = .press 4 := by decide +kernel
  obtain ⟨hr, hc, hl, -⟩ := reports_lowest_held 1 actions
  have hw : w.closed = true := hc.mpr ⟨.down (some escapeCode), by decide +kernel, .inr rfl⟩
  exact ⟨hk ▸ hr, by decide +kernel, hw, hl hw _⟩

end HexConsole.Window
