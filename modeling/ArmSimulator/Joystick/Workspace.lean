import Mathlib.Data.List.Induction
import Mathlib.Data.List.Infix
import Mathlib.Tactic.Linarith
import Mathlib.Tactic.NormNum
import ArmSimulator.Joystick.Thread

/-!
# The set points follow the stick

A failed poll handles the stale event once more, and the stale event of an axis is always the
last one sampled on this axis, so the set points are those of the last samples. They leave the
workspace at one end of the declared range, which is one further from zero than the other.
-/

namespace ArmSimulator

namespace JoystickEvent

/-- The types without the flag of the initial state. -/
def PureType (event : JoystickEvent) : Prop :=
  event.type = jsEventButton ∨ event.type = jsEventAxis

def OnAxis (event : JoystickEvent) (axis : Axis) : Prop :=
  event.type = jsEventAxis ∧ event.number = axis.number

instance (event : JoystickEvent) (axis : Axis) : Decidable (event.OnAxis axis) :=
  inferInstanceAs (Decidable (_ ∧ _))

end JoystickEvent

/-- The last event of an axis that a poll delivered. -/
def lastSample (polls : List Poll) (axis : Axis) : Option JoystickEvent :=
  (polls.filterMap fun
    | .delivered event => if event.OnAxis axis then some event else none
    | .failed => none).getLast?

namespace JoystickThread

/-- Each set point is that of the last sample of its axis, or zero without one. -/
def FollowsStick (polls : List Poll) : Prop :=
  ∀ axis, (run polls).current axis =
    match lastSample polls axis with
    | none => 0
    | some event => -(event.value.toInt : ℚ) / 32767 * 0.63

def InWorkspace (thread : JoystickThread) : Prop :=
  ∀ axis, -0.63 ≤ thread.current axis ∧ thread.current axis ≤ 0.63

theorem lastSample_failed (polls : List Poll) (axis : Axis) :
    lastSample (polls ++ [.failed]) axis = lastSample polls axis := by
  simp [lastSample]

theorem lastSample_delivered (polls : List Poll) (event : JoystickEvent) (axis : Axis) :
    lastSample (polls ++ [.delivered event]) axis =
      if event.OnAxis axis then some event else lastSample polls axis := by
  by_cases onAxis : event.OnAxis axis <;> simp [lastSample, onAxis]

theorem lastSample_mem {polls : List Poll} {axis : Axis} {event : JoystickEvent}
    (last : lastSample polls axis = some event) :
    .delivered event ∈ polls ∧ event.OnAxis axis := by
  have mem := List.mem_of_getLast? last
  rcases List.mem_filterMap.mp mem with ⟨poll, pollMem, kept⟩
  cases poll with
  | failed => simp at kept
  | delivered other =>
      by_cases onAxis : other.OnAxis axis
      · simp only [onAxis, if_true, Option.some.injEq] at kept
        rw [← kept]
        exact ⟨pollMem, onAxis⟩
      · simp [onAxis] at kept

/-- The event handled next is zero or pure, and on an axis it is the last sample there. -/
structure Tracks (polls : List Poll) (thread : JoystickThread) : Prop where
  current_eq : ∀ axis, thread.current axis = (lastSample polls axis).elim 0 setPoint
  stale_type : thread.joyEvent.type = 0 ∨ thread.joyEvent.PureType
  stale_eq : ∀ axis, thread.joyEvent.OnAxis axis →
    lastSample polls axis = some thread.joyEvent

theorem handled_iff {event : JoystickEvent} (type : event.type = 0 ∨ event.PureType) (axis : Axis) :
    (event.isButton = false ∧ event.isAxis = true ∧ event.number = axis.number) ↔
      event.OnAxis axis := by
  rcases type with zero | button | isAxis
  · simp [JoystickEvent.OnAxis, JoystickEvent.isButton, JoystickEvent.isAxis, zero,
      JoystickEvent.jsEventAxis]
  · simp [JoystickEvent.OnAxis, JoystickEvent.isButton, JoystickEvent.isAxis, button,
      JoystickEvent.jsEventAxis, JoystickEvent.jsEventButton]
  · simp [JoystickEvent.OnAxis, JoystickEvent.isButton, JoystickEvent.isAxis, isAxis,
      JoystickEvent.jsEventAxis, JoystickEvent.jsEventButton]

/-- A poll leaves behind the event that it handles: a delivered one, or the stale one again. -/
theorem Tracks.poll {polls : List Poll} {thread : JoystickThread} (tracks : Tracks polls thread)
    (poll : Poll) (pureType : ∀ event, poll = .delivered event → event.PureType) :
    Tracks (polls ++ [poll]) (thread.poll poll) := by
  have type : (sample thread.joyEvent poll).type = 0 ∨ (sample thread.joyEvent poll).PureType := by
    cases poll with
    | failed => exact tracks.stale_type
    | delivered event => exact Or.inr (pureType event rfl)
  have lastEq : ∀ axis, lastSample (polls ++ [poll]) axis =
      if (sample thread.joyEvent poll).OnAxis axis then some (sample thread.joyEvent poll)
      else lastSample polls axis := by
    intro axis
    cases poll with
    | failed =>
        rw [lastSample_failed, sample]
        split
        · rename_i onAxis
          exact tracks.stale_eq axis onAxis
        · rfl
    | delivered event => exact lastSample_delivered polls event axis
  refine ⟨?_, ?_, ?_⟩
  · intro axis
    simp only [JoystickThread.poll, handle_current, handled_iff type, lastEq]
    split
    · rfl
    · exact tracks.current_eq axis
  · rw [JoystickThread.poll, handle_joyEvent]
    exact type
  · intro axis onAxis
    rw [JoystickThread.poll, handle_joyEvent] at onAxis ⊢
    rw [lastEq, if_pos onAxis]

theorem run_tracks (polls : List Poll)
    (pureType : ∀ event, .delivered event ∈ polls → event.PureType) :
    Tracks polls (run polls) := by
  induction polls using List.reverseRecOn with
  | nil => exact ⟨fun axis => by cases axis <;> rfl, Or.inl rfl, fun axis onAxis => by
      simp [JoystickEvent.OnAxis, run, initial, JoystickEvent.zero, JoystickEvent.jsEventAxis]
        at onAxis⟩
  | append_singleton polls poll ih =>
      rw [run_snoc]
      apply (ih fun event mem => pureType event (List.mem_append_left _ mem)).poll
      rintro event rfl
      exact pureType event (by simp)

theorem setPoint_mem_iff (event : JoystickEvent) :
    (-0.63 ≤ setPoint event ∧ setPoint event ≤ 0.63) ↔
      event.value.toInt ≠ JoystickEvent.minAxesValue := by
  have lower : -32768 ≤ event.value.toInt := BitVec.le_toInt event.value
  have upper : event.value.toInt < 32768 := BitVec.toInt_lt
  have upperCast : (event.value.toInt : ℚ) ≤ 32767 := by exact_mod_cast Int.le_of_lt_add_one upper
  rw [JoystickEvent.minAxesValue, setPoint]
  constructor
  · rintro ⟨-, small⟩ atMin
    rw [atMin] at small
    norm_num at small
  · intro notMin
    have above : -32767 ≤ event.value.toInt := by omega
    have aboveCast : (-32767 : ℚ) ≤ event.value.toInt := by exact_mod_cast above
    norm_num
    constructor <;> linarith

theorem followsStick_of_pureType {polls : List Poll}
    (pureType : ∀ event, .delivered event ∈ polls → event.PureType) : FollowsStick polls := by
  intro axis
  rw [(run_tracks polls pureType).current_eq axis]
  cases lastSample polls axis <;> rfl

/--
All along a run the set points follow the stick, and they do so within the workspace exactly
when neither axis ever delivers its lowest value.
-/
theorem followsStick_inWorkspace_iff (polls : List Poll)
    (pureType : ∀ event, .delivered event ∈ polls → event.PureType) :
    (∀ early, early <+: polls → FollowsStick early) ∧
      ((∀ early, early <+: polls → FollowsStick early ∧ InWorkspace (run early)) ↔
        ∀ event axis, .delivered event ∈ polls → event.OnAxis axis →
          event.value.toInt ≠ JoystickEvent.minAxesValue) := by
  have pureEarly : ∀ early, early <+: polls →
      ∀ event, .delivered event ∈ early → event.PureType := fun early sofar event mem =>
    pureType event (sofar.subset mem)
  have follows : ∀ early, early <+: polls → FollowsStick early := fun early sofar =>
    followsStick_of_pureType (pureEarly early sofar)
  refine ⟨follows, ?_⟩
  constructor
  · intro holds event axis mem onAxis
    rcases List.append_of_mem mem with ⟨before, after, rfl⟩
    have sofar : before ++ [.delivered event] <+: before ++ .delivered event :: after :=
      ⟨after, by simp⟩
    have point := (run_tracks _ (pureEarly _ sofar)).current_eq axis
    rw [lastSample_delivered, if_pos onAxis, Option.elim_some] at point
    rw [← setPoint_mem_iff, ← point]
    exact (holds _ sofar).2 axis
  · intro aboveMin early sofar
    refine ⟨follows early sofar, ?_⟩
    intro axis
    rw [(run_tracks early (pureEarly early sofar)).current_eq axis]
    cases last : lastSample early axis with
    | none => norm_num
    | some event =>
        rcases lastSample_mem last with ⟨mem, onAxis⟩
        exact (setPoint_mem_iff event).mpr (aboveMin event axis (sofar.subset mem) onAxis)

/-- A sample, a failed poll, a button and the other axis at its upper end. -/
theorem followsStick_inWorkspace_iff_interleaved :
    let polls : List Poll := [.delivered ⟨0, 0x4000, 2, 0⟩, .failed, .delivered ⟨0, 1, 1, 0⟩,
      .delivered ⟨0, 0x7FFF, 2, 1⟩, .failed]
    (∀ early, early <+: polls → FollowsStick early) ∧
      ((∀ early, early <+: polls → FollowsStick early ∧ InWorkspace (run early)) ↔
        ∀ event axis, .delivered event ∈ polls → event.OnAxis axis →
          event.value.toInt ≠ JoystickEvent.minAxesValue) :=
  followsStick_inWorkspace_iff _ (by
    simp [JoystickEvent.PureType, JoystickEvent.jsEventButton, JoystickEvent.jsEventAxis])

/-- The x axis at the lower end of its declared range. -/
theorem minAxesValue_not_inWorkspace :
    let event : JoystickEvent := ⟨0, 0x8000, JoystickEvent.jsEventAxis, 0⟩
    let polls : List Poll := [.delivered event]
    event.PureType ∧ event.value.toInt = JoystickEvent.minAxesValue ∧
      (run polls).joyXCurrent = 32768 / 32767 * 0.63 ∧
      ¬∀ early, early <+: polls → FollowsStick early ∧ InWorkspace (run early) := by
  intro event polls
  have point : (run polls).joyXCurrent = 32768 / 32767 * 0.63 := by decide +kernel
  refine ⟨Or.inr rfl, by decide, point, ?_⟩
  intro holds
  have upper : (run polls).joyXCurrent ≤ 0.63 := ((holds polls (List.prefix_refl _)).2 .x).2
  rw [point] at upper
  norm_num at upper

end JoystickThread

end ArmSimulator
