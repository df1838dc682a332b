import Mathlib.Topology.MetricSpace.Pseudo.Constructions
import ArmSimulator.Kinematics.Steering
import ArmSimulator.Lib.Machine

/-!
# Runs of `inverse_kinematics`

A run makes one call after another, each with the angles that the call before left behind as
its previous angles. One call either changes nothing or moves each joint by at most one
step, so a run moves each joint by at most one step per call.
-/

namespace ArmSimulator

namespace Kinematics

/-- The target of a call and the values of its two references. -/
structure Call where
  x : ℝ
  y : ℝ
  joint1Angle : ℝ
  joint2Angle : ℝ

structure CallRecord where
  previous : ℝ × ℝ
  incoming : ℝ × ℝ
  returned : Bool
  left : ℝ × ℝ

/-- A call with the given previous angles: the angles left behind, and the record of the call. -/
noncomputable def call (kinematics : Kinematics) (previous : ℝ × ℝ) (call : Call) :
    (ℝ × ℝ) × List CallRecord :=
  let result := kinematics.inverseKinematics call.x call.y previous.1 previous.2
    call.joint1Angle call.joint2Angle
  (result.2, [⟨previous, (call.joint1Angle, call.joint2Angle), result.1, result.2⟩])

namespace CallRecord

/-- A rejected call is atomic, and an accepted one takes a step of at most `max_delta` that
keeps the incoming values within reach. -/
structure Sound (record : CallRecord) : Prop where
  rejected_unchanged : record.returned = false → record.left = record.incoming
  joint1_limited : record.returned = true → |record.left.1 - record.previous.1| ≤ maxDelta
  joint2_limited : record.returned = true → |record.left.2 - record.previous.2| ≤ maxDelta
  joint1_kept : record.returned = true → |record.incoming.1 - record.previous.1| ≤ maxDelta →
    record.left.1 = record.incoming.1
  joint2_kept : record.returned = true → |record.incoming.2 - record.previous.2| ≤ maxDelta →
    record.left.2 = record.incoming.2

/-- A rejected call was made with its previous angles as incoming values. -/
def AtRest (record : CallRecord) : Prop :=
  record.returned = false → record.incoming = record.previous

end CallRecord

theorem abs_limitDelta_le (delta : ℝ) : |limitDelta delta| ≤ maxDelta := by
  have positive := maxDelta_pos
  rw [limitDelta_eq_clamp, clamp, abs_le]
  exact ⟨le_max_left _ _, max_le (by linarith) (min_le_left _ _)⟩

theorem add_limitDelta_of_le {prev angle : ℝ} (within : |angle - prev| ≤ maxDelta) :
    prev + limitDelta (angle - prev) = angle := by
  rw [limitDelta_eq_clamp, clamp_of_abs_le within, add_sub_cancel]

variable (kinematics : Kinematics)

/-- Whichever check rejects, and however the differences lie, the call is sound. -/
theorem call_sound (previous : ℝ × ℝ) (call : Call) :
    ∀ record ∈ (kinematics.call previous call).2, record.Sound := by
  intro record mem
  simp only [Kinematics.call, List.mem_singleton] at mem
  subst record
  by_cases passes : kinematics.Passes call.x call.y
  · rw [inverseKinematics_of_passes _ _ _ _ passes]
    refine ⟨by simp, fun _ => ?_, fun _ => ?_, fun _ within => add_limitDelta_of_le within,
      fun _ within => add_limitDelta_of_le within⟩ <;>
    · rw [add_sub_cancel_left]
      exact abs_limitDelta_le _
  · rw [inverseKinematics_of_not_passes _ _ _ _ passes]
    exact ⟨fun _ => rfl, by simp, by simp, by simp, by simp⟩

/-- A sound call that is at rest when rejected moves no joint further than `max_delta`. -/
theorem dist_call_le (previous : ℝ × ℝ) (call : Call)
    (atRest : ∀ record ∈ (kinematics.call previous call).2, record.AtRest) :
    dist (kinematics.call previous call).1 previous ≤ maxDelta := by
  have sound := kinematics.call_sound previous call _ (List.mem_singleton.mpr rfl)
  have rest := atRest _ (List.mem_singleton.mpr rfl)
  rw [Prod.dist_eq, Real.dist_eq, Real.dist_eq]
  cases returned : (kinematics.inverseKinematics call.x call.y previous.1 previous.2
    call.joint1Angle call.joint2Angle).1 with
  | true => exact max_le (sound.joint1_limited returned) (sound.joint2_limited returned)
  | false =>
      have unchanged : (kinematics.call previous call).1 = previous :=
        (sound.rejected_unchanged returned).trans (rest returned)
      simp [unchanged, maxDelta_pos.le]

theorem trace_sound (start : ℝ × ℝ) (calls : List Call) :
    ∀ record ∈ (Machine.trace kinematics.call start calls).2, record.Sound := by
  rw [Machine.forall_mem_trace_iff]
  intro early call _
  exact kinematics.call_sound _ call

/--
Over a run, every call is atomic or limited, and the joints end within one step per call of
where they started.
-/
theorem calls_rateLimited (start : ℝ × ℝ) (calls : List Call) :
    let run := Machine.trace kinematics.call start calls
    (∀ record ∈ run.2, record.Sound) ∧
      ((∀ record ∈ run.2, record.AtRest) →
        |run.1.1 - start.1| ≤ calls.length * maxDelta ∧
          |run.1.2 - start.2| ≤ calls.length * maxDelta) := by
  intro run
  refine ⟨kinematics.trace_sound start calls, ?_⟩
  intro atRest
  have drift : dist run.1 start ≤ calls.length * maxDelta :=
    Machine.dist_trace_le kinematics.call CallRecord.AtRest kinematics.dist_call_le start calls
      atRest
  rwa [Prod.dist_eq, max_le_iff, Real.dist_eq, Real.dist_eq] at drift

/-- A target out of reach, which is rejected at rest, and twice one at a right angle. -/
noncomputable def rejectedThenReached : List Call :=
  let right : ℝ × ℝ := (armKinematics.link1Length, armKinematics.link2Length)
  [⟨10, 10, 0, 0⟩, ⟨right.1, right.2, 1, 1⟩, ⟨right.1, right.2, 90, 90⟩]

theorem rejectedThenReached_records : ∃ later last,
    (Machine.trace armKinematics.call (0, 0) rejectedThenReached).2 =
      [⟨(0, 0), (0, 0), false, (0, 0)⟩, later, last] ∧
      later.returned = true ∧ last.returned = true := by
  have outOfReach : ¬armKinematics.Accepted 10 10 := by
    norm_num [Accepted, InAnnulus, armKinematics]
  have reached : armKinematics.Accepted armKinematics.link1Length armKinematics.link2Length :=
    accepted_rightAngle
  simp only [rejectedThenReached, Machine.trace, Kinematics.call,
    inverseKinematics_of_not_accepted armKinematics_link1_pos armKinematics_link2_pos _ _ _ _
      outOfReach,
    inverseKinematics_of_accepted armKinematics_link1_pos armKinematics_link2_pos _ _ _ _
      reached]
  exact ⟨_, _, rfl, rfl, rfl⟩

theorem rejectedThenReached_atRest :
    ∀ record ∈ (Machine.trace armKinematics.call (0, 0) rejectedThenReached).2,
      record.AtRest := by
  rcases rejectedThenReached_records with ⟨later, last, records, laterReturned, lastReturned⟩
  rw [records]
  intro record mem rejected
  simp only [List.mem_cons, List.not_mem_nil, or_false] at mem
  rcases mem with rfl | rfl | rfl
  · rfl
  · simp [laterReturned] at rejected
  · simp [lastReturned] at rejected

theorem calls_rateLimited_rejectedThenReached :
    let run := Machine.trace armKinematics.call (0, 0) rejectedThenReached
    |run.1.1 - 0| ≤ rejectedThenReached.length * maxDelta ∧
      |run.1.2 - 0| ≤ rejectedThenReached.length * maxDelta :=
  (armKinematics.calls_rateLimited (0, 0) rejectedThenReached).2 rejectedThenReached_atRest

end Kinematics

end ArmSimulator
