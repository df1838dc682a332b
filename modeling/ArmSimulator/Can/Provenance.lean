import ArmSimulator.Can.Arm

/-!
# Where the cached positions come from

Every motor method leaves its traces in buffers that all later calls share, and a poll
takes whatever frame is oldest. The invariant `Provenance` says that none of this
reaches a cached position: the updates of a run use frames in delivery order, each at most
once, and only replies to a position request of the motor that is updated.
-/

namespace ArmSimulator

def Call.Reads (call : Call) (joint : Joint) : Prop :=
  ∃ during readFails, call = .readPosition joint during readFails

/-- The value a motor's `position_` has after some updates. -/
def cachedAfter (joint : Joint) (initially : CFloat) (updates : List Update) : CFloat :=
  ((updates.filter fun update => update.joint = joint).getLast?.map Update.value).getD initially

/-- The update stores the position of the delivered frame it is attributed to. -/
def Update.Justified (update : Update) (arrived : List CanFrame) (canAddress : Word) : Prop :=
  ∃ frame, arrived[update.serial]? = some frame ∧ frame.canId = canAddress + 0x100 ∧
    cmdByte frame.data = 0x92 ∧ update.value = .finite frame.reportedPosition

theorem Update.Justified.mono {update : Update} {early late : List CanFrame}
    {canAddress : Word} (justified : update.Justified early canAddress)
    (later : early <+: late) : update.Justified late canAddress := by
  rcases justified with ⟨frame, delivered, reply⟩
  rcases later with ⟨rest, rfl⟩
  refine ⟨frame, ?_, reply⟩
  rcases List.getElem?_eq_some_iff.mp delivered with ⟨bound, -⟩
  rwa [List.getElem?_append_left bound]

theorem cachedAfter_append_singleton (joint : Joint) (initially : CFloat)
    (updates : List Update) (update : Update) :
    cachedAfter joint initially (updates ++ [update]) =
      if update.joint = joint then update.value
      else cachedAfter joint initially updates := by
  by_cases same : update.joint = joint
  · simp [cachedAfter, List.filter_append, same]
  · simp [cachedAfter, List.filter_append, same]

theorem canBusReceive_grows (address : Word) (cmdNumber : Byte) (readFails : Bool)
    (bus : CanBus) (commandBuf : Vector Byte 8) (during : List CanFrame) :
    let after := canBusReceive address cmdNumber readFails
      ((canBusSend commandBuf address bus).deliver during)
    bus.sRecv.arrived <+: after.sRecv.arrived ∧ bus.sRecv.taken ≤ after.sRecv.taken := by
  constructor
  · simp
  · have polled := canBusReceive_taken address cmdNumber readFails
      ((canBusSend commandBuf address bus).deliver during)
    simp only [CanBus.deliver_sRecv, canBusSend_sRecv, Fifo.pushAll_taken] at polled
    omega

namespace Arm

/-- No call takes back a delivery, or a frame that was taken. -/
theorem call_grows (arm : Arm) (call : Call) :
    arm.bus.sRecv.arrived <+: (arm.call call).1.bus.sRecv.arrived ∧
      arm.bus.sRecv.taken ≤ (arm.call call).1.bus.sRecv.taken := by
  cases call with
  | arrive frames => simp [Arm.call, Arm.deliver]
  | readPosition joint during readFails =>
      simp only [Arm.call, readPosition_eq, readPositionReceive_bus_sRecv]
      exact canBusReceive_grows _ _ _ arm.bus getPositionMsg during
  | setPosition joint newPosition unrepresentable during readFails =>
      simp only [Arm.call, Motor.setPosition]
      split
      · exact canBusReceive_grows _ _ _ arm.bus _ during
      · simp
  | setZeroCmd joint during readFails => exact canBusReceive_grows _ _ _ arm.bus _ during
  | shutdownCmd joint during readFails => exact canBusReceive_grows _ _ _ arm.bus _ during

/--
A call leaves every motor as it is, or it reads one motor, takes the oldest waiting frame,
and stores the position of that frame, which is a reply to the motor's request.
-/
theorem call_cases (arm : Arm) (call : Call) :
    ((arm.call call).2 = [] ∧ (arm.call call).1.motor = arm.motor) ∨
    ∃ joint value, call.Reads joint ∧
      (arm.call call).2 = [⟨joint, arm.bus.sRecv.taken, value⟩] ∧
      (arm.call call).1.motor =
        Function.update arm.motor joint { arm.motor joint with position := value } ∧
      Update.Justified ⟨joint, arm.bus.sRecv.taken, value⟩
        (arm.call call).1.bus.sRecv.arrived (arm.motor joint).canAddress ∧
      (arm.call call).1.bus.sRecv.taken = arm.bus.sRecv.taken + 1 := by
  cases call with
  | arrive frames => exact Or.inl ⟨rfl, rfl⟩
  | setPosition joint newPosition unrepresentable during readFails => exact Or.inl ⟨rfl, rfl⟩
  | setZeroCmd joint during readFails => exact Or.inl ⟨rfl, rfl⟩
  | shutdownCmd joint during readFails => exact Or.inl ⟨rfl, rfl⟩
  | readPosition joint during readFails =>
      simp only [Arm.call, readPosition_eq]
      rcases readPositionReceive_cases ((arm.readPositionSend joint).deliver during) joint
        readFails with ⟨-, unchanged⟩ | ⟨frame, delivered, answers, updates, motor, taken⟩
      · exact Or.inl unchanged
      · right
        refine ⟨joint, _, ⟨during, readFails, rfl⟩, updates, motor, ?_, taken⟩
        refine ⟨frame, ?_, answers.2, answers.1.symm, rfl⟩
        simpa using delivered

/-- The invariant of a run from `start`, over all updates so far. -/
structure Provenance (start arm : Arm) (updates : List Update) : Prop where
  addresses : ∀ joint, (arm.motor joint).canAddress = (start.motor joint).canAddress
  /-- Frames are used in delivery order, each at most once. -/
  ordered : (updates.map Update.serial).Pairwise (· < ·)
  used_taken : ∀ update ∈ updates, update.serial < arm.bus.sRecv.taken
  justified : ∀ update ∈ updates,
    update.Justified arm.bus.sRecv.arrived (start.motor update.joint).canAddress
  cached : ∀ joint, (arm.motor joint).position =
    cachedAfter joint (start.motor joint).position updates

theorem Provenance.start (arm : Arm) : Provenance arm arm [] where
  addresses _ := rfl
  ordered := by simp
  used_taken := by simp
  justified := by simp
  cached _ := rfl

theorem Provenance.call {start arm : Arm} {updates : List Update}
    (holds : Provenance start arm updates) (call : Call) :
    Provenance start (arm.call call).1 (updates ++ (arm.call call).2) := by
  rcases arm.call_grows call with ⟨arrived, grows⟩
  have justifiedBefore : ∀ update ∈ updates, update.Justified
      (arm.call call).1.bus.sRecv.arrived (start.motor update.joint).canAddress :=
    fun update mem => (holds.justified update mem).mono arrived
  rcases arm.call_cases call with
    ⟨silent, same⟩ | ⟨joint, value, -, update, motor, justified, taken⟩
  · rw [silent, List.append_nil]
    refine ⟨?_, holds.ordered, ?_, justifiedBefore, ?_⟩
    · simpa [same] using holds.addresses
    · intro update mem
      exact lt_of_lt_of_le (holds.used_taken update mem) grows
    · simpa [same] using holds.cached
  · rw [update]
    refine ⟨?_, ?_, ?_, ?_, ?_⟩
    · intro other
      by_cases equal : other = joint
      · subst other
        simpa [motor] using holds.addresses joint
      · simpa [motor, equal] using holds.addresses other
    · rw [List.map_append, List.pairwise_append]
      refine ⟨holds.ordered, by simp, ?_⟩
      intro serial mem last lastMem
      rcases List.mem_map.mp mem with ⟨earlier, earlierMem, rfl⟩
      simp only [List.map_cons, List.map_nil, List.mem_singleton] at lastMem
      subst last
      exact holds.used_taken earlier earlierMem
    · intro used usedMem
      rcases List.mem_append.mp usedMem with before | now
      · exact lt_of_lt_of_le (holds.used_taken used before) grows
      · simp only [List.mem_singleton] at now
        subst used
        simp [taken]
    · intro used usedMem
      rcases List.mem_append.mp usedMem with before | now
      · exact justifiedBefore used before
      · simp only [List.mem_singleton] at now
        subst used
        simpa [← holds.addresses joint] using justified
    · intro other
      rw [cachedAfter_append_singleton, motor]
      by_cases equal : joint = other
      · subst other
        simp
      · rw [if_neg equal, Function.update_of_ne (Ne.symm equal)]
        exact holds.cached other

/-- What is cached for a motor is the value of an update at least as new as any other one. -/
theorem Provenance.cached_of_mem {start arm : Arm} {updates : List Update}
    (holds : Provenance start arm updates) {update : Update} (mem : update ∈ updates) :
    ∃ last ∈ updates, last.joint = update.joint ∧ update.serial ≤ last.serial ∧
      (arm.motor update.joint).position = last.value := by
  have cached := holds.cached update.joint
  rw [cachedAfter] at cached
  have ordered := holds.ordered.sublist
    ((updates.filter_sublist (p := fun other => other.joint = update.joint)).map Update.serial)
  have own : update ∈ updates.filter fun other => other.joint = update.joint := by simp [mem]
  have mine : ∀ other ∈ updates.filter fun other => other.joint = update.joint,
      other ∈ updates ∧ other.joint = update.joint := by simp
  generalize updates.filter _ = filtered at cached ordered own mine
  rcases List.eq_nil_or_concat filtered with rfl | ⟨early, last, rfl⟩
  · simp at own
  · rw [List.concat_eq_append] at cached ordered own mine
    rcases mine last (by simp) with ⟨lastMem, same⟩
    refine ⟨last, lastMem, same, ?_, by simpa using cached⟩
    rw [List.map_append, List.pairwise_append] at ordered
    rcases List.mem_append.mp own with earlier | now
    · exact (ordered.2.2 _ (List.mem_map_of_mem earlier) _ (by simp)).le
    · rw [List.mem_singleton.mp now]

theorem provenance_trace (start : Arm) (calls : List Call) :
    Provenance start (Machine.trace Arm.call start calls).1
      (Machine.trace Arm.call start calls).2 := by
  have kept := Machine.trace_invariant Arm.call (Provenance start)
    (fun _ call _ holds => holds.call call) (Provenance.start start) calls
  simpa using kept

theorem call_position_of_not_reads (arm : Arm) {call : Call} {joint : Joint}
    (other : ¬call.Reads joint) :
    ((arm.call call).1.motor joint).position = (arm.motor joint).position := by
  rcases arm.call_cases call with ⟨-, same⟩ | ⟨read, value, reads, -, motor, -⟩
  · rw [same]
  · have different : joint ≠ read := by
      rintro rfl
      exact other reads
    rw [motor, Function.update_of_ne different]

/--
Over any run of calls and deliveries, the updates of the cached positions use delivered
frames in order and at most once, each frame being a position reply to the motor updated;
every cached position is the last one stored for its motor; and only reading a motor
changes its cached position.
-/
theorem cachedPositions_provenance (start : Arm) (calls : List Call) :
    let final := (Machine.trace Arm.call start calls).1
    let updates := (Machine.trace Arm.call start calls).2
    (updates.map Update.serial).Pairwise (· < ·) ∧
      (∀ update ∈ updates, update.Justified final.bus.sRecv.arrived
        (start.motor update.joint).canAddress) ∧
      (∀ joint, (final.motor joint).position =
        cachedAfter joint (start.motor joint).position updates) ∧
      ∀ (arm : Arm) (call : Call) (joint : Joint), ¬call.Reads joint →
        ((arm.call call).1.motor joint).position = (arm.motor joint).position := by
  have holds := provenance_trace start calls
  exact ⟨holds.ordered, holds.justified, holds.cached,
    fun arm _ _ other => arm.call_position_of_not_reads other⟩

end Arm

end ArmSimulator
