import ArmSimulator.Threads.Positions

/-!
# The positions that the timer sees

After its two reads `Control_thread` copies the cached positions to `elbow_pos` and
`shoulder_pos`, one after the other and without a lock. The handlers of the timer read these
globals between any two steps and compute the tip of the arm from them. What they read may be
old, and the two values need not belong together, but for each joint it only gets newer.
-/

namespace ArmSimulator

/-- The program with the globals that show its positions. -/
structure Display where
  program : Program
  /-- The joint whose position `Control_thread` copies next, before its next pass. -/
  copying : Option Joint
  /-- `elbow_pos` and `shoulder_pos`. -/
  shown : Joint → CFloat

inductive DisplayAction where
  | program (action : ProgramAction)
  | copy
  /-- A handler of the timer reads the position of a joint. -/
  | timer (joint : Joint)

structure Reading where
  joint : Joint
  value : CFloat
  deriving DecidableEq, Repr

def ProgramAction.isControl : ProgramAction → Bool
  | .threads (.control _) => true
  | _ => false

namespace Display

def initial (position : Joint → CFloat) : Display := ⟨.initial position, none, fun _ => .ofInt 0⟩

def nextCopy : Joint → Option Joint
  | .elbow => some .shoulder
  | .shoulder => none

/-- `Control_thread` starts no pass before both positions are copied. -/
def stepProgram (display : Display) (action : ProgramAction) :
    Option (Display × List Reading) :=
  if action.isControl ∧ display.copying.isSome then none
  else (display.program.step action).map fun result =>
    let copying :=
      if action.isControl ∧ display.program.threads.control = .shoulderReceive then some .elbow
      else display.copying
    ({ display with program := result.1, copying }, [])

/-- One assignment of `get_position`, unless the thread is gone. -/
def stepCopy (display : Display) : Option (Display × List Reading) :=
  match display.copying with
  | none => none
  | some joint =>
      if display.program.closing = .exited ∨ display.program.stopped = true then none
      else
        let shown := Function.update display.shown joint (display.program.arm.motor joint).position
        some ({ display with copying := nextCopy joint, shown }, [])

/-- `close_all` deletes the timer, but a handler that has started goes on to the end. -/
def step (display : Display) : DisplayAction → Option (Display × List Reading)
  | .program action => display.stepProgram action
  | .copy => display.stepCopy
  | .timer joint =>
      if display.program.closing = .exited then none
      else some (display, [⟨joint, display.shown joint⟩])

def machine : Machine Display DisplayAction Reading := ⟨step⟩

/-! ## What a step can do -/

inductive Move (display : Display) : Display → List Reading → Prop where
  | program {action : ProgramAction} {program : Program} (copying : Option Joint)
      (move : display.program.Move action program) :
      Move display { display with program, copying } []
  | copy (joint : Joint) (copying : Option Joint) :
      Move display
        { display with
          copying
          shown :=
            Function.update display.shown joint (display.program.arm.motor joint).position } []
  | timer (joint : Joint) : Move display display [⟨joint, display.shown joint⟩]

theorem step_move {display next : Display} {action : DisplayAction} {readings : List Reading}
    (taken : machine.step display action = some (next, readings)) :
    display.Move next readings := by
  cases action with
  | program action =>
      simp only [machine, step, stepProgram, Option.ite_none_left_eq_some,
        Option.map_eq_some_iff, Prod.exists, Prod.mk.injEq] at taken
      rcases taken with ⟨-, program, receptions, taken, rfl, rfl⟩
      exact .program _ (Program.step_move taken)
  | copy =>
      simp only [machine, step, stepCopy] at taken
      cases pending : display.copying with
      | none => simp [pending] at taken
      | some joint =>
          simp only [pending, Option.ite_none_left_eq_some, Option.some.injEq,
            Prod.mk.injEq] at taken
          rcases taken with ⟨-, rfl, rfl⟩
          exact .copy joint _
  | timer joint =>
      simp only [machine, step, Option.ite_none_left_eq_some, Option.some.injEq,
        Prod.mk.injEq] at taken
      rcases taken with ⟨-, rfl, rfl⟩
      exact .timer joint

end Display

/-! ## The age of a position -/

/--
Where a position comes from: age zero is the start of the program, and age `serial + 1` the
reply to the request with that number.
-/
def Arm.Stems (arm : Arm) (position : Joint → CFloat) (joint : Joint) : ℕ → CFloat → Prop
  | 0, value => value = .ofInt 0 ∨ value = position joint
  | serial + 1, value => arm.Reports joint serial value

theorem Arm.Stems.mono {arm next : Arm} {position : Joint → CFloat} {joint : Joint} {age : ℕ}
    {value : CFloat} (stems : arm.Stems position joint age value) (grows : arm.Grows next) :
    next.Stems position joint age value := by
  cases age with
  | zero => exact stems
  | succ serial => exact Arm.Reports.mono stems grows

/-- What has been cached by now is no younger than the replies taken by now. -/
theorem Arm.Stems.age_le {arm : Arm} {position : Joint → CFloat} {joint : Joint} {age : ℕ}
    {value : CFloat} (stems : arm.Stems position joint age value) :
    age ≤ arm.bus.sRecv.taken := by
  cases age with
  | zero => exact Nat.zero_le _
  | succ serial => exact stems.taken

namespace Display

/-- The readings with the ages of their values: for each joint the ages never decrease. -/
structure Aged (arm : Arm) (position : Joint → CFloat) (readings : List Reading)
    (aged : List (Reading × ℕ)) : Prop where
  readings_eq : aged.map Prod.fst = readings
  stems : ∀ entry ∈ aged, arm.Stems position entry.1.joint entry.2 entry.1.value
  inOrder : aged.Pairwise fun early late => early.1.joint = late.1.joint → early.2 ≤ late.2

/-- The cached, the shown and the read positions stem from ever older replies. -/
structure Sourced (position : Joint → CFloat) (display : Display) (cached shown : Joint → ℕ)
    (aged : List (Reading × ℕ)) (readings : List Reading) : Prop where
  follows : ∃ keys, display.program.Follows keys
  answered : display.program.arm.Answered
  cached_stems : ∀ joint, display.program.arm.Stems position joint (cached joint)
    (display.program.arm.motor joint).position
  shown_stems : ∀ joint, display.program.arm.Stems position joint (shown joint)
    (display.shown joint)
  shown_le : ∀ joint, shown joint ≤ cached joint
  aged_le : ∀ entry ∈ aged, entry.2 ≤ shown entry.1.joint
  isAged : Aged display.program.arm position readings aged

variable {position : Joint → CFloat}

theorem Aged.mono {arm next : Arm} {readings : List Reading} {aged : List (Reading × ℕ)}
    (isAged : Aged arm position readings aged) (grows : arm.Grows next) :
    Aged next position readings aged :=
  ⟨isAged.readings_eq, fun entry mem => (isAged.stems entry mem).mono grows, isAged.inOrder⟩

theorem sourced_initial (position : Joint → CFloat) :
    Sourced position (initial position) (fun _ => 0) (fun _ => 0) [] [] where
  follows := ⟨[], Program.follows_initial position⟩
  answered := .nil
  cached_stems _ := Or.inr rfl
  shown_stems _ := Or.inl rfl
  shown_le _ := le_rfl
  aged_le := by simp
  isAged := ⟨rfl, by simp, .nil⟩

/-- What is cached after a step of the program is at least as young as before. -/
theorem cached_move {program next : Program} {keys : List Key} (follows : program.Follows keys)
    (answered : program.arm.Answered) {action : ProgramAction}
    (move : program.Move action next) {joint : Joint} {age : ℕ}
    (stems : program.arm.Stems position joint age (program.arm.motor joint).position) :
    ∃ later, age ≤ later ∧
      next.arm.Stems position joint later (next.arm.motor joint).position := by
  have touched := move.touched follows.sound
  have traced := (Arm.Traced.start follows.sound.addressed answered).touched touched
  rcases traced.renewed joint with same | ⟨serial, fresh, reports⟩
  · exact ⟨age, le_rfl, same ▸ stems.mono touched.grows⟩
  · exact ⟨serial + 1, stems.age_le.trans (fresh.trans (Nat.le_succ _)), reports⟩

theorem Sourced.move {display next : Display} {cached shown : Joint → ℕ}
    {aged : List (Reading × ℕ)} {past readings : List Reading}
    (sourced : Sourced position display cached shown aged past)
    (move : display.Move next readings) :
    ∃ cached shown aged, Sourced position next cached shown aged (past ++ readings) := by
  rcases sourced with ⟨⟨keys, follows⟩, answered, cachedStems, shownStems, shownLe, agedLe, isAged⟩
  cases move with
  | program copying move =>
      have touched := move.touched follows.sound
      have traced := (Arm.Traced.start follows.sound.addressed answered).touched touched
      choose later younger laterStems using fun joint =>
        cached_move follows answered move (cachedStems joint)
      refine ⟨later, shown, aged, ⟨_, follows.move move⟩, traced.answered, laterStems,
        fun joint => (shownStems joint).mono touched.grows,
        fun joint => (shownLe joint).trans (younger joint), agedLe, ?_⟩
      rw [List.append_nil]
      exact isAged.mono touched.grows
  | copy joint copying =>
      refine ⟨cached, Function.update shown joint (cached joint), aged, ⟨keys, follows⟩, answered,
        cachedStems, ?_, ?_, ?_, by rwa [List.append_nil]⟩
      · intro other
        by_cases same : other = joint
        · subst other
          simpa using cachedStems joint
        · simpa [same] using shownStems other
      · intro other
        by_cases same : other = joint
        · subst other
          simp
        · simpa [same] using shownLe other
      · intro entry mem
        by_cases same : entry.1.joint = joint
        · rw [same, Function.update_self, ← same]
          exact (agedLe entry mem).trans (shownLe _)
        · simpa [same] using agedLe entry mem
  | timer joint =>
      refine ⟨cached, shown, aged ++ [(⟨joint, display.shown joint⟩, shown joint)],
        ⟨keys, follows⟩, answered, cachedStems, shownStems, shownLe, ?_, ?_, ?_, ?_⟩
      · intro entry mem
        rcases List.mem_append.mp mem with old | new
        · exact agedLe entry old
        · rw [List.mem_singleton.mp new]
      · rw [List.map_append, isAged.readings_eq]
        rfl
      · intro entry mem
        rcases List.mem_append.mp mem with old | new
        · exact isAged.stems entry old
        · rw [List.mem_singleton.mp new]
          exact shownStems joint
      · rw [List.pairwise_append]
        refine ⟨isAged.inOrder, List.pairwise_singleton _ _, ?_⟩
        intro early old late new same
        have below := agedLe early old
        rw [List.mem_singleton.mp new] at same ⊢
        rwa [same] at below

/--
With motors that answer at once, and under any interleaving of whole sends, polls and copies,
every position that a handler of the timer reads is a value from the start of the program or was
reported in a reply to a position request to that motor, and for each joint a later reading
never stems from an earlier reply.
-/
theorem readings_inOrder {actions : List DisplayAction} {final : Display}
    {readings : List Reading}
    (ran : machine.run (initial position) actions = some (final, readings)) :
    ∃ aged, Aged final.program.arm position readings aged := by
  have holds := Machine.run_invariant machine
    (fun display past => ∃ cached shown aged, Sourced position display cached shown aged past)
    (by
      rintro display next action past readings ⟨cached, shown, aged, sourced⟩ taken
      exact sourced.move (step_move taken))
    [] ⟨_, _, _, sourced_initial position⟩ ran
  rcases holds with ⟨_, _, aged, sourced⟩
  exact ⟨aged, sourced.isAged⟩

/-- One pass of `Control_thread`; a handler of the timer runs between its two copies. -/
def onePass : List DisplayAction :=
  let reply : Vector Byte 7 := #v[0, 0, 0, 0x10, 0x27, 0, 0]
  let control : DisplayAction := .program (.threads (.control reply))
  [.timer .elbow, control, control, control, control, control, control, control, .copy,
    .timer .elbow, .timer .shoulder, .copy]

theorem readings_inOrder_onePass : ∃ final readings aged,
    machine.run (initial fun _ => .nan) onePass = some (final, readings) ∧
      Aged final.program.arm (fun _ => .nan) readings aged := by
  have finishes : (machine.run (initial fun _ => .nan) onePass).isSome = true := by
    decide +kernel
  rcases Option.isSome_iff_exists.mp finishes with ⟨⟨final, readings⟩, ran⟩
  rcases readings_inOrder ran with ⟨aged, isAged⟩
  exact ⟨final, readings, aged, ran, isAged⟩

end Display

end ArmSimulator
