import TapeMachine.Proofs.Limits
import TapeMachine.Proofs.Safety

/-!
# A step is all or nothing

The result of a step tells whether it did anything. It says that the machine stands still
(`StandsStill`) exactly if no transition was applied (`Machine.standsStill_iff`), and that the
machine has moved on (`MovesOn`), perhaps into a limit, exactly if one was (`Machine.movesOn_iff`).

A step that stands still leaves the configuration as it is, and so do all later ones. A step that
moves on has carried out the whole transition (`Configuration.Performs`). There is nothing in
between: a move out of the range of cells is refused before anything is written
(`Machine.result_eq_carriageOverflow_iff`).
-/

namespace TapeMachine

/-- The result says that nothing was done: the machine has halted or cannot go on. -/
inductive StandsStill : Except Error Progress → Prop
  | halted : StandsStill (.ok .halted)
  | unexpectedSymbol (state : String) (symbol : Char) (origin : SymbolOrigin) :
      StandsStill (.error (.unexpectedSymbol state symbol origin))
  | transitionNotFound (state : String) (symbol : Char) :
      StandsStill (.error (.transitionNotFound state symbol))
  | infiniteLoop (state : String) (symbol : Char) :
      StandsStill (.error (.infiniteLoop state symbol))
  | carriageOverflow (state : String) (carriage : Int64) :
      StandsStill (.error (.carriageOverflow state carriage))

/-- The result says that a transition was applied: the run may go on, or has come to a limit. -/
inductive MovesOn : Except Error Progress → Prop
  | moved : MovesOn (.ok .moved)
  | tapeOver (cells : Nat) (carriage : Int64) : MovesOn (.error (.tapeOver cells carriage))
  | stepsExceeded (steps : Nat) : MovesOn (.error (.stepsExceeded steps))

/-- The configuration `y` comes of `x` by the whole of the transition `t`: its symbol is in the cell
of the carriage and every other cell is as it was, the carriage has moved without wrapping, the
machine is in the next state and has taken one step more. -/
structure Configuration.Performs (x : Configuration) (t : Transition) (y : Configuration) :
    Prop where
  written : y.tape[x.carriage.toInt]? = some t.write
  others : ∀ i ≠ x.carriage.toInt, y.tape[i]? = x.tape[i]?
  carriage : y.carriage.toInt = x.carriage.toInt + t.direction.offset
  state : y.state = t.next
  steps : y.steps = x.steps + 1

theorem StandsStill.not_movesOn {r : Except Error Progress} (h : StandsStill r) : ¬MovesOn r := by
  intro h'
  cases h <;> cases h'

namespace Machine

variable {m m' : Machine} {x : Configuration}

/-! ## What the result tells -/

theorem Applies.movesOn (h : m.Applies x) : MovesOn (m.step x).result := by
  obtain hr | ⟨cells, carriage, hr⟩ | ⟨steps, hr⟩ := h.result_cases
  · exact hr ▸ .moved
  · exact hr ▸ .tapeOver cells carriage
  · exact hr ▸ .stepsExceeded steps

theorem standsStill_of_not_applies (h : ¬m.Applies x) : StandsStill (m.step x).result := by
  cases ha : m.action x with
  | halt =>
    rw [step_of_halt ha]
    exact .halted
  | apply t cell => exact absurd ⟨t, cell, ha⟩ h
  | fail e =>
    rw [step_of_fail ha]
    cases action_eq_iff.1 ha with
    | foreign => exact .unexpectedSymbol _ _ _
    | missing => exact .transitionNotFound _ _
    | loops => exact .infiniteLoop _ _
    | leaves => exact .carriageOverflow _ _

/-- A step says that the machine has moved on exactly if it applies a transition. -/
theorem movesOn_iff : MovesOn (m.step x).result ↔ m.Applies x := by
  refine ⟨fun h => ?_, Applies.movesOn⟩
  by_contra hno
  exact (standsStill_of_not_applies hno).not_movesOn h

/-- A step says that the machine stands still exactly if it applies none. -/
theorem standsStill_iff : StandsStill (m.step x).result ↔ ¬m.Applies x :=
  ⟨fun h happlies => h.not_movesOn happlies.movesOn, standsStill_of_not_applies⟩

/-! ## Transitions that are applied -/

theorem performs_of_apply {t : Transition} {cell : Int64} (h : m.action x = .apply t cell) :
    x.Performs t (m.step x).after := by
  rw [step_of_apply h]
  cases action_eq_iff.1 h with
  | applies running symbol rule progress move =>
    exact {
      written := by simp [Configuration.apply]
      others i hi := by
        rw [Configuration.apply, Std.ExtTreeMap.getElem?_insert, if_neg (by simpa using hi.symm)]
      carriage := Direction.move?_eq_some_iff.1 move
      state := rfl
      steps := rfl }

/-- The tape limit is reported with the occupied cells and the carriage after the step. -/
theorem result_eq_tapeOver_iff {cells : Nat} {carriage : Int64} :
    (m.step x).result = .error (.tapeOver cells carriage) ↔
      m.Applies x ∧ m.maxTapeLength.toNat ≤ (m.step x).after.tape.cells.card ∧
        cells = (m.step x).after.tape.cells.card ∧ carriage = (m.step x).after.carriage := by
  constructor
  · intro h
    have happlies : m.Applies x := movesOn_iff.1 (by rw [h]; exact .tapeOver cells carriage)
    rw [happlies.result_eq, verdict] at h
    split_ifs at h with hfull
    · cases h
      exact ⟨happlies, hfull, rfl, rfl⟩
    · cases h
  · rintro ⟨happlies, hfull, rfl, rfl⟩
    rw [happlies.result_eq, verdict, if_pos hfull]

/-- The step limit is reported, with the steps taken, if there is room on the tape. -/
theorem result_eq_stepsExceeded_iff {steps : Nat} :
    (m.step x).result = .error (.stepsExceeded steps) ↔
      m.Applies x ∧ (m.step x).after.tape.cells.card < m.maxTapeLength.toNat ∧
        (0 < m.maxSteps ∧ m.maxSteps.toNat ≤ (m.step x).after.steps) ∧
        steps = (m.step x).after.steps := by
  constructor
  · intro h
    have happlies : m.Applies x := movesOn_iff.1 (by rw [h]; exact .stepsExceeded steps)
    rw [happlies.result_eq, verdict] at h
    split_ifs at h with hfull hlimit
    · cases h
    · cases h
      exact ⟨happlies, Nat.not_le.1 hfull, hlimit, rfl⟩
  · rintro ⟨happlies, hroom, hlimit, rfl⟩
    rw [happlies.result_eq, verdict, if_neg (Nat.not_le.2 hroom), if_pos hlimit]

/-! ## Moves out of the range of cells -/

variable (m x) in
/-- The transition for the configuration would take the carriage out of the range of cells. -/
def LeavesRange : Prop :=
  x.state ≠ m.terminalState ∧ x.read ∈ m.alphabet ∧
    ∃ t, m.program.get? x.state x.read = some t ∧
      (x.carriage.toInt + t.direction.offset < Int64.minValue.toInt ∨
        Int64.maxValue.toInt < x.carriage.toInt + t.direction.offset)

/-- A transition that repeats itself stays in its cell. -/
theorem repeatsItself_eq_false_of_move {t : Transition} (h : t.direction.move? x.carriage = none) :
    repeatsItself x t = false := by
  rw [Bool.eq_false_iff]
  intro hloop
  rw [(repeatsItself_iff.1 hloop).1, Direction.move?_eq_none_iff, Direction.offset] at h
  have lower := x.carriage.minValue_le_toInt
  have upper := x.carriage.toInt_le
  omega

/-- Such a move is refused, and nothing else is refused for that reason. The limits have no say. -/
theorem result_eq_carriageOverflow_iff {s : String} {i : Int64} :
    (m.step x).result = .error (.carriageOverflow s i) ↔
      m.LeavesRange x ∧ s = x.state ∧ i = x.carriage := by
  constructor
  · intro h
    cases action_eq_iff.1 (action_eq_fail_of_result h (by simp) (by simp)) with
    | leaves running symbol rule progress move =>
      exact ⟨⟨running, symbol, _, rule, Direction.move?_eq_none_iff.1 move⟩, rfl, rfl⟩
  · rintro ⟨⟨running, symbol, t, rule, move⟩, rfl, rfl⟩
    rw [← Direction.move?_eq_none_iff] at move
    have progress := repeatsItself_eq_false_of_move move
    rw [step_of_fail (action_eq_iff.2 (.leaves running symbol rule progress move))]

theorem SameRules.leavesRange_iff (h : m.SameRules m') : m'.LeavesRange x ↔ m.LeavesRange x := by
  rw [LeavesRange, LeavesRange, h.alphabet, h.terminalState, h.program]

/-! ## Steps along a run -/

/-- A step is all or nothing, wherever a run has come to. Its result says that the machine stands
still or that it has moved on. If it stands still, the step has changed nothing, and every later
step changes nothing and reports the same. If it moves on, the transition for the state and the
symbol read has been carried out, and a limit is reported with the measures of the new
configuration. A move is refused exactly if it would leave the range of cells, under these limits
and under any others. -/
theorem step_all_or_nothing (m : Machine) (c : Int64) (tape : Tape) (n : Nat) :
    let x := m.after (m.start c tape) n
    let r := (m.step x).result
    let y := (m.step x).after
    (StandsStill r ∨ MovesOn r) ∧
    (StandsStill r → y = x ∧ ∀ k, m.after x k = x ∧ (m.step (m.after x k)).result = r) ∧
    (MovesOn r → ∃ t, m.program.get? x.state x.read = some t ∧ x.Performs t y) ∧
    (∀ cells carriage, r = .error (.tapeOver cells carriage) →
      cells = y.tape.cells.card ∧ carriage = y.carriage) ∧
    (∀ steps, r = .error (.stepsExceeded steps) → steps = y.steps) ∧
    (∀ m', m.SameRules m' → ∀ s i, (m'.step x).result = .error (.carriageOverflow s i) ↔
      m.LeavesRange x ∧ s = x.state ∧ i = x.carriage) := by
  intro x r y
  refine ⟨?_, fun h => ?_, fun h => ?_, fun cells carriage h => ?_, fun steps h => ?_,
    fun m' rules s i => ?_⟩
  · by_cases happlies : m.Applies x
    · exact .inr happlies.movesOn
    · exact .inl (standsStill_of_not_applies happlies)
  · have hno : ¬m.Applies x := standsStill_iff.1 h
    refine ⟨after_step_of_not_applies hno, fun k => ?_⟩
    have hk : m.after x k = x := after_of_not_applies hno k
    exact ⟨hk, by rw [hk]⟩
  · obtain ⟨t, cell, ha⟩ := movesOn_iff.1 h
    exact ⟨t, rule_of_apply ha, performs_of_apply ha⟩
  · obtain ⟨-, -, hcells, hcarriage⟩ := result_eq_tapeOver_iff.1 h
    exact ⟨hcells, hcarriage⟩
  · obtain ⟨-, -, -, hsteps⟩ := result_eq_stepsExceeded_iff.1 h
    exact hsteps
  · rw [result_eq_carriageOverflow_iff, rules.leavesRange_iff]

end Machine

end TapeMachine
