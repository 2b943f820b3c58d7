import TapeMachine.Machine.Step
import TapeMachine.Proofs.OccupiedCells

/-!
# What a step does

`Decides m x a` lists the six things a machine can do in a configuration, each with the facts
that make it do so. `Machine.action_eq_iff` says that this is what `Machine.action` does, so a
proof about a step is a proof by cases on `Decides`.

A step that applies a transition writes the cell under the carriage and no other. Any other step
leaves the configuration as it is (`Machine.after_step_of_not_applies`).
-/

namespace TapeMachine

open Machine

/-- What a machine does in a configuration, and why. -/
inductive Decides (m : Machine) (x : Configuration) : Action → Prop
  | halts (terminal : x.state = m.terminalState) : Decides m x .halt
  | foreign (running : x.state ≠ m.terminalState) (symbol : x.read ∉ m.alphabet) :
      Decides m x (.fail (.unexpectedSymbol x.state x.read .read))
  | missing (running : x.state ≠ m.terminalState) (symbol : x.read ∈ m.alphabet)
      (rule : m.program.get? x.state x.read = none) :
      Decides m x (.fail (.transitionNotFound x.state x.read))
  | loops {t : Transition} (running : x.state ≠ m.terminalState) (symbol : x.read ∈ m.alphabet)
      (rule : m.program.get? x.state x.read = some t) (loop : repeatsItself x t = true) :
      Decides m x (.fail (.infiniteLoop x.state x.read))
  | leaves {t : Transition} (running : x.state ≠ m.terminalState) (symbol : x.read ∈ m.alphabet)
      (rule : m.program.get? x.state x.read = some t) (progress : repeatsItself x t = false)
      (move : t.direction.move? x.carriage = none) :
      Decides m x (.fail (.carriageOverflow x.state x.carriage))
  | applies {t : Transition} {cell : Int64} (running : x.state ≠ m.terminalState)
      (symbol : x.read ∈ m.alphabet) (rule : m.program.get? x.state x.read = some t)
      (progress : repeatsItself x t = false) (move : t.direction.move? x.carriage = some cell) :
      Decides m x (.apply t cell)

namespace Machine

variable {m : Machine} {x : Configuration}

theorem isHalted_iff : m.isHalted x = true ↔ x.state = m.terminalState := by
  simp [isHalted]

theorem repeatsItself_iff {t : Transition} :
    repeatsItself x t = true ↔ t.direction = .stay ∧ t.next = x.state ∧ t.write = x.read := by
  simp [repeatsItself, and_assoc]

theorem decides_action : Decides m x (m.action x) := by
  unfold action
  split
  next h => exact .halts (isHalted_iff.1 h)
  next h =>
    have running : x.state ≠ m.terminalState := fun h' => h (isHalted_iff.2 h')
    split
    next symbol => exact .foreign running symbol
    next symbol =>
      rw [not_not] at symbol
      split
      next rule => exact .missing running symbol rule
      next rule =>
        split
        next loop => exact .loops running symbol rule loop
        next progress =>
          rw [Bool.not_eq_true] at progress
          split
          next move => exact .leaves running symbol rule progress move
          next move => exact .applies running symbol rule progress move

/-- A machine does in a configuration what it has reason to do. -/
theorem action_eq_iff {a : Action} : m.action x = a ↔ Decides m x a := by
  constructor
  · rintro rfl
    exact decides_action
  · intro h
    cases h with
    | halts terminal => simp [action, isHalted_iff, terminal]
    | foreign running symbol => simp [action, isHalted_iff, running, symbol]
    | missing running symbol rule => simp [action, isHalted_iff, running, symbol, rule]
    | loops running symbol rule loop => simp [action, isHalted_iff, running, symbol, rule, loop]
    | leaves running symbol rule progress move =>
      simp [action, isHalted_iff, running, symbol, rule, progress, move]
    | applies running symbol rule progress move =>
      simp [action, isHalted_iff, running, symbol, rule, progress, move]

theorem action_eq_halt_iff : m.action x = .halt ↔ x.state = m.terminalState := by
  rw [action_eq_iff]
  constructor
  · rintro ⟨terminal⟩
    exact terminal
  · exact .halts

/-! ## Applied steps -/

/-- The machine applies a transition in the configuration. -/
def Applies (m : Machine) (x : Configuration) : Prop :=
  ∃ t cell, m.action x = .apply t cell

theorem step_of_apply {t : Transition} {cell : Int64} (h : m.action x = .apply t cell) :
    m.step x =
      ⟨x.apply t cell, m.reached (x.apply t cell), [.stepApplied (x.record t cell)]⟩ := by
  rw [step, h]

theorem step_of_halt (h : m.action x = .halt) : m.step x = ⟨x, .ok .halted, []⟩ := by
  rw [step, h]

theorem step_of_fail {e : Error} (h : m.action x = .fail e) : m.step x = ⟨x, .error e, []⟩ := by
  rw [step, h]

/-- A step that applies no transition changes nothing. -/
theorem after_step_of_not_applies (h : ¬m.Applies x) : (m.step x).after = x := by
  cases ha : m.action x with
  | halt => rw [step_of_halt ha]
  | fail e => rw [step_of_fail ha]
  | apply t cell => exact absurd ⟨t, cell, ha⟩ h

theorem Applies.running (h : m.Applies x) : x.state ≠ m.terminalState := by
  obtain ⟨t, cell, h⟩ := h
  cases action_eq_iff.1 h with
  | applies running symbol rule progress move => exact running

theorem Applies.read_mem (h : m.Applies x) : x.read ∈ m.alphabet := by
  obtain ⟨t, cell, h⟩ := h
  cases action_eq_iff.1 h with
  | applies running symbol rule progress move => exact symbol

variable (m x) in
/-- The configuration is below both limits. -/
def BelowLimits : Prop :=
  x.tape.size < m.maxTapeLength.toNat ∧ (m.maxSteps = 0 ∨ x.steps < m.maxSteps.toNat)

theorem limit?_eq_none_iff : m.limit? x = none ↔ m.BelowLimits x := by
  unfold limit? BelowLimits
  by_cases hs : m.maxTapeLength.toNat ≤ x.tape.size
  · simp [hs, Nat.not_lt.2 hs]
  · have hs' : x.tape.size < m.maxTapeLength.toNat := Nat.not_le.1 hs
    by_cases hn : m.maxSteps = 0 <;> simp [hs, hs', hn]

/-- A limit reports the new configuration; the tape comes before the steps. -/
theorem limit?_eq_some_iff {e : Error} :
    m.limit? x = some e ↔
      (m.maxTapeLength.toNat ≤ x.tape.size ∧ e = .tapeOver x.tape.size x.carriage) ∨
      (x.tape.size < m.maxTapeLength.toNat ∧ m.maxSteps ≠ 0 ∧ m.maxSteps.toNat ≤ x.steps ∧
        e = .stepsExceeded x.steps) := by
  unfold limit?
  by_cases hs : m.maxTapeLength.toNat ≤ x.tape.size
  · simp [hs, Nat.not_lt.2 hs, eq_comm]
  · have hs' : x.tape.size < m.maxTapeLength.toNat := Nat.not_le.1 hs
    by_cases hn : m.maxSteps = 0 <;> by_cases hl : m.maxSteps.toNat ≤ x.steps <;>
      simp [hs, hs', hn, hl, eq_comm]

theorem reached_eq_ok_iff {p : Progress} :
    m.reached x = .ok p ↔ p = .moved ∧ m.BelowLimits x := by
  rw [← limit?_eq_none_iff, reached]
  cases m.limit? x <;> simp [eq_comm]

/-- A step reports that the run may go on if it applies a transition and comes to no limit. -/
theorem result_eq_moved_iff :
    (m.step x).result = .ok .moved ↔ m.Applies x ∧ m.BelowLimits (m.step x).after := by
  unfold Applies
  cases ha : m.action x with
  | halt => simp [step_of_halt ha]
  | fail e => simp [step_of_fail ha]
  | apply t cell => simp [step_of_apply ha, reached_eq_ok_iff]

theorem result_eq_halted_iff : (m.step x).result = .ok .halted ↔ x.state = m.terminalState := by
  rw [← action_eq_halt_iff]
  cases ha : m.action x with
  | halt => simp [step_of_halt ha]
  | fail e => simp [step_of_fail ha]
  | apply t cell => simp [step_of_apply ha, reached_eq_ok_iff]

/-- A step reports an error if the machine fails, or if it applies a transition and comes to a
limit. -/
theorem result_eq_error_iff {e : Error} :
    (m.step x).result = .error e ↔ m.action x = .fail e ∨
      ∃ t cell, m.action x = .apply t cell ∧ m.limit? (x.apply t cell) = some e := by
  cases ha : m.action x with
  | halt => simp [step_of_halt ha]
  | fail e' => simp [step_of_fail ha]
  | apply t cell =>
    rw [step_of_apply ha, reached]
    cases hl : m.limit? (x.apply t cell) <;> simp [hl]

/-- An error that names no limit is a failure of the machine. -/
theorem action_eq_fail_of_result {e : Error} (h : (m.step x).result = .error e)
    (htape : ∀ cells carriage, e ≠ .tapeOver cells carriage)
    (hsteps : ∀ steps, e ≠ .stepsExceeded steps) : m.action x = .fail e := by
  obtain ha | ⟨t, cell, -, hl⟩ := result_eq_error_iff.1 h
  · exact ha
  · obtain ⟨-, he⟩ | ⟨-, -, -, he⟩ := limit?_eq_some_iff.1 hl
    · exact absurd he (htape _ _)
    · exact absurd he (hsteps _)

end Machine

end TapeMachine
