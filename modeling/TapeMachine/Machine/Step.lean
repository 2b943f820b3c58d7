import TapeMachine.Machine.Basic
import TapeMachine.Tape.Basic

/-!
# Steps

A configuration is the state of a run: the machine's state, the cell of the carriage, the number
of steps applied and the tape. `Machine.action` says what a machine does in a configuration: it
halts, it fails, or it applies a transition. `Machine.step` does it once. The limits of the
machine are looked at after a transition has been applied; they change what the step reports,
not what it does.
-/

namespace TapeMachine

/-- The state of a run. -/
structure Configuration where
  /-- The machine's state. -/
  state : String
  /-- The cell the carriage stands on. -/
  carriage : Int64
  /-- The number of steps applied. No run lasts long enough to apply `2 ^ 64`. -/
  steps : Nat
  /-- The tape. -/
  tape : Tape

namespace Configuration

/-- The symbol under the carriage. -/
def read (x : Configuration) : Char :=
  x.tape.read x.carriage.toInt

/-- The configuration after a transition that brings the carriage to `cell`. -/
def apply (x : Configuration) (t : Transition) (cell : Int64) : Configuration :=
  ⟨t.next, cell, x.steps + 1, x.tape.insert x.carriage.toInt t.write⟩

/-- The record of the step that `apply` makes. -/
def record (x : Configuration) (t : Transition) (cell : Int64) : StepRecord :=
  ⟨x.steps + 1, x.read, t.write, t.direction, t.next, cell⟩

end Configuration

/-- What a machine does in a configuration. -/
inductive Action where
  /-- It is in its terminal state and does nothing. -/
  | halt
  /-- It cannot go on. -/
  | fail (e : Error)
  /-- It applies a transition, which brings the carriage to `cell`. -/
  | apply (t : Transition) (cell : Int64)

/-- What a successful step reports. -/
inductive Progress where
  /-- A transition was applied and the run may go on. -/
  | moved
  /-- The machine is in its terminal state; nothing was done. -/
  | halted
  deriving DecidableEq, Repr

/-- A step, as it was made. -/
structure StepReport where
  /-- The configuration after the step. -/
  after : Configuration
  /-- What the step reports. -/
  result : Except Error Progress
  /-- What the step leaves in the journal. -/
  events : List Event

namespace Machine

/-- The configuration in which a run begins. -/
def start (m : Machine) (carriage : Int64) (tape : Tape) : Configuration :=
  ⟨m.startState, carriage, 0, tape⟩

/-- The configuration is in the machine's terminal state. -/
def isHalted (m : Machine) (x : Configuration) : Bool :=
  x.state = m.terminalState

/-- The transition repeats itself: it writes what was read, keeps the carriage where it is and
enters the state it came from. -/
def repeatsItself (x : Configuration) (t : Transition) : Bool :=
  t.direction = .stay && t.next = x.state && t.write = x.read

/-- What the machine does in a configuration. -/
def action (m : Machine) (x : Configuration) : Action :=
  if m.isHalted x then .halt
  else if x.read ∉ m.alphabet then .fail (.unexpectedSymbol x.state x.read .read)
  else
    match m.program.get? x.state x.read with
    | none => .fail (.transitionNotFound x.state x.read)
    | some t =>
      if repeatsItself x t then .fail (.infiniteLoop x.state x.read)
      else
        match t.direction.move? x.carriage with
        | none => .fail (.carriageOverflow x.state x.carriage)
        | some cell => .apply t cell

/-- The limit that a configuration has come to. -/
def limit? (m : Machine) (x : Configuration) : Option Error :=
  if m.maxTapeLength.toNat ≤ x.tape.size then some (.tapeOver x.tape.size x.carriage)
  else if m.maxSteps ≠ 0 ∧ m.maxSteps.toNat ≤ x.steps then some (.stepsExceeded x.steps)
  else none

/-- What a step reports that led to the configuration `x`. -/
def reached (m : Machine) (x : Configuration) : Except Error Progress :=
  match m.limit? x with
  | some e => .error e
  | none => .ok .moved

/-- Makes one step. -/
def step (m : Machine) (x : Configuration) : StepReport :=
  match m.action x with
  | .halt => ⟨x, .ok .halted, []⟩
  | .fail e => ⟨x, .error e, []⟩
  | .apply t cell => ⟨x.apply t cell, m.reached (x.apply t cell), [.stepApplied (x.record t cell)]⟩

/-- The configuration after `n` steps, whatever they report. -/
def after (m : Machine) (x : Configuration) : Nat → Configuration
  | 0 => x
  | n + 1 => m.after (m.step x).after n

@[simp] theorem after_zero (m : Machine) (x : Configuration) : m.after x 0 = x :=
  rfl

theorem after_succ (m : Machine) (x : Configuration) (n : Nat) :
    m.after x (n + 1) = m.after (m.step x).after n :=
  rfl

/-- The last of the steps can be made on its own. -/
theorem after_succ' (m : Machine) (x : Configuration) (n : Nat) :
    m.after x (n + 1) = (m.step (m.after x n)).after := by
  induction n generalizing x with
  | zero => rfl
  | succ n ih => rw [after_succ, ih, after_succ]

end Machine

end TapeMachine
