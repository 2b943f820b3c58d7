import TapeMachine.Proofs.ProgramMap
import TapeMachine.Proofs.RunSpec

/-!
# Limits decide only what is reported

Two machines with the same rules (`Machine.SameRules`) differ at most in their limits. They do the
same in every configuration (`SameRules.action_eq`), so their runs on a tape go through the same
configurations. A step that applies no transition reports the same on both. A step that applies one
reports what the new configuration comes to under the limits of its own machine
(`Machine.verdict`).

`limits_only_report` adds what follows for whole runs: a run that ends in anything but a limit ends
in the same under all limits that are no narrower.
-/

namespace TapeMachine.Machine

variable {m m' : Machine} {x : Configuration} {c : Int64} {tape : Tape}

/-- The machines have the same alphabet, states and program. -/
structure SameRules (m m' : Machine) : Prop where
  alphabet : m'.alphabet = m.alphabet
  startState : m'.startState = m.startState
  terminalState : m'.terminalState = m.terminalState
  program : m'.program = m.program

/-- What an applied step reports that led to `x`: too many occupied cells, else too many steps if
there is a limit to them, else that the run may go on. -/
def verdict (m : Machine) (x : Configuration) : Except Error Progress :=
  if m.maxTapeLength.toNat ≤ x.tape.cells.card then
    .error (.tapeOver x.tape.cells.card x.carriage)
  else if 0 < m.maxSteps ∧ m.maxSteps.toNat ≤ x.steps then .error (.stepsExceeded x.steps)
  else .ok .moved

/-- The limits of `m'` are no narrower than those of `m`. -/
structure NoNarrower (m m' : Machine) : Prop where
  tape : m.maxTapeLength ≤ m'.maxTapeLength
  steps : m'.maxSteps = 0 ∨ 0 < m.maxSteps ∧ m.maxSteps ≤ m'.maxSteps

theorem reached_eq_verdict (m : Machine) (x : Configuration) : m.reached x = m.verdict x := by
  simp only [verdict, UInt64.pos_iff_ne_zero, Tape.card_cells]
  unfold reached limit?
  split_ifs <;> rfl

/-- What a step reports that applies a transition. -/
theorem Applies.result_eq (h : m.Applies x) : (m.step x).result = m.verdict (m.step x).after := by
  obtain ⟨t, cell, ha⟩ := h
  rw [step_of_apply ha, reached_eq_verdict]

/-- Such a step does not find the terminal state, and an error it reports names a limit. -/
theorem Applies.result_cases (h : m.Applies x) :
    (m.step x).result = .ok .moved ∨
      (∃ cells carriage, (m.step x).result = .error (.tapeOver cells carriage)) ∨
      ∃ steps, (m.step x).result = .error (.stepsExceeded steps) := by
  rw [h.result_eq, verdict]
  split_ifs
  · exact .inr (.inl ⟨_, _, rfl⟩)
  · exact .inr (.inr ⟨_, rfl⟩)
  · exact .inl rfl

/-! ## Machines with the same rules -/

namespace SameRules

variable (h : m.SameRules m')

include h

/-- They do the same in a configuration. -/
theorem action_eq (x : Configuration) : m'.action x = m.action x := by
  cases m
  cases m'
  obtain ⟨rfl, rfl, rfl, rfl⟩ := h
  rfl

theorem applies_iff : m'.Applies x ↔ m.Applies x := by
  rw [Applies, Applies, h.action_eq]

theorem after_step_eq (x : Configuration) : (m'.step x).after = (m.step x).after := by
  cases ha : m.action x with
  | halt => rw [step_of_halt ha, step_of_halt ((h.action_eq x).trans ha)]
  | fail e => rw [step_of_fail ha, step_of_fail ((h.action_eq x).trans ha)]
  | apply t cell => rw [step_of_apply ha, step_of_apply ((h.action_eq x).trans ha)]

theorem result_eq_of_not_applies (hx : ¬m.Applies x) : (m'.step x).result = (m.step x).result := by
  cases ha : m.action x with
  | halt => rw [step_of_halt ha, step_of_halt ((h.action_eq x).trans ha)]
  | fail e => rw [step_of_fail ha, step_of_fail ((h.action_eq x).trans ha)]
  | apply t cell => exact absurd ⟨t, cell, ha⟩ hx

/-- Their runs go through the same configurations. -/
theorem after_eq (x : Configuration) (n : Nat) : m'.after x n = m.after x n :=
  (after_lockstep rfl (fun y _ heq => heq ▸ (h.after_step_eq y).symm) n).symm

theorem start_eq (c : Int64) (tape : Tape) : m'.start c tape = m.start c tape := by
  rw [start, start, h.startState]

end SameRules

/-! ## Wider limits -/

theorem NoNarrower.belowLimits (h : m.NoNarrower m') (hx : m.BelowLimits x) :
    m'.BelowLimits x := by
  have htape := UInt64.le_iff_toNat_le.1 h.tape
  refine ⟨by have := hx.1; omega, ?_⟩
  obtain hnone | ⟨hpos, hle⟩ := h.steps
  · exact .inl hnone
  · have hsteps := UInt64.le_iff_toNat_le.1 hle
    obtain hzero | hlt := hx.2
    · exact absurd hzero (UInt64.pos_iff_ne_zero.1 hpos)
    · exact .inr (by omega)

/-- A run that may go on may go on under wider limits. -/
theorem SameRules.continues (h : m.SameRules m') (wide : m.NoNarrower m') {n : Nat}
    (hc : m.Continues x n) : m'.Continues x n := by
  obtain ⟨hall, hbelow⟩ := continues_iff.1 hc
  refine continues_iff.2 ⟨fun k hk => ?_, fun k hk => ?_⟩
  · rw [h.after_eq, h.applies_iff]
    exact hall k hk
  · rw [h.after_eq]
    exact wide.belowLimits (hbelow k hk)

/-- A step that ends a run, but not by a limit, ends it in the same way under other limits. -/
theorem SameRules.endsWith (h : m.SameRules m') {r : Except Error Tape} (he : m.EndsWith x r)
    (htape : ∀ cells carriage, r ≠ .error (.tapeOver cells carriage))
    (hsteps : ∀ steps, r ≠ .error (.stepsExceeded steps)) : m'.EndsWith x r := by
  have hx : ¬m.Applies x := by
    intro hx
    unfold EndsWith at he
    obtain hr | ⟨cells, carriage, hr⟩ | ⟨steps, hr⟩ := hx.result_cases
    · rw [hr] at he
      exact he
    · rw [hr] at he
      exact htape cells carriage he
    · rw [hr] at he
      exact hsteps steps he
  rw [EndsWith, h.result_eq_of_not_applies hx, h.after_step_eq]
  exact he

/-- The limits of a machine decide what steps report and nothing else. Machines with the same rules
go through the same configurations, whatever the steps report. A step reports the same on both,
unless it applies a transition: then it reports on each what the limits of that machine say. A run
that ends in no limit ends in the same under limits that are no narrower. -/
theorem limits_only_report (h : m.SameRules m') (c : Int64) (tape : Tape) :
    (∀ n, m'.after (m'.start c tape) n = m.after (m.start c tape) n) ∧
    (∀ n, let x := m.after (m.start c tape) n
      let x' := m'.after (m'.start c tape) n
      (m.Applies x ∧ m'.Applies x' ∧ (m.step x).result = m.verdict (m.step x).after ∧
        (m'.step x').result = m'.verdict (m'.step x').after) ∨
      (¬m.Applies x ∧ ¬m'.Applies x' ∧ (m'.step x').result = (m.step x).result)) ∧
    (∀ r, (∀ cells carriage, r ≠ .error (.tapeOver cells carriage)) →
      (∀ steps, r ≠ .error (.stepsExceeded steps)) → m.NoNarrower m' →
      Yields (m.exec false c tape) r → Yields (m'.exec false c tape) r) := by
  have hafter : ∀ n, m'.after (m'.start c tape) n = m.after (m.start c tape) n := fun n => by
    rw [h.start_eq, h.after_eq]
  refine ⟨hafter, fun n => ?_, fun r htape hsteps wide hr => ?_⟩
  · intro x x'
    have hx : x' = x := hafter n
    rw [hx]
    by_cases ha : m.Applies x
    · have ha' := h.applies_iff.2 ha
      exact .inl ⟨ha, ha', ha.result_eq, ha'.result_eq⟩
    · exact .inr ⟨ha, fun ha' => ha (h.applies_iff.1 ha'), h.result_eq_of_not_applies ha⟩
  · obtain ⟨n, hc, he⟩ := yields_run_iff.1 hr
    rw [← h.start_eq c tape] at hc he
    refine yields_run_iff.2 ⟨n, h.continues wide hc, ?_⟩
    rw [h.after_eq]
    exact h.endsWith he htape hsteps

/-- Two states that send the carriage from one blank to the next and back. -/
def shuttling : List Entry :=
  [⟨"Q1", blank, ⟨"Q2", blank, .right⟩⟩, ⟨"Q2", blank, ⟨"Q1", blank, .left⟩⟩]

/-- A machine that goes back and forth between two cells. -/
def shuttle (maxTapeLength maxSteps : UInt64) (room : maxTapeLength ≠ 0 := by decide) :
    Machine where
  alphabet := .ofString ""
  startState := "Q1"
  terminalState := "Q0"
  program := .ofEntries shuttling
  maxTapeLength
  maxSteps
  blank_mem := Alphabet.mem_ofString.2 (.inl rfl)
  flawless := flaw?_eq_none_iff.2 ⟨by decide, by decide, room, by decide +kernel⟩

theorem limits_only_report_shuttle :
    (shuttle 3 5).SameRules (shuttle 9 0) ∧
      ∀ n, (shuttle 9 0).after ((shuttle 9 0).start 0 ∅) n =
        (shuttle 3 5).after ((shuttle 3 5).start 0 ∅) n := by
  have rules : (shuttle 3 5).SameRules (shuttle 9 0) := ⟨rfl, rfl, rfl, rfl⟩
  exact ⟨rules, (limits_only_report rules 0 ∅).1⟩

end TapeMachine.Machine
