import TapeMachine.Cli.Session
import TapeMachine.Proofs.RunSpec

/-!
# Stepping, running and showing a run

A run can be made step by step, all at once, or shown line by line. A shown run ends as the run
does, within the same number of steps (`Machine.fst_showRun`). A run can be taken up from any
configuration it has come to and still ends the same (`Machine.yields_after_iff`).

A shown run prints a line for the configuration it begins in and one after every step that goes on,
and nothing for the step that ends it but that the machine has halted (`Machine.showSteps_lines`).
-/

namespace TapeMachine.Machine

variable {m : Machine} {x : Configuration}

/-! ## Runs that are taken up again -/

theorem Continues.add_iff {n k : Nat} (h : m.Continues x n) :
    m.Continues x (n + k) ↔ m.Continues (m.after x n) k := by
  constructor
  · intro hc i hi
    rw [← after_add]
    exact hc (n + i) (by omega)
  · intro hc i hi
    rcases Nat.lt_or_ge i n with hlt | hge
    · exact h i hlt
    · obtain ⟨j, rfl⟩ := Nat.exists_eq_add_of_le hge
      rw [after_add]
      exact hc j (by omega)

/-- The step that ends a run is not among those that go on. -/
theorem Continues.le_of_endsWith {n k : Nat} {r : Except Error Tape} (h : m.Continues x n)
    (he : m.EndsWith (m.after x k) r) : n ≤ k := by
  by_contra hlt
  rw [EndsWith, h k (Nat.not_le.1 hlt)] at he
  exact he

/-- From a configuration that a run has come to, it ends as it does from its start. -/
theorem yields_after_iff {n : Nat} (h : m.Continues x n) {r : Except Error Tape} :
    Yields (fun fuel => m.run false fuel (m.after x n)) r ↔
      Yields (fun fuel => m.run false fuel x) r := by
  rw [yields_run_iff, yields_run_iff]
  constructor
  · rintro ⟨k, hc, he⟩
    exact ⟨n + k, h.add_iff.2 hc, by rwa [after_add]⟩
  · rintro ⟨i, hc, he⟩
    obtain ⟨k, rfl⟩ := Nat.exists_eq_add_of_le (h.le_of_endsWith he)
    exact ⟨k, h.add_iff.1 hc, by rwa [← after_add]⟩

/-! ## Shown runs -/

theorem showSteps_false_succ (fuel : Nat) (printed : Array String) :
    m.showSteps false (fuel + 1) x printed =
      match (m.step x).result with
      | .ok .moved =>
        m.showSteps false fuel (m.step x).after (printed.push (m.step x).after.line)
      | .ok .halted => some (.ok (m.step x).after.tape, printed ++ haltedLines)
      | .error e => some (.error e, printed) :=
  rfl

theorem showSteps_true_succ (fuel : Nat) (printed : Array String) :
    m.showSteps true (fuel + 1) x printed = some (.error .cancelled, printed) :=
  rfl

/-- Showing steps changes neither what they lead to nor how many it takes. -/
theorem fst_showSteps (cancelled : Bool) : ∀ (fuel : Nat) (x : Configuration) (j : Journal)
    (printed : Array String),
      (m.showSteps cancelled fuel x printed).map Prod.fst = (m.run cancelled fuel x j).map Prod.fst
  | 0, _, _, _ => rfl
  | fuel + 1, x, j, printed => by
    cases cancelled with
    | true => rfl
    | false =>
      rw [showSteps_false_succ, run_false_succ]
      rcases (m.step x).result with e | _ | _
      · rfl
      · exact fst_showSteps false fuel _ _ _
      · rfl

theorem fst_showRun (cancelled : Bool) (fuel : Nat) (j : Journal) :
    (m.showRun cancelled fuel x).map Prod.fst = (m.run cancelled fuel x j).map Prod.fst :=
  fst_showSteps cancelled fuel x j _

/-- What a shown run prints after the lines of its configurations. -/
def endingLines : Except Error Tape → List String
  | .ok _ => haltedLines
  | .error _ => []

/-- The lines printed are those of the configurations that the steps which go on lead to, and those
of the ending. -/
theorem showSteps_lines {r : Except Error Tape} {lines : Array String} :
    ∀ {fuel : Nat} {x : Configuration} {printed : Array String},
      m.showSteps false fuel x printed = some (r, lines) →
      ∃ n, m.Continues x n ∧ m.EndsWith (m.after x n) r ∧
        lines.toList = printed.toList ++
          ((List.range n).map fun k => (m.after x (k + 1)).line) ++ endingLines r
  | 0, _, _, h => by simp [showSteps] at h
  | fuel + 1, x, printed, h => by
    rw [showSteps_false_succ] at h
    cases hr : (m.step x).result with
    | error e =>
      simp only [hr, Option.some.injEq, Prod.mk.injEq] at h
      obtain ⟨rfl, rfl⟩ := h
      exact ⟨0, continues_zero, by simp [EndsWith, hr], by simp [endingLines]⟩
    | ok p =>
      cases p with
      | halted =>
        simp only [hr, Option.some.injEq, Prod.mk.injEq] at h
        obtain ⟨rfl, rfl⟩ := h
        exact ⟨0, continues_zero, by simp [EndsWith, hr], by simp [endingLines]⟩
      | moved =>
        -- the line of this step has been printed before the rest of the run is shown
        rw [hr] at h
        obtain ⟨n, hc, he, hlines⟩ := showSteps_lines h
        refine ⟨n + 1, continues_succ.2 ⟨hr, hc⟩, he, ?_⟩
        rw [hlines, List.range_succ_eq_map]
        simp [after_succ]

/-- A shown run prints the lines of the configurations it comes to, from its first one on, and those
of its ending. -/
theorem showRun_lines {fuel : Nat} {r : Except Error Tape} {lines : Array String}
    (h : m.showRun false fuel x = some (r, lines)) :
    ∃ n, m.Continues x n ∧ m.EndsWith (m.after x n) r ∧
      lines.toList = ((List.range (n + 1)).map fun k => (m.after x k).line) ++ endingLines r := by
  obtain ⟨n, hc, he, hlines⟩ := showSteps_lines h
  refine ⟨n, hc, he, ?_⟩
  rw [hlines, List.range_succ_eq_map]
  simp

theorem showRun_true {fuel : Nat} {r : Except Error Tape} {lines : Array String}
    (h : m.showRun true fuel x = some (r, lines)) :
    r = .error .cancelled ∧ lines.toList = [x.line] := by
  cases fuel with
  | zero => simp [showRun, showSteps] at h
  | succ fuel =>
    rw [showRun, showSteps_true_succ, Option.some.injEq, Prod.mk.injEq] at h
    exact ⟨h.1.symm, by rw [← h.2]⟩

theorem line_of_steps {k : Nat} (h : x.steps = k) :
    x.line = "Step: " ++ toString k ++ ", State: " ++ x.state ++ ", Carriage: " ++
      toString x.carriage.toInt ++ ", Tape: [" ++ x.tape.render ++ "]" := by
  subst h
  rfl

/-- The three ways to make a run agree. A shown run ends as a run does, cancelled or not, in the
same number of steps. An uncancelled run ends the same when it is taken up from a configuration that
it has come to, and it ends with the first step that does not go on: with the tape if that step
finds the terminal state, or with its error. A shown run prints the configurations after `0`, `1`,
..., `n` steps, where `n` is the number of steps that go on, and nothing for a step that fails. -/
theorem stepping_running_showing_agree (m : Machine) (c : Int64) (tape : Tape) :
    let x := m.start c tape
    (∀ cancelled fuel j, (m.showRun cancelled fuel x).map Prod.fst =
      (m.exec cancelled c tape fuel j).map Prod.fst) ∧
    (∀ n, m.Continues x n → ∀ r, Yields (fun fuel => m.run false fuel (m.after x n)) r ↔
      Yields (m.exec false c tape) r) ∧
    (∀ t, Yields (m.exec false c tape) (.ok t) ↔ ∃ n, m.Continues x n ∧
      (m.step (m.after x n)).result = .ok .halted ∧ (m.step (m.after x n)).after.tape = t) ∧
    (∀ e, Yields (m.exec false c tape) (.error e) ↔ ∃ n, m.Continues x n ∧
      (m.step (m.after x n)).result = .error e) ∧
    (∀ cancelled fuel r lines, m.showRun cancelled fuel x = some (r, lines) →
      ∃ n, m.Continues x n ∧
        (if cancelled then n = 0 ∧ r = .error .cancelled else m.EndsWith (m.after x n) r) ∧
        lines.toList = ((List.range (n + 1)).map fun k =>
          let y := m.after x k
          "Step: " ++ toString k ++ ", State: " ++ y.state ++ ", Carriage: " ++
            toString y.carriage.toInt ++ ", Tape: [" ++ y.tape.render ++ "]") ++
          endingLines r) := by
  intro x
  refine ⟨fun cancelled fuel j => fst_showRun cancelled fuel j, fun n h r => yields_after_iff h,
    fun t => ?_, fun e => exec_error_iff, fun cancelled fuel r lines h => ?_⟩
  · refine exec_ok_iff.trans (exists_congr fun n => and_congr_right fun _ => ?_)
    rw [result_eq_halted_iff]
    refine and_congr_right fun terminal => ?_
    rw [step_of_halt (action_eq_halt_iff.2 terminal)]
  · cases cancelled with
    | true =>
      obtain ⟨rfl, hlines⟩ := showRun_true h
      exact ⟨0, continues_zero, ⟨rfl, rfl⟩, hlines⟩
    | false =>
      obtain ⟨n, hc, he, hlines⟩ := showRun_lines h
      refine ⟨n, hc, he, ?_⟩
      rw [hlines]
      refine congrArg (· ++ endingLines r) (List.map_congr_left fun k hk => ?_)
      have hle : k ≤ n := Nat.le_of_lt_succ (List.mem_range.1 hk)
      have hsteps : (m.after x k).steps = k := by
        rw [(hc.mono hle).appliesAll.steps_after]
        exact Nat.zero_add k
      exact line_of_steps hsteps

end TapeMachine.Machine
