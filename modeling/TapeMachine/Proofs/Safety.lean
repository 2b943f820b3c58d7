import TapeMachine.Proofs.ProgramMap
import TapeMachine.Proofs.RunSpec

/-!
# A machine cannot go wrong by itself

A machine's program was checked when the machine was built: every transition writes a symbol of
the alphabet and enters the terminal state or a state of the program (`Machine.rule_sound`). That
carries over to runs of any length on any tape. After the first applied step the machine is in a
state that the check has seen (`Machine.state_after`), and a cell that the run has written holds a
symbol of the alphabet (`Machine.exists_of_mem_written`). A symbol outside the alphabet can only
come from the input.
-/

namespace TapeMachine.Machine

variable {m : Machine} {x : Configuration} {c : Int64} {tape : Tape} {n : Nat}

/-- Every transition of a machine writes a symbol of the alphabet and enters the terminal state or
a state of the program. -/
theorem rule_sound {s : String} {y : Char} {t : Transition} (h : m.program.get? s y = some t) :
    t.write ∈ m.alphabet ∧ (t.next = m.terminalState ∨ m.program.containsState t.next = true) :=
  (flaw?_eq_none_iff.1 m.flawless).2.2.2 ⟨s, y, t⟩ (Program.mem_entries_iff.2 h)

theorem rule_of_apply {t : Transition} {cell : Int64} (h : m.action x = .apply t cell) :
    m.program.get? x.state x.read = some t := by
  cases action_eq_iff.1 h with
  | applies running symbol rule progress move => exact rule

/-- The machine is in its terminal state or a state of its program, or in its start state before
the first applied step. -/
theorem state_after (m : Machine) (c : Int64) (tape : Tape) (n : Nat) :
    (m.after (m.start c tape) n).state = m.terminalState ∨
      m.program.containsState (m.after (m.start c tape) n).state = true ∨
      (m.after (m.start c tape) n).steps = 0 ∧
        (m.after (m.start c tape) n).state = m.startState := by
  refine after_induction (P := fun x => x.state = m.terminalState ∨
    m.program.containsState x.state = true ∨ x.steps = 0 ∧ x.state = m.startState)
    (.inr (.inr ⟨rfl, rfl⟩)) (fun y t cell _ ha => ?_) n
  exact (rule_sound (rule_of_apply ha)).2.imp id .inl

/-- A cell that has been written holds a symbol of the alphabet. -/
theorem exists_of_mem_written :
    ∀ {n : Nat} {i : Int}, i ∈ m.written x n → ∃ y ∈ m.alphabet, (m.after x n).tape[i]? = some y
  | 0, _, h => by simp at h
  | n + 1, i, h => by
    rw [after_succ']
    by_cases ha : m.Applies (m.after x n)
    · rw [written_succ_of_applies ha, Finset.mem_insert] at h
      obtain ⟨t, cell, ha⟩ := ha
      rw [step_of_apply ha, Configuration.apply, Std.ExtTreeMap.getElem?_insert]
      by_cases hi : i = (m.after x n).carriage.toInt
      · exact ⟨t.write, (rule_sound (rule_of_apply ha)).1, by simp [hi]⟩
      · rw [if_neg (by simpa using Ne.symm hi)]
        exact exists_of_mem_written (h.resolve_left hi)
    · rw [written_succ_of_not_applies ha] at h
      rw [after_step_of_not_applies ha]
      exact exists_of_mem_written h

/-- A symbol outside the alphabet stands in a cell that the run has not written. -/
theorem not_mem_written_of_read (h : (m.after x n).read ∉ m.alphabet) :
    (m.after x n).carriage.toInt ∉ m.written x n := by
  intro hw
  obtain ⟨y, hy, hcell⟩ := exists_of_mem_written hw
  rw [Configuration.read, Tape.read, hcell] at h
  exact h hy

/-- A symbol outside the alphabet was on the tape from the start. -/
theorem getElem?_of_read_not_mem (h : (m.after x n).read ∉ m.alphabet) :
    x.tape[(m.after x n).carriage.toInt]? = some (m.after x n).read := by
  have hcell := getElem?_after (not_mem_written_of_read h)
  rw [Configuration.read, Tape.read, hcell] at h ⊢
  cases hc : x.tape[(m.after x n).carriage.toInt]? with
  | none =>
    rw [hc] at h
    exact absurd m.blank_mem h
  | some y => rfl

/-- A step reports a symbol outside the alphabet only if it stands under the carriage. -/
theorem read_of_unexpectedSymbol {s : String} {y : Char} {o : SymbolOrigin}
    (h : (m.step x).result = .error (.unexpectedSymbol s y o)) :
    x.read ∉ m.alphabet ∧ x.read = y := by
  cases action_eq_iff.1 (action_eq_fail_of_result h (by simp) (by simp)) with
  | foreign running symbol => exact ⟨symbol, rfl⟩

theorem state_of_transitionNotFound {s : String} {y : Char}
    (h : (m.step x).result = .error (.transitionNotFound s y)) :
    x.state ≠ m.terminalState ∧ x.state = s := by
  cases action_eq_iff.1 (action_eq_fail_of_result h (by simp) (by simp)) with
  | missing running symbol rule => exact ⟨running, rfl⟩

/-- No step over a tape within the alphabet reports a symbol outside it. -/
theorem result_ne_unexpectedSymbol (htape : ∀ (i : Int) y, tape[i]? = some y → y ∈ m.alphabet)
    (s : String) (y : Char) (o : SymbolOrigin) (n : Nat) :
    (m.step (m.after (m.start c tape) n)).result ≠ .error (.unexpectedSymbol s y o) := by
  intro h
  have hread := (read_of_unexpectedSymbol h).1
  exact hread (htape _ _ (getElem?_of_read_not_mem hread))

/-- What holds of every run of a machine, however far it is stepped and whatever the steps report.
The machine is in a state it knows, the cells it has written hold symbols of the alphabet and the
others what the input held. A symbol outside the alphabet is reported only in a cell of the input
that the run has not come to, never over an input within the alphabet. A state without a transition
is a state of the program, unless the run is still in its start. -/
theorem run_stays_sound (m : Machine) (c : Int64) (tape : Tape) (n : Nat) :
    let x := m.after (m.start c tape) n
    let written := m.written (m.start c tape) n
    (x.state = m.terminalState ∨ m.program.containsState x.state = true ∨
      x.steps = 0 ∧ x.state = m.startState) ∧
    (∀ i ∈ written, ∃ y ∈ m.alphabet, x.tape[i]? = some y) ∧
    (∀ i ∉ written, x.tape[i]? = tape[i]?) ∧
    (∀ s y, (m.step x).result = .error (.unexpectedSymbol s y .read) →
      x.carriage.toInt ∉ written ∧ tape[x.carriage.toInt]? = some y ∧ y ∉ m.alphabet) ∧
    ((∀ (i : Int) y, tape[i]? = some y → y ∈ m.alphabet) → ∀ s y,
      (m.step x).result ≠ .error (.unexpectedSymbol s y .read) ∧
      ¬Yields (m.exec false c tape) (.error (.unexpectedSymbol s y .read))) ∧
    (∀ s y, (m.step x).result = .error (.transitionNotFound s y) →
      m.program.containsState s = true ∨ x.steps = 0) := by
  refine ⟨state_after m c tape n, fun i => exists_of_mem_written, fun i => getElem?_after,
    ?_, ?_, ?_⟩
  · intro s y h
    obtain ⟨hread, rfl⟩ := read_of_unexpectedSymbol h
    exact ⟨not_mem_written_of_read hread, getElem?_of_read_not_mem hread, hread⟩
  · intro htape s y
    refine ⟨result_ne_unexpectedSymbol htape s y .read n, fun h => ?_⟩
    obtain ⟨k, -, he⟩ := exec_error_iff.1 h
    exact result_ne_unexpectedSymbol htape s y .read k he
  · intro s y h
    obtain ⟨running, rfl⟩ := state_of_transitionNotFound h
    obtain hs | hs | ⟨hs, -⟩ := state_after m c tape n
    · exact absurd hs running
    · exact .inl hs
    · exact .inr hs

end TapeMachine.Machine
