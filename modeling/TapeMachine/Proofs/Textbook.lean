import Mathlib.Logic.Function.Iterate
import TapeMachine.Proofs.RunSpec

/-!
# Machines refine the textbook machine

The textbook machine has a tape with a symbol in every cell and a carriage that goes anywhere. It
knows no alphabet, no limits and no guard against loops. It stops in the terminal state, and it
stays where it is when the program has no transition for it.

`Machine.exec_refines_textbook` says when a run succeeds: exactly if the textbook machine halts
and, up to that step, reads symbols of the alphabet, stays on cells that exist and keeps below both
limits (`WithinMeans`). The tape is then the textbook tape. The limits are looked at after every
step, but occupied cells and steps only grow, so that it is enough to look at them in the end. The
guard against loops does no harm: a configuration that it refuses is a fixed point of the textbook
step and never halts.
-/

namespace TapeMachine

/-! ## The textbook machine -/

/-- A configuration of the textbook machine. -/
structure TextbookConfiguration where
  /-- The machine's state. -/
  state : String
  /-- The cell the carriage stands on. -/
  head : Int
  /-- The symbol in every cell. -/
  cells : Int → Char

/-- A configuration as the textbook machine sees it: unoccupied cells hold the blank. -/
def Configuration.textbook (x : Configuration) : TextbookConfiguration :=
  ⟨x.state, x.carriage.toInt, x.tape.read⟩

namespace Machine

variable (m : Machine) (c : Int64) (tape : Tape)

/-- One step of the textbook machine. -/
def textbookStep (y : TextbookConfiguration) : TextbookConfiguration :=
  if y.state = m.terminalState then y
  else
    match m.program.get? y.state (y.cells y.head) with
    | none => y
    | some t =>
      ⟨t.next, y.head + t.direction.offset, Function.update y.cells y.head t.write⟩

/-- The textbook machine after `n` steps on a tape. -/
def textbook (n : Nat) : TextbookConfiguration :=
  m.textbookStep^[n] ⟨m.startState, c.toInt, tape.read⟩

/-- The textbook machine reaches the terminal state for the first time after `n` steps. -/
structure TextbookHalts (n : Nat) : Prop where
  terminal : (m.textbook c tape n).state = m.terminalState
  first : ∀ k < n, (m.textbook c tape k).state ≠ m.terminalState

/-- The cells the textbook machine stands on before step `n`. -/
def textbookCells (n : Nat) : Finset Int :=
  (Finset.range n).image fun k => (m.textbook c tape k).head

/-- The first `n` steps of the textbook machine are within the means of the machine. -/
structure WithinMeans (n : Nat) : Prop where
  symbols : ∀ k < n, (m.textbook c tape k).cells (m.textbook c tape k).head ∈ m.alphabet
  cells : ∀ k ≤ n, Int64.minValue.toInt ≤ (m.textbook c tape k).head ∧
    (m.textbook c tape k).head ≤ Int64.maxValue.toInt
  limits : n = 0 ∨
    (tape.cells ∪ m.textbookCells c tape n).card < m.maxTapeLength.toNat ∧
      (m.maxSteps = 0 ∨ n < m.maxSteps.toNat)

variable {m c tape} {x : Configuration}

/-! ## The simulation -/

theorem textbookStep_of_none (rule : m.program.get? x.state x.read = none) :
    m.textbookStep x.textbook = x.textbook := by
  have hrule : m.program.get? x.textbook.state (x.textbook.cells x.textbook.head) = none := rule
  rw [textbookStep, hrule, ite_self]

theorem textbookStep_of_some {t : Transition} (running : x.state ≠ m.terminalState)
    (rule : m.program.get? x.state x.read = some t) :
    m.textbookStep x.textbook = ⟨t.next, x.carriage.toInt + t.direction.offset,
      Function.update x.tape.read x.carriage.toInt t.write⟩ := by
  have hrule : m.program.get? x.textbook.state (x.textbook.cells x.textbook.head) = some t := rule
  have hstate : x.textbook.state ≠ m.terminalState := running
  rw [textbookStep, if_neg hstate, hrule]
  rfl

/-- An applied transition is a step of the textbook machine. -/
theorem textbookStep_of_apply {t : Transition} {cell : Int64} (h : m.action x = .apply t cell) :
    m.textbookStep x.textbook = (x.apply t cell).textbook := by
  cases action_eq_iff.1 h with
  | applies running symbol rule progress move =>
    have hcells : Function.update x.tape.read x.carriage.toInt t.write =
        Tape.read (x.tape.insert x.carriage.toInt t.write) := by
      ext i
      rw [Tape.read_insert, Function.update_apply]
      simp only [eq_comm]
    rw [textbookStep_of_some running rule, hcells, ← Direction.move?_eq_some_iff.1 move]
    rfl

theorem iterate_textbookStep :
    ∀ {n : Nat}, m.AppliesAll x n → m.textbookStep^[n] x.textbook = (m.after x n).textbook
  | 0, _ => rfl
  | n + 1, h => by
    obtain ⟨t, cell, ha⟩ := h n (Nat.lt_succ_self n)
    rw [Function.iterate_succ_apply', iterate_textbookStep (h.mono (Nat.le_succ n)),
      textbookStep_of_apply ha, after_succ', step_of_apply ha]

theorem textbook_eq_after {n : Nat} (h : m.AppliesAll (m.start c tape) n) :
    m.textbook c tape n = (m.after (m.start c tape) n).textbook :=
  iterate_textbookStep h

theorem textbookCells_eq_written {n : Nat} (h : m.AppliesAll (m.start c tape) n) :
    m.textbookCells c tape n = m.written (m.start c tape) n := by
  rw [h.written_eq, textbookCells]
  refine Finset.image_congr fun k hk => ?_
  have hk : k < n := by simpa using hk
  rw [textbook_eq_after (h.mono hk.le), Configuration.textbook]

/-! ## Configurations that last -/

/-- The textbook machine leaves every configuration on its way to the terminal state. -/
theorem TextbookHalts.step_ne {n k : Nat} (h : m.TextbookHalts c tape n) (hk : k < n) :
    m.textbookStep (m.textbook c tape k) ≠ m.textbook c tape k := by
  intro fixed
  obtain ⟨d, rfl⟩ := Nat.exists_eq_add_of_le hk.le
  have hlast : m.textbook c tape (k + d) = m.textbook c tape k := by
    rw [textbook, Nat.add_comm, Function.iterate_add_apply, ← textbook,
      Function.iterate_fixed fixed]
  exact h.first k hk (hlast ▸ h.terminal)

/-- A transition that repeats itself changes nothing on the textbook tape. -/
theorem textbookStep_of_repeatsItself {t : Transition} (running : x.state ≠ m.terminalState)
    (rule : m.program.get? x.state x.read = some t) (loop : repeatsItself x t = true) :
    m.textbookStep x.textbook = x.textbook := by
  obtain ⟨hd, hn, hw⟩ := repeatsItself_iff.1 loop
  rw [textbookStep_of_some running rule]
  simp only [hd, hn, hw, Direction.offset, Int.add_zero, Configuration.read,
    Function.update_eq_self, Configuration.textbook]

/-- Where the textbook machine moves on, on a symbol of the alphabet and to a cell that exists, a
transition is applied. -/
theorem applies_of_step_ne (symbol : x.read ∈ m.alphabet)
    (moves : m.textbookStep x.textbook ≠ x.textbook)
    (cell : Int64.minValue.toInt ≤ (m.textbookStep x.textbook).head ∧
      (m.textbookStep x.textbook).head ≤ Int64.maxValue.toInt) : m.Applies x := by
  cases ha : m.action x with
  | apply t cell => exact ⟨t, cell, ha⟩
  | halt =>
    rw [action_eq_halt_iff] at ha
    exact absurd (if_pos ha) moves
  | fail e =>
    exfalso
    cases action_eq_iff.1 ha with
    | foreign running h => exact h symbol
    | missing running _ rule => exact moves (textbookStep_of_none rule)
    | loops running _ rule loop => exact moves (textbookStep_of_repeatsItself running rule loop)
    | leaves running _ rule _ move =>
      rw [textbookStep_of_some running rule] at cell
      rw [Direction.move?_eq_none_iff] at move
      simp only at cell
      omega

/-! ## The refinement -/

/-- A run that may go on for `n` steps is within the means of the machine up to there. -/
theorem Continues.withinMeans {n : Nat} (h : m.Continues (m.start c tape) n) :
    m.WithinMeans c tape n where
  symbols k hk := by
    rw [textbook_eq_after (h.appliesAll.mono hk.le)]
    exact (h.appliesAll k hk).read_mem
  cells k hk := by
    rw [textbook_eq_after (h.appliesAll.mono hk)]
    exact ⟨Int64.minValue_le_toInt _, Int64.toInt_le _⟩
  limits := by
    cases n with
    | zero => exact .inl rfl
    | succ n =>
      obtain ⟨htape, hsteps⟩ := (continues_iff.1 h).2 n (Nat.lt_succ_self n)
      rw [← Tape.card_cells, cells_after, ← textbookCells_eq_written h.appliesAll] at htape
      rw [h.appliesAll.steps_after, start, Nat.zero_add] at hsteps
      exact .inr ⟨htape, hsteps⟩

/-- Where the textbook machine halts within the means of the machine, the run may go on up to
there. -/
theorem continues_of_withinMeans {n : Nat} (h : m.TextbookHalts c tape n)
    (w : m.WithinMeans c tape n) : ∀ k ≤ n, m.Continues (m.start c tape) k
  | 0, _ => fun _ hi => absurd hi (Nat.not_lt_zero _)
  | k + 1, hk => by
    have hc : m.Continues (m.start c tape) k := continues_of_withinMeans h w k (by omega)
    have hy := textbook_eq_after hc.appliesAll
    have hnext : m.textbook c tape (k + 1) = m.textbookStep (m.textbook c tape k) :=
      Function.iterate_succ_apply' ..
    have happlies : m.Applies (m.after (m.start c tape) k) := by
      have symbol := w.symbols k hk
      have moves := h.step_ne hk
      have cell := w.cells (k + 1) hk
      rw [hnext] at cell
      rw [hy] at symbol moves cell
      exact applies_of_step_ne symbol moves cell
    have hall : m.AppliesAll (m.start c tape) (k + 1) := fun i hi => by
      obtain hi | rfl := Nat.lt_succ_iff_lt_or_eq.1 hi
      · exact hc.appliesAll i hi
      · exact happlies
    refine continues_iff.2 ⟨hall, fun i hi => ?_⟩
    have hi' := hall.mono hi
    obtain rfl | ⟨htape, hsteps⟩ := w.limits
    · omega
    · constructor
      · rw [← Tape.card_cells, cells_after, ← textbookCells_eq_written hi']
        refine lt_of_le_of_lt (Finset.card_le_card ?_) htape
        exact Finset.union_subset_union_right
          (Finset.image_subset_image (Finset.range_mono (by omega)))
      · rw [hi'.steps_after, start, Nat.zero_add]
        exact hsteps.imp id fun hl => by omega

/-- The textbook machine reaches the terminal state for the first time only once. -/
theorem TextbookHalts.unique {n k : Nat} (h : m.TextbookHalts c tape n)
    (h' : m.TextbookHalts c tape k) : n = k := by
  rcases Nat.lt_trichotomy n k with hlt | heq | hgt
  · exact absurd h.terminal (h'.first n hlt)
  · exact heq
  · exact absurd h'.terminal (h.first k hgt)

/-- A run that may go on up to the terminal state has followed the textbook machine there. -/
theorem Continues.textbookHalts {n : Nat} (h : m.Continues (m.start c tape) n)
    (terminal : (m.after (m.start c tape) n).state = m.terminalState) :
    m.TextbookHalts c tape n where
  terminal := by rwa [textbook_eq_after h.appliesAll]
  first k hk := by
    rw [textbook_eq_after (h.appliesAll.mono hk.le)]
    exact (h.appliesAll k hk).running

/-- A run that the guard against loops ends is one in which the textbook machine never halts. -/
theorem not_textbookHalts_of_loop {k : Nat} {s : String} {y : Char}
    (h : m.AppliesAll (m.start c tape) k)
    (loop : m.action (m.after (m.start c tape) k) = .fail (.infiniteLoop s y)) (n : Nat) :
    ¬m.TextbookHalts c tape n := by
  intro halts
  cases action_eq_iff.1 loop with
  | loops running symbol rule repeats =>
    have hy := textbook_eq_after h
    rcases Nat.lt_or_ge k n with hlt | hge
    · apply halts.step_ne hlt
      rw [hy, textbookStep_of_repeatsItself running rule repeats]
    · have hn := halts.terminal
      rw [textbook_eq_after (h.mono hge)] at hn
      obtain rfl | hlt := Nat.eq_or_lt_of_le hge
      · exact running hn
      · exact (h n hlt).running hn

/-- A run succeeds exactly if the textbook machine halts within the means of the machine, and the
tape is then the textbook tape. The guard against loops ends no run that would have halted. -/
theorem exec_refines_textbook (m : Machine) (c : Int64) (tape : Tape) :
    ((∃ t, Yields (m.exec false c tape) (.ok t)) ↔
      ∃ n, m.TextbookHalts c tape n ∧ m.WithinMeans c tape n) ∧
    (∀ t n, Yields (m.exec false c tape) (.ok t) → m.TextbookHalts c tape n →
      ∀ i, t.read i = (m.textbook c tape n).cells i) ∧
    (∀ s y n, Yields (m.exec false c tape) (.error (.infiniteLoop s y)) →
      ¬m.TextbookHalts c tape n) := by
  refine ⟨⟨?_, ?_⟩, ?_, ?_⟩
  · rintro ⟨t, h⟩
    obtain ⟨n, hc, hs, -⟩ := exec_ok_iff.1 h
    exact ⟨n, hc.textbookHalts hs, hc.withinMeans⟩
  · rintro ⟨n, h, w⟩
    have hc := continues_of_withinMeans h w n le_rfl
    have hs := h.terminal
    rw [textbook_eq_after hc.appliesAll] at hs
    exact ⟨_, exec_ok_iff.2 ⟨n, hc, hs, rfl⟩⟩
  · intro t n ht h i
    obtain ⟨k, hc, hs, rfl⟩ := exec_ok_iff.1 ht
    obtain rfl := h.unique (hc.textbookHalts hs)
    rw [textbook_eq_after hc.appliesAll]
    rfl
  · intro s y n h
    obtain ⟨k, hc, he⟩ := exec_error_iff.1 h
    have ha := action_eq_fail_of_result he (by simp) (by simp)
    exact not_textbookHalts_of_loop hc.appliesAll ha n

end Machine

end TapeMachine
