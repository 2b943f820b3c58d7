import TapeMachine.Proofs.AllOrNothing
import TapeMachine.Proofs.Passages

/-!
# What a run uses up

After `k` applied steps a fresh run has taken `k` steps, its carriage is at most `k` cells from
where it began, and the occupied cells are those of the input and those the carriage has stood on
(`Machine.visited`). A step that is not applied changes nothing, so every configuration of a run is
one after some number of applied steps (`Machine.exists_appliesAll`).

One step occupies at most one cell more and none less. So the limits are met exactly: the step limit
by as many steps as it allows (`Continues.steps_of_stepsExceeded`), and the tape limit by as many
cells as it allows (`Continues.cells_of_tapeOver`) unless the input was full from the start, when
the first applied step reports it (`Continues.eq_zero_of_full`).
-/

namespace TapeMachine

theorem Direction.natAbs_offset_le (d : Direction) : d.offset.natAbs ≤ 1 := by
  cases d <;> decide

namespace Machine

variable {m : Machine} {x : Configuration} {c : Int64} {tape : Tape} {n : Nat}

/-! ## Applied steps -/

/-- Once a step is not applied, none is. -/
theorem appliesAll_of_applies (h : m.Applies (m.after x n)) : m.AppliesAll x (n + 1) := by
  intro k hk
  by_contra hno
  obtain ⟨d, rfl⟩ := Nat.exists_eq_add_of_le (Nat.le_of_lt_succ hk)
  -- the configuration after `k` steps has lasted up to now
  rw [after_add, after_of_not_applies hno] at h
  exact hno h

/-- A run is always where its applied steps have led it. -/
theorem exists_appliesAll : ∀ n, ∃ k ≤ n, m.AppliesAll x k ∧ m.after x n = m.after x k
  | 0 => ⟨0, le_rfl, fun k hk => absurd hk (Nat.not_lt_zero k), rfl⟩
  | n + 1 => by
    by_cases h : m.Applies (m.after x n)
    · exact ⟨n + 1, le_rfl, appliesAll_of_applies h, rfl⟩
    · obtain ⟨k, hk, hall, heq⟩ := exists_appliesAll n
      exact ⟨k, by omega, hall, by rw [after_succ', after_step_of_not_applies h, heq]⟩

theorem AppliesAll.steps_after_start (h : m.AppliesAll (m.start c tape) n) :
    (m.after (m.start c tape) n).steps = n := by
  rw [h.steps_after]
  exact Nat.zero_add n

theorem steps_after_start_le (n : Nat) : (m.after (m.start c tape) n).steps ≤ n := by
  obtain ⟨k, hk, hall, heq⟩ := exists_appliesAll (m := m) (x := m.start c tape) n
  rw [heq, hall.steps_after_start]
  exact hk

/-! ## Cells -/

variable (m x) in
/-- The cells the carriage stands on before step `n`. -/
def visited (n : Nat) : Finset Int :=
  (Finset.range n).image fun k => (m.after x k).carriage.toInt

theorem natAbs_carriage_step_le :
    ((m.step x).after.carriage.toInt - x.carriage.toInt).natAbs ≤ 1 := by
  by_cases h : m.Applies x
  · obtain ⟨t, cell, ha⟩ := h
    have hcarriage := (performs_of_apply ha).carriage
    have hoffset := t.direction.natAbs_offset_le
    omega
  · rw [after_step_of_not_applies h, Int.sub_self]
    exact Nat.zero_le 1

/-- The carriage is no further from where it began than there were steps. -/
theorem natAbs_carriage_after_le :
    ∀ n, ((m.after x n).carriage.toInt - x.carriage.toInt).natAbs ≤ n
  | 0 => by rw [after_zero, Int.sub_self, Int.natAbs_zero]
  | n + 1 => by
    have hsofar := natAbs_carriage_after_le n
    have hstep := natAbs_carriage_step_le (m := m) (x := m.after x n)
    rw [after_succ']
    omega

theorem Applies.cells_step (h : m.Applies x) :
    (m.step x).after.tape.cells = insert x.carriage.toInt x.tape.cells := by
  obtain ⟨t, cell, ha⟩ := h
  rw [step_of_apply ha, Configuration.apply, Tape.cells_insert]

/-- An applied step occupies one cell more or none. -/
theorem Applies.card_cells_step (h : m.Applies x) :
    (m.step x).after.tape.cells.card = x.tape.cells.card ∨
      (m.step x).after.tape.cells.card = x.tape.cells.card + 1 := by
  rw [h.cells_step]
  by_cases hmem : x.carriage.toInt ∈ x.tape.cells
  · rw [Finset.insert_eq_of_mem hmem]
    exact .inl rfl
  · rw [Finset.card_insert_of_notMem hmem]
    exact .inr rfl

/-! ## Steps that meet a limit -/

theorem Continues.belowLimits (h : m.Continues x (n + 1)) : m.BelowLimits (m.after x (n + 1)) :=
  (continues_iff.1 h).2 n (Nat.lt_succ_self n)

theorem Continues.lt_maxSteps (h : m.Continues (m.start c tape) n) (limited : 0 < m.maxSteps) :
    n < m.maxSteps.toNat := by
  cases n with
  | zero => exact UInt64.lt_iff_toNat_lt.1 limited
  | succ n =>
    have hbelow := h.belowLimits.2
    rw [h.appliesAll.steps_after_start] at hbelow
    exact hbelow.resolve_left (UInt64.pos_iff_ne_zero.1 limited)

/-- The step limit is reported by the step that comes to it. -/
theorem Continues.steps_of_stepsExceeded {steps : Nat} (h : m.Continues (m.start c tape) n)
    (hr : (m.step (m.after (m.start c tape) n)).result = .error (.stepsExceeded steps)) :
    steps = m.maxSteps.toNat := by
  obtain ⟨happlies, -, ⟨limited, hlimit⟩, rfl⟩ := result_eq_stepsExceeded_iff.1 hr
  have hlt := h.lt_maxSteps limited
  rw [← after_succ', (appliesAll_of_applies happlies).steps_after_start] at hlimit ⊢
  omega

theorem Continues.card_cells_lt (h : m.Continues x n)
    (room : x.tape.cells.card < m.maxTapeLength.toNat) :
    (m.after x n).tape.cells.card < m.maxTapeLength.toNat := by
  cases n with
  | zero => exact room
  | succ n =>
    rw [Tape.card_cells]
    exact h.belowLimits.1

/-- The tape limit is reported by the step that comes to it, if there was room at the start. -/
theorem Continues.cells_of_tapeOver {cells : Nat} {carriage : Int64} (h : m.Continues x n)
    (room : x.tape.cells.card < m.maxTapeLength.toNat)
    (hr : (m.step (m.after x n)).result = .error (.tapeOver cells carriage)) :
    cells = m.maxTapeLength.toNat := by
  obtain ⟨happlies, hfull, rfl, -⟩ := result_eq_tapeOver_iff.1 hr
  have hlt := h.card_cells_lt room
  obtain hsame | hmore := happlies.card_cells_step <;> omega

/-- Without room at the start no step goes on. -/
theorem Continues.eq_zero_of_full (h : m.Continues x n)
    (full : m.maxTapeLength.toNat ≤ x.tape.cells.card) : n = 0 := by
  cases n with
  | zero => rfl
  | succ n =>
    have hbelow := h.belowLimits.1
    have hgrow : x.tape.size ≤ (m.after x (n + 1)).tape.size := size_after_mono (Nat.zero_le _)
    rw [Tape.card_cells] at full
    omega

/-- Without room at the start a run fails, unless it has nothing to do. -/
theorem exists_error_of_full (full : m.maxTapeLength.toNat ≤ tape.cells.card)
    (running : m.startState ≠ m.terminalState) : ∃ e, Yields (m.exec false c tape) (.error e) := by
  cases hr : (m.step (m.start c tape)).result with
  | error e => exact ⟨e, exec_error_iff.2 ⟨0, continues_zero, hr⟩⟩
  | ok p =>
    cases p with
    | halted => exact absurd (result_eq_halted_iff.1 hr) running
    | moved =>
      have hone : m.Continues (m.start c tape) 1 := continues_succ.2 ⟨hr, continues_zero⟩
      exact absurd (hone.eq_zero_of_full full) Nat.one_ne_zero

/-- Applied steps that fill the tape before they come past the step limit make the run fail with the
tape limit. -/
theorem AppliesAll.exec_tapeOver (h : m.AppliesAll (m.start c tape) (n + 1))
    (full : m.maxTapeLength.toNat ≤ (m.after (m.start c tape) (n + 1)).tape.size)
    (time : m.maxSteps = 0 ∨ n < m.maxSteps.toNat) :
    ∃ cells carriage, Yields (m.exec false c tape) (.error (.tapeOver cells carriage)) := by
  classical
  have hfull : ∃ k, m.maxTapeLength.toNat ≤ (m.after (m.start c tape) (k + 1)).tape.size :=
    ⟨n, full⟩
  have hle : Nat.find hfull ≤ n := Nat.find_min' hfull full
  -- the run goes on up to the first step that fills the tape
  have hgo : m.Continues (m.start c tape) (Nat.find hfull) := by
    refine continues_iff.2 ⟨h.mono (by omega), fun k hk => ⟨not_le.1 (Nat.find_min hfull hk), ?_⟩⟩
    rw [AppliesAll.steps_after_start (h.mono (by omega))]
    exact time.imp_right fun hn => by omega
  have happlies : m.Applies (m.after (m.start c tape) (Nat.find hfull)) := h _ (by omega)
  refine ⟨_, _, exec_error_iff.2 ⟨_, hgo, result_eq_tapeOver_iff.2 ⟨happlies, ?_, rfl, rfl⟩⟩⟩
  rw [Tape.card_cells, ← after_succ']
  exact Nat.find_spec hfull

/-- A run over a passage that leaves the tape full fails with the tape limit, if the tape is full
from the start or there are steps enough for the passage. -/
theorem Leads.exec_tapeOver {w : View} (h : m.Leads (m.start c tape).view w (n + 1))
    (full : ∀ t : Tape, (∀ i, t[i]? = w.content i) → m.maxTapeLength.toNat ≤ t.size)
    (time : m.maxTapeLength.toNat ≤ tape.size ∨ m.maxSteps = 0 ∨ n < m.maxSteps.toNat) :
    ∃ cells carriage, Yields (m.exec false c tape) (.error (.tapeOver cells carriage)) := by
  obtain ⟨hall, hview⟩ := h _ rfl
  rcases time with crowded | time
  -- the first step is enough
  · have hone : m.AppliesAll (m.start c tape) (0 + 1) := hall.mono (by omega)
    have hgrow : (m.start c tape).tape.size ≤ (m.after (m.start c tape) (0 + 1)).tape.size :=
      size_after_mono (Nat.zero_le _)
    refine hone.exec_tapeOver (crowded.trans hgrow) ?_
    rcases eq_or_ne m.maxSteps 0 with unlimited | limited
    · exact .inl unlimited
    · exact .inr (UInt64.lt_iff_toNat_lt.1 (UInt64.pos_iff_ne_zero.2 limited))
  · exact hall.exec_tapeOver (full _ (congrFun (View.mk.inj hview).2.2)) time

/-- With a step limit a run ends, after no more applied steps than the limit allows. -/
theorem exists_ending_of_limited (limited : 0 < m.maxSteps) :
    ∃ n r, m.Continues (m.start c tape) n ∧ m.EndsWith (m.after (m.start c tape) n) r ∧
      (m.after (m.start c tape) (n + 1)).steps ≤ m.maxSteps.toNat := by
  have hstop : ¬m.Continues (m.start c tape) m.maxSteps.toNat :=
    fun h => absurd (h.lt_maxSteps limited) (lt_irrefl _)
  obtain ⟨k, hk⟩ := not_forall.1 hstop
  obtain ⟨r, hr⟩ := exists_yields_iff.2 ⟨k, fun h => hk fun _ => h⟩
  obtain ⟨n, hc, he⟩ := yields_run_iff.1 hr
  exact ⟨n, r, hc, he, (steps_after_start_le (n + 1)).trans (hc.lt_maxSteps limited)⟩

/-! ## The account of a run -/

/-- What a fresh run uses up. Wherever it has come to, it is where `k` applied steps have led it.
It has then taken `k` steps, the occupied cells are those of the input and those the carriage has
stood on, all other cells are as they were, and the carriage is at most `k` cells from its start.

So the step limit is reported with the steps it allows, and a run that has one ends within them. The
tape limit is reported with the cells it allows; if the input occupied as many from the start, the
first applied step reports it, with the cells of the input or one more, and the run fails unless it
starts in the terminal state. -/
theorem account_of_run (m : Machine) (c : Int64) (tape : Tape) :
    let x := m.start c tape
    (∀ n, ∃ k ≤ n, m.AppliesAll x k ∧ m.after x n = m.after x k) ∧
    (∀ k, m.AppliesAll x k →
      (m.after x k).steps = k ∧
      (m.after x k).tape.cells = tape.cells ∪ m.visited x k ∧
      (∀ i ∉ m.visited x k, (m.after x k).tape[i]? = tape[i]?) ∧
      ((m.after x k).carriage.toInt - c.toInt).natAbs ≤ k) ∧
    (∀ steps, Yields (m.exec false c tape) (.error (.stepsExceeded steps)) →
      steps = m.maxSteps.toNat) ∧
    (0 < m.maxSteps → ∃ n r, Yields (m.exec false c tape) r ∧ m.Continues x n ∧
      m.EndsWith (m.after x n) r ∧ (m.after x (n + 1)).steps ≤ m.maxSteps.toNat) ∧
    (∀ cells carriage, Yields (m.exec false c tape) (.error (.tapeOver cells carriage)) →
      (tape.cells.card < m.maxTapeLength.toNat → cells = m.maxTapeLength.toNat) ∧
      (m.maxTapeLength.toNat ≤ tape.cells.card →
        m.Applies x ∧ (m.step x).result = .error (.tapeOver cells carriage) ∧
          (cells = tape.cells.card ∨ cells = tape.cells.card + 1))) ∧
    (m.maxTapeLength.toNat ≤ tape.cells.card →
      (m.startState ≠ m.terminalState → ∃ e, Yields (m.exec false c tape) (.error e)) ∧
      (m.startState = m.terminalState → Yields (m.exec false c tape) (.ok tape))) := by
  intro x
  refine ⟨exists_appliesAll, fun k hall => ?_, fun steps h => ?_, fun limited => ?_,
    fun cells carriage h => ?_, fun full => ⟨exists_error_of_full full, fun hs => ?_⟩⟩
  · have hvisited : m.visited x k = m.written x k := hall.written_eq.symm
    rw [hvisited]
    exact ⟨hall.steps_after_start, cells_after k, fun i => getElem?_after,
      natAbs_carriage_after_le k⟩
  · obtain ⟨n, hc, hr⟩ := exec_error_iff.1 h
    exact hc.steps_of_stepsExceeded hr
  · obtain ⟨n, r, hc, he, hsteps⟩ := exists_ending_of_limited limited
    exact ⟨n, r, yields_run_iff.2 ⟨n, hc, he⟩, hc, he, hsteps⟩
  · obtain ⟨n, hc, hr⟩ := exec_error_iff.1 h
    refine ⟨fun room => hc.cells_of_tapeOver room hr, fun full => ?_⟩
    obtain rfl := hc.eq_zero_of_full full
    obtain ⟨happlies, -, rfl, -⟩ := result_eq_tapeOver_iff.1 hr
    exact ⟨happlies, hr, happlies.card_cells_step⟩
  · exact exec_ok_iff.2 ⟨0, continues_zero, hs, rfl⟩

end Machine

end TapeMachine
