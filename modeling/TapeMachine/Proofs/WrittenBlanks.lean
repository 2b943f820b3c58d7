import TapeMachine.Proofs.Limits

/-!
# Written blanks

A cell that holds a blank reads like one that holds nothing. Two configurations read alike if they
differ at most in which blanks were written (`Configuration.ReadsLike`). A machine does the same in
both, and its steps keep this (`ReadsLike.action_eq`, `ReadsLike.after_step`). What a step reports
is the same as well, unless the tape limit is named on one side (`ReadsLike.result_step`): the limit
counts occupied cells, and these are all that tells the configurations apart.

A step occupies the same cell on both sides, so the side with fewer occupied cells keeps fewer. A
run from there goes on at least as long (`ReadsLike.continues`), and returns a tape that reads alike
where the other returns one (`Machine.written_blanks_unseen`).
-/

namespace TapeMachine

/-- The configurations agree, and so do their tapes wherever they are read. -/
structure Configuration.ReadsLike (x y : Configuration) : Prop where
  state : y.state = x.state
  carriage : y.carriage = x.carriage
  steps : y.steps = x.steps
  read : ∀ i, y.tape.read i = x.tape.read i

namespace Machine

variable {m : Machine} {x y : Configuration}

variable (m x) in
/-- The step reports that the tape has come to its limit. -/
def ReportsTape : Prop :=
  ∃ cells carriage, (m.step x).result = .error (.tapeOver cells carriage)

theorem Applies.reportsTape (h : m.Applies x)
    (full : m.maxTapeLength.toNat ≤ (m.step x).after.tape.cells.card) : m.ReportsTape x :=
  ⟨_, _, by rw [h.result_eq, verdict, if_pos full]⟩

theorem Applies.result_of_room (h : m.Applies x)
    (room : ¬m.maxTapeLength.toNat ≤ (m.step x).after.tape.cells.card) :
    (m.step x).result =
      if 0 < m.maxSteps ∧ m.maxSteps.toNat ≤ (m.step x).after.steps then
        .error (.stepsExceeded (m.step x).after.steps)
      else .ok .moved := by
  rw [h.result_eq, verdict, if_neg room]

end Machine

namespace Configuration.ReadsLike

open Machine

variable {m : Machine} {x y : Configuration} (h : x.ReadsLike y)

include h

/-- The machine does the same in both. -/
theorem action_eq : m.action y = m.action x := by
  have hread : y.read = x.read := by
    rw [Configuration.read, Configuration.read, h.carriage, h.read]
  unfold action isHalted repeatsItself
  rw [hread, h.state, h.carriage]

theorem applies_iff : m.Applies y ↔ m.Applies x := by
  rw [Applies, Applies, h.action_eq]

theorem apply (t : Transition) (cell : Int64) : (x.apply t cell).ReadsLike (y.apply t cell) where
  state := rfl
  carriage := rfl
  steps := by rw [Configuration.apply, Configuration.apply, h.steps]
  read i := by
    simp only [Configuration.apply, h.carriage, Tape.read_insert, h.read]

/-- A step leads to configurations that read alike. -/
theorem after_step : (m.step x).after.ReadsLike (m.step y).after := by
  by_cases hx : m.Applies x
  · obtain ⟨t, cell, ha⟩ := hx
    rw [step_of_apply ha, step_of_apply (h.action_eq.trans ha)]
    exact h.apply t cell
  · rwa [after_step_of_not_applies hx, after_step_of_not_applies fun hy => hx (h.applies_iff.1 hy)]

/-- A step reports the same on both sides, unless one side reports the tape limit. -/
theorem result_step :
    (m.step y).result = (m.step x).result ∨ m.ReportsTape x ∨ m.ReportsTape y := by
  cases ha : m.action x with
  | halt =>
    rw [step_of_halt ha, step_of_halt (h.action_eq.trans ha)]
    exact .inl rfl
  | fail e =>
    rw [step_of_fail ha, step_of_fail (h.action_eq.trans ha)]
    exact .inl rfl
  | apply t cell =>
    have hx : m.Applies x := ⟨t, cell, ha⟩
    have hy : m.Applies y := h.applies_iff.2 hx
    by_cases hfull : m.maxTapeLength.toNat ≤ (m.step x).after.tape.cells.card
    · exact .inr (.inl (hx.reportsTape hfull))
    by_cases hfull' : m.maxTapeLength.toNat ≤ (m.step y).after.tape.cells.card
    · exact .inr (.inr (hy.reportsTape hfull'))
    -- with room on both sides only the number of steps is left to report
    left
    rw [hx.result_of_room hfull, hy.result_of_room hfull', h.after_step.steps]

/-! ## Fewer occupied cells -/

/-- A step keeps the occupied cells of the one among those of the other. -/
theorem cells_step (fewer : x.tape.cells ⊆ y.tape.cells) :
    (m.step x).after.tape.cells ⊆ (m.step y).after.tape.cells := by
  by_cases hx : m.Applies x
  · obtain ⟨t, cell, ha⟩ := hx
    rw [step_of_apply ha, step_of_apply (h.action_eq.trans ha), Configuration.apply,
      Configuration.apply, h.carriage, Tape.cells_insert, Tape.cells_insert]
    exact Finset.insert_subset_insert _ fewer
  · rwa [after_step_of_not_applies hx, after_step_of_not_applies fun hy => hx (h.applies_iff.1 hy)]

/-- Below both limits with more occupied cells is below both limits with fewer. -/
theorem belowLimits (fewer : x.tape.cells ⊆ y.tape.cells) (hy : m.BelowLimits y) :
    m.BelowLimits x := by
  obtain ⟨htape, hsteps⟩ := hy
  rw [h.steps] at hsteps
  refine ⟨lt_of_le_of_lt ?_ htape, hsteps⟩
  rw [← Tape.card_cells, ← Tape.card_cells]
  exact Finset.card_le_card fewer

theorem after (n : Nat) : (m.after x n).ReadsLike (m.after y n) :=
  after_lockstep h (fun _ _ hxy => hxy.after_step) n

theorem cells_after (fewer : x.tape.cells ⊆ y.tape.cells) (n : Nat) :
    (m.after x n).tape.cells ⊆ (m.after y n).tape.cells := by
  have hboth : (m.after x n).ReadsLike (m.after y n) ∧
      (m.after x n).tape.cells ⊆ (m.after y n).tape.cells :=
    after_lockstep (R := fun x y => x.ReadsLike y ∧ x.tape.cells ⊆ y.tape.cells) ⟨h, fewer⟩
      (fun _ _ hxy => ⟨hxy.1.after_step, hxy.1.cells_step hxy.2⟩) n
  exact hboth.2

/-- With fewer occupied cells a run goes on at least as long. -/
theorem continues (fewer : x.tape.cells ⊆ y.tape.cells) {n : Nat} (hc : m.Continues y n) :
    m.Continues x n := by
  obtain ⟨hall, hbelow⟩ := continues_iff.1 hc
  refine continues_iff.2 ⟨fun k hk => (h.after k).applies_iff.1 (hall k hk), fun k hk => ?_⟩
  exact (h.after (k + 1)).belowLimits (h.cells_after fewer (k + 1)) (hbelow k hk)

end Configuration.ReadsLike

namespace Machine

/-- A run cannot tell a written blank from a cell that holds nothing, except through the tape limit.
On tapes that read alike it goes through configurations that read alike, and every step reports the
same unless the tape limit is reported on one of them. If a run returns a tape, then a run on a tape
that reads like its own, with fewer occupied cells, returns one that reads alike. -/
theorem written_blanks_unseen (m : Machine) (c : Int64) {tape tape' : Tape}
    (h : ∀ i, tape'.read i = tape.read i) :
    (∀ n, (m.after (m.start c tape) n).ReadsLike (m.after (m.start c tape') n)) ∧
    (∀ n, let x := m.after (m.start c tape) n
      let x' := m.after (m.start c tape') n
      (m.step x').result = (m.step x).result ∨ m.ReportsTape x ∨ m.ReportsTape x') ∧
    (tape.cells ⊆ tape'.cells → ∀ t', Yields (m.exec false c tape') (.ok t') →
      ∃ t, Yields (m.exec false c tape) (.ok t) ∧ ∀ i, t.read i = t'.read i) := by
  have hstart : (m.start c tape).ReadsLike (m.start c tape') := ⟨rfl, rfl, rfl, h⟩
  refine ⟨hstart.after, fun n => (hstart.after n).result_step, fun fewer t' ht' => ?_⟩
  obtain ⟨n, hc, hs, rfl⟩ := exec_ok_iff.1 ht'
  have hlast := hstart.after (m := m) n
  refine ⟨_, exec_ok_iff.2 ⟨n, hstart.continues fewer hc, ?_, rfl⟩, fun i => (hlast.read i).symm⟩
  rw [← hlast.state, hs]

/-- A blank written in cell `3` makes no difference to a machine that goes back and forth between
two other cells. -/
theorem written_blanks_unseen_shuttle :
    (∀ i, Tape.read (Std.ExtTreeMap.insert ∅ 3 blank) i = Tape.read ∅ i) ∧
      ((shuttle 9 0).after ((shuttle 9 0).start 0 ∅) 2).ReadsLike
        ((shuttle 9 0).after ((shuttle 9 0).start 0 (Std.ExtTreeMap.insert ∅ 3 blank)) 2) := by
  have h : ∀ i, Tape.read (Std.ExtTreeMap.insert ∅ 3 blank) i = Tape.read ∅ i := fun i => by
    rw [Tape.read_insert]
    split_ifs <;> rfl
  exact ⟨h, (written_blanks_unseen (shuttle 9 0) 0 h).1 2⟩

end Machine

end TapeMachine
