import Mathlib.Data.Finset.Image
import Mathlib.Data.Finset.Range
import TapeMachine.Proofs.StepSpec

/-!
# The course of a run

`Machine.after` goes on from a configuration whatever the steps report. Its steps fall into those
that apply a transition and those that change nothing, so what holds at the start and is kept by
applied transitions holds throughout (`Machine.after_induction`).

`Machine.written` is the set of cells that the first steps write. A cell outside it is as it was
(`Machine.getElem?_after`), and the occupied cells are those of the start together with it
(`Machine.cells_after`).
-/

namespace TapeMachine.Machine

variable (m : Machine) (x : Configuration)

instance : Decidable (m.Applies x) :=
  match h : m.action x with
  | .apply t cell => .isTrue ⟨t, cell, h⟩
  | .halt => .isFalse fun ⟨_, _, h'⟩ => by simp [h] at h'
  | .fail _ => .isFalse fun ⟨_, _, h'⟩ => by simp [h] at h'

variable {m x}

theorem after_add (k : Nat) : ∀ n, m.after x (k + n) = m.after (m.after x k) n
  | 0 => rfl
  | n + 1 => by rw [← Nat.add_assoc, after_succ', after_succ', after_add k n]

/-- What holds at the start and is kept by applied transitions holds throughout. -/
theorem after_induction {P : Configuration → Prop} (start : P x)
    (apply : ∀ y t cell, P y → m.action y = .apply t cell → P (y.apply t cell)) :
    ∀ n, P (m.after x n)
  | 0 => start
  | n + 1 => by
    rw [after_succ']
    by_cases h : m.Applies (m.after x n)
    · obtain ⟨t, cell, h⟩ := h
      rw [step_of_apply h]
      exact apply _ t cell (after_induction start apply n) h
    · rw [after_step_of_not_applies h]
      exact after_induction start apply n

/-- What two courses have in common at the start and steps keep, they have throughout. -/
theorem after_lockstep {m m' : Machine} {R : Configuration → Configuration → Prop}
    {x y : Configuration} (start : R x y)
    (step : ∀ x y, R x y → R (m.step x).after (m'.step y).after) :
    ∀ n, R (m.after x n) (m'.after y n)
  | 0 => start
  | n + 1 => by
    rw [after_succ', after_succ']
    exact step _ _ (after_lockstep start step n)

/-- A configuration in which no transition is applied lasts. -/
theorem after_of_not_applies (h : ¬m.Applies x) : ∀ n, m.after x n = x
  | 0 => rfl
  | n + 1 => by rw [after_succ', after_of_not_applies h n, after_step_of_not_applies h]

/-! ## The cells that are written -/

variable (m x) in
/-- The cells that the first `n` steps write. -/
def written (n : Nat) : Finset Int :=
  ((Finset.range n).filter fun k => m.Applies (m.after x k)).image
    fun k => (m.after x k).carriage.toInt

theorem mem_written {n : Nat} {i : Int} :
    i ∈ m.written x n ↔
      ∃ k < n, m.Applies (m.after x k) ∧ (m.after x k).carriage.toInt = i := by
  simp [written, and_assoc]

@[simp] theorem written_zero : m.written x 0 = ∅ :=
  rfl

theorem written_succ_of_applies {n : Nat} (h : m.Applies (m.after x n)) :
    m.written x (n + 1) = insert (m.after x n).carriage.toInt (m.written x n) := by
  rw [written, Finset.range_add_one, Finset.filter_insert, if_pos h, Finset.image_insert, written]

theorem written_succ_of_not_applies {n : Nat} (h : ¬m.Applies (m.after x n)) :
    m.written x (n + 1) = m.written x n := by
  rw [written, Finset.range_add_one, Finset.filter_insert, if_neg h, written]

theorem written_mono {k n : Nat} (h : k ≤ n) : m.written x k ⊆ m.written x n :=
  Finset.image_subset_image (Finset.filter_subset_filter _ (Finset.range_mono h))

/-- A cell that is not written is as it was. -/
theorem getElem?_after {i : Int} :
    ∀ {n : Nat}, i ∉ m.written x n → (m.after x n).tape[i]? = x.tape[i]?
  | 0, _ => rfl
  | n + 1, hi => by
    rw [after_succ']
    by_cases h : m.Applies (m.after x n)
    · rw [written_succ_of_applies h, Finset.mem_insert, not_or] at hi
      obtain ⟨t, cell, h⟩ := h
      rw [step_of_apply h, Configuration.apply, Std.ExtTreeMap.getElem?_insert,
        if_neg (by simpa using Ne.symm hi.1), getElem?_after hi.2]
    · rw [written_succ_of_not_applies h] at hi
      rw [after_step_of_not_applies h, getElem?_after hi]

/-- The occupied cells are those of the start and the written ones. -/
theorem cells_after : ∀ n, (m.after x n).tape.cells = x.tape.cells ∪ m.written x n
  | 0 => by simp
  | n + 1 => by
    rw [after_succ']
    by_cases h : m.Applies (m.after x n)
    · rw [written_succ_of_applies h, Finset.union_insert, ← cells_after n]
      obtain ⟨t, cell, h⟩ := h
      rw [step_of_apply h, Configuration.apply, Tape.cells_insert]
    · rw [written_succ_of_not_applies h, after_step_of_not_applies h, cells_after n]

/-! ## Runs in which every step counts -/

variable (m x) in
/-- Each of the first `n` steps applies a transition. -/
def AppliesAll (n : Nat) : Prop :=
  ∀ k < n, m.Applies (m.after x k)

theorem AppliesAll.mono {k n : Nat} (h : m.AppliesAll x n) (hk : k ≤ n) : m.AppliesAll x k :=
  fun i hi => h i (by omega)

theorem AppliesAll.steps_after : ∀ {n}, m.AppliesAll x n → (m.after x n).steps = x.steps + n
  | 0, _ => rfl
  | n + 1, h => by
    obtain ⟨t, cell, ha⟩ := h n (by omega)
    rw [after_succ', step_of_apply ha, Configuration.apply,
      AppliesAll.steps_after (h.mono (Nat.le_succ n)), Nat.add_assoc]

theorem AppliesAll.written_eq {n : Nat} (h : m.AppliesAll x n) :
    m.written x n = (Finset.range n).image fun k => (m.after x k).carriage.toInt := by
  rw [written, Finset.filter_true_of_mem]
  intro k hk
  exact h k (Finset.mem_range.1 hk)

end TapeMachine.Machine
