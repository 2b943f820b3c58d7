import Mathlib.Data.Nat.Find
import TapeMachine.Machine.Run
import TapeMachine.Proofs.Course

/-!
# What a run returns

`Machine.run` is given a number of steps it may make. `Yields` forgets that number: a run yields
`r` if it ends with `r` once it may make enough steps, whatever is in the journal.

An uncancelled run yields what the first step reports that does not let it go on: the tape if that
step finds the terminal state (`Machine.yields_ok_iff`), an error if it reports one
(`Machine.yields_error_iff`).
-/

namespace TapeMachine

/-- The work ends with `r` if it may make enough steps, whatever is in the journal. -/
def Yields (work : Nat → Journal → Option (Except Error Tape × Journal))
    (r : Except Error Tape) : Prop :=
  ∃ fuel, ∀ j, ∃ j', work fuel j = some (r, j')

namespace Machine

variable {m : Machine} {x : Configuration}

variable (m x) in
/-- Each of the first `n` steps reports that the run may go on. -/
def Continues (n : Nat) : Prop :=
  ∀ k < n, (m.step (m.after x k)).result = .ok .moved

variable (m x) in
/-- The next step ends the run with `r`. -/
def EndsWith (r : Except Error Tape) : Prop :=
  match (m.step x).result with
  | .ok .moved => False
  | .ok .halted => r = .ok (m.step x).after.tape
  | .error e => r = .error e

theorem continues_zero : m.Continues x 0 :=
  fun k hk => absurd hk (Nat.not_lt_zero k)

theorem continues_succ {n : Nat} :
    m.Continues x (n + 1) ↔
      (m.step x).result = .ok .moved ∧ m.Continues (m.step x).after n := by
  constructor
  · intro h
    exact ⟨h 0 (Nat.succ_pos n), fun k hk => h (k + 1) (by omega)⟩
  · rintro ⟨h0, h⟩ k hk
    cases k with
    | zero => exact h0
    | succ k => exact h k (by omega)

/-- A run goes on for one step more if it goes on so far and the last step goes on. -/
theorem continues_succ' {n : Nat} :
    m.Continues x (n + 1) ↔
      m.Continues x n ∧ (m.step (m.after x n)).result = .ok .moved :=
  Nat.forall_lt_succ_right

theorem Continues.mono {k n : Nat} (h : m.Continues x n) (hk : k ≤ n) : m.Continues x k :=
  fun i hi => h i (by omega)

/-- The run may go on as long as transitions are applied and no limit is reached. -/
theorem continues_iff {n : Nat} :
    m.Continues x n ↔ m.AppliesAll x n ∧ ∀ k < n, m.BelowLimits (m.after x (k + 1)) := by
  simp only [Continues, AppliesAll, result_eq_moved_iff, after_succ', ← forall_and]

theorem Continues.appliesAll {n : Nat} (h : m.Continues x n) : m.AppliesAll x n :=
  (continues_iff.1 h).1

theorem run_false_succ (fuel : Nat) (j : Journal) :
    m.run false (fuel + 1) x j =
      match (m.step x).result with
      | .ok .moved => m.run false fuel (m.step x).after (j.recordAll (m.step x).events)
      | .ok .halted => some (.ok (m.step x).after.tape,
          (j.recordAll (m.step x).events).record (.runHalted x.steps))
      | .error e => some (.error e, j.recordAll (m.step x).events) :=
  rfl

theorem exists_of_run_eq_some {r : Except Error Tape} {j' : Journal} :
    ∀ {fuel : Nat} {x : Configuration} {j : Journal}, m.run false fuel x j = some (r, j') →
      ∃ n, m.Continues x n ∧ m.EndsWith (m.after x n) r
  | 0, _, _, h => by simp [run] at h
  | fuel + 1, x, j, h => by
    rw [run_false_succ] at h
    cases hr : (m.step x).result with
    | error e =>
      simp only [hr, Option.some.injEq, Prod.mk.injEq] at h
      exact ⟨0, continues_zero, by simp [EndsWith, hr, h.1]⟩
    | ok p =>
      cases p with
      | moved =>
        rw [hr] at h
        obtain ⟨n, hc, he⟩ := exists_of_run_eq_some h
        exact ⟨n + 1, continues_succ.2 ⟨hr, hc⟩, he⟩
      | halted =>
        simp only [hr, Option.some.injEq, Prod.mk.injEq] at h
        exact ⟨0, continues_zero, by simp [EndsWith, hr, h.1]⟩

theorem run_of_endsWith {r : Except Error Tape} :
    ∀ {n : Nat} {x : Configuration}, m.Continues x n → m.EndsWith (m.after x n) r →
      ∀ j, ∃ j', m.run false (n + 1) x j = some (r, j')
  | 0, x, _, he, j => by
    rw [run_false_succ]
    rw [after_zero, EndsWith] at he
    split at he
    next => exact he.elim
    next hr => exact ⟨_, by rw [he]⟩
    next hr => exact ⟨_, by rw [he]⟩
  | n + 1, x, hc, he, j => by
    obtain ⟨hr, hc⟩ := continues_succ.1 hc
    obtain ⟨j', h⟩ := run_of_endsWith hc he (j.recordAll (m.step x).events)
    exact ⟨j', by rw [run_false_succ, hr, h]⟩

/-- An uncancelled run yields what the first step reports that does not let it go on. -/
theorem yields_run_iff {r : Except Error Tape} :
    Yields (fun fuel => m.run false fuel x) r ↔
      ∃ n, m.Continues x n ∧ m.EndsWith (m.after x n) r := by
  constructor
  · rintro ⟨fuel, h⟩
    obtain ⟨j', h⟩ := h ⟨.error, #[]⟩
    exact exists_of_run_eq_some h
  · rintro ⟨n, hc, he⟩
    exact ⟨n + 1, run_of_endsWith hc he⟩

theorem yields_ok_iff {t : Tape} :
    Yields (fun fuel => m.run false fuel x) (.ok t) ↔
      ∃ n, m.Continues x n ∧ (m.after x n).state = m.terminalState ∧ (m.after x n).tape = t := by
  rw [yields_run_iff]
  refine exists_congr fun n => and_congr_right fun _ => ?_
  rw [← action_eq_halt_iff, EndsWith]
  cases ha : m.action (m.after x n) with
  | halt => simp [step_of_halt ha, eq_comm]
  | fail e => simp [step_of_fail ha]
  | apply t cell =>
    rw [step_of_apply ha]
    cases hr : m.reached ((m.after x n).apply t cell) with
    | error e => simp
    | ok p => simp [(reached_eq_ok_iff.1 hr).1]

theorem yields_error_iff {e : Error} :
    Yields (fun fuel => m.run false fuel x) (.error e) ↔
      ∃ n, m.Continues x n ∧ (m.step (m.after x n)).result = .error e := by
  rw [yields_run_iff]
  refine exists_congr fun n => and_congr_right fun _ => ?_
  rw [EndsWith]
  rcases (m.step (m.after x n)).result with e' | _ | _ <;> simp [eq_comm]

/-- A run ends exactly if some step does not let it go on. -/
theorem exists_yields_iff :
    (∃ r, Yields (fun fuel => m.run false fuel x) r) ↔
      ∃ n, (m.step (m.after x n)).result ≠ .ok .moved := by
  constructor
  · rintro ⟨r, hr⟩
    obtain ⟨n, -, he⟩ := yields_run_iff.1 hr
    refine ⟨n, fun hmoved => ?_⟩
    rw [EndsWith, hmoved] at he
    exact he
  · intro h
    classical
    have hc : m.Continues x (Nat.find h) := fun k hk => not_not.1 (Nat.find_min h hk)
    have hn := Nat.find_spec h
    cases hr : (m.step (m.after x (Nat.find h))).result with
    | error e => exact ⟨.error e, yields_run_iff.2 ⟨_, hc, by rw [EndsWith, hr]⟩⟩
    | ok p =>
      cases p with
      | moved => exact absurd hr hn
      | halted => exact ⟨_, yields_run_iff.2 ⟨_, hc, by rw [EndsWith, hr]⟩⟩

variable {c : Int64} {tape : Tape}

theorem exec_ok_iff {t : Tape} :
    Yields (m.exec false c tape) (.ok t) ↔
      ∃ n, m.Continues (m.start c tape) n ∧
        (m.after (m.start c tape) n).state = m.terminalState ∧
        (m.after (m.start c tape) n).tape = t :=
  yields_ok_iff

theorem exec_error_iff {e : Error} :
    Yields (m.exec false c tape) (.error e) ↔
      ∃ n, m.Continues (m.start c tape) n ∧
        (m.step (m.after (m.start c tape) n)).result = .error e :=
  yields_error_iff

end Machine

end TapeMachine
