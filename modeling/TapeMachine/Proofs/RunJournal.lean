import TapeMachine.Proofs.Accounting

/-!
# The journal of a run

Every transition that a fresh run applies leaves a line with the number of the step, what was read
and written, and where the machine and its carriage have come to (`stepLine`); the lines of `n`
applied steps, in order, are what `Machine.Transcribes` describes. A step that stands still leaves
nothing (`Machine.events_eq_nil_iff`).

A run ends after some number of applied steps (`Machine.EndsAfter`). A step that comes to a limit is
one of them, since its transition has been applied; a step that stands still is not. If the run
halts or is cancelled, a last line tells after how many steps (`closingLines`). The journal of the
run holds these lines and nothing else, which is `Machine.journal_transcribes_run`.
-/

namespace TapeMachine

open Text (quotedSymbol)

/-! ## Lines -/

/-- An event as it is shown: its level and its text. -/
def Event.line (e : Event) : Level × String :=
  (e.level, e.message)

namespace Journal

/-- The events of a journal as they are shown, oldest first. -/
def lines (j : Journal) : List (Level × String) :=
  j.events.toList.map Event.line

/-- The journal keeps lines of this level. -/
def keeps (j : Journal) (line : Level × String) : Bool :=
  line.1.rank ≤ j.threshold.rank

/-- A journal gains the lines of the events it is given, as far as it keeps their level. -/
theorem lines_recordAll (j : Journal) (es : List Event) :
    (j.recordAll es).lines = j.lines ++ (es.map Event.line).filter j.keeps := by
  rw [lines, events_recordAll, List.map_append, List.filter_map]
  rfl

end Journal

/-- The line of step `number`, which leads from `x` to `y` by the transition `t`. -/
def stepLine (number : Nat) (x : Configuration) (t : Transition) (y : Configuration) :
    Level × String :=
  (.trace, "step " ++ toString number ++ ": read " ++ quotedSymbol x.read ++ ", wrote " ++
    quotedSymbol t.write ++ ", moved " ++ t.direction.name ++ ", now " ++ y.state ++ " at " ++
    toString y.carriage.toInt)

/-- What follows the lines of the steps when a run ends after `n` of them. -/
def closingLines (n : Nat) : Except Error Tape → List (Level × String)
  | .ok _ => [(.debug, "Machine halted after " ++ toString n ++ " steps")]
  | .error .cancelled => [(.debug, "Run cancelled after " ++ toString n ++ " steps")]
  | .error _ => []

namespace Machine

variable {m : Machine} {x : Configuration} {c : Int64} {tape : Tape} {n : Nat}

/-! ## Steps -/

/-- An error that a step reports has no closing line, since no step reports that it is cancelled. -/
theorem closingLines_of_result {e : Error} (h : (m.step x).result = .error e) (n : Nat) :
    closingLines n (.error e) = [] := by
  have hkinds : StandsStill (.error e) ∨ MovesOn (.error e) := by
    rw [← h, standsStill_iff, movesOn_iff]
    exact (em (m.Applies x)).symm
  rcases hkinds with still | moves
  · cases still <;> rfl
  · cases moves <;> rfl

/-- A step leaves an event exactly if it does something. -/
theorem events_eq_nil_iff : (m.step x).events = [] ↔ StandsStill (m.step x).result := by
  rw [standsStill_iff]
  cases ha : m.action x with
  | halt => simp [step_of_halt ha, Applies, ha]
  | fail e => simp [step_of_fail ha, Applies, ha]
  | apply t cell => simp [step_of_apply ha, Applies, ha]

/-- The lines are those of the first `n` steps of a fresh run from `x`, all of them applied. The
step made after `k` others carries out the program's transition for the state and the symbol read;
its line stands at place `k` and numbers it `k + 1`. -/
structure Transcribes (m : Machine) (x : Configuration) (lines : List (Level × String)) (n : Nat) :
    Prop where
  length : lines.length = n
  step : ∀ k < n, ∃ t,
    m.program.get? (m.after x k).state (m.after x k).read = some t ∧
      (m.after x k).Performs t (m.after x (k + 1)) ∧
      lines[k]? = some (stepLine (k + 1) (m.after x k) t (m.after x (k + 1)))

theorem transcribes_nil : m.Transcribes x [] 0 :=
  ⟨rfl, fun k hk => absurd hk (Nat.not_lt_zero k)⟩

/-- The line of one step more. -/
theorem Transcribes.concat {lines : List (Level × String)} {t : Transition}
    (h : m.Transcribes x lines n)
    (rule : m.program.get? (m.after x n).state (m.after x n).read = some t)
    (performs : (m.after x n).Performs t (m.after x (n + 1))) :
    m.Transcribes x (lines ++ [stepLine (n + 1) (m.after x n) t (m.after x (n + 1))]) (n + 1) := by
  refine ⟨by simp [h.length], fun k hk => ?_⟩
  rcases Nat.lt_succ_iff_lt_or_eq.1 hk with hlt | rfl
  · obtain ⟨s, hrule, hperforms, hline⟩ := h.step k hlt
    refine ⟨s, hrule, hperforms, ?_⟩
    rw [List.getElem?_append_left (h.length ▸ hlt), hline]
  · refine ⟨t, rule, performs, ?_⟩
    rw [← h.length, List.getElem?_concat_length]

/-- An applied step leaves its line. -/
theorem Transcribes.concat_events {es : List Event}
    (h : m.Transcribes (m.start c tape) (es.map Event.line) n)
    (hall : m.AppliesAll (m.start c tape) (n + 1)) :
    m.Transcribes (m.start c tape)
      ((es ++ (m.step (m.after (m.start c tape) n)).events).map Event.line) (n + 1) := by
  obtain ⟨t, cell, ha⟩ := hall n (Nat.lt_succ_self n)
  have hperforms := performs_of_apply ha
  rw [← after_succ'] at hperforms
  have hline : (m.step (m.after (m.start c tape) n)).events.map Event.line =
      [stepLine (n + 1) (m.after (m.start c tape) n) t (m.after (m.start c tape) (n + 1))] := by
    have hsteps : (m.after (m.start c tape) n).steps = n :=
      (hall.mono (Nat.le_succ n)).steps_after_start
    rw [after_succ', step_of_apply ha, List.map_singleton, Configuration.record, hsteps]
    rfl
  rw [List.map_append, hline]
  exact h.concat (rule_of_apply ha) hperforms

/-! ## Runs -/

/-- As long as a run goes on, the journal gains the lines of its steps. -/
theorem Continues.exists_events : ∀ {n}, m.Continues (m.start c tape) n → ∃ es,
    m.Transcribes (m.start c tape) (es.map Event.line) n ∧ ∀ fuel j,
      m.run false (n + fuel) (m.start c tape) j =
        m.run false fuel (m.after (m.start c tape) n) (j.recordAll es)
  | 0, _ => ⟨[], transcribes_nil, fun fuel j => by rw [Nat.zero_add]; rfl⟩
  | n + 1, h => by
    obtain ⟨hgo, hmoved⟩ := continues_succ'.1 h
    obtain ⟨es, hlines, hrun⟩ := Continues.exists_events hgo
    refine ⟨_, hlines.concat_events h.appliesAll, fun fuel j => ?_⟩
    rw [Nat.add_assoc, Nat.add_comm 1, hrun, run_false_succ, hmoved, after_succ',
      Journal.recordAll_append]

/-- The run from `x` ends with `r` after `n` applied steps: at once if it is cancelled, with a step
that stands still, or with an applied step that comes to a limit. -/
inductive EndsAfter (m : Machine) (x : Configuration) : Bool → Nat → Except Error Tape → Prop
  | cancelled : EndsAfter m x true 0 (.error .cancelled)
  | halts {n : Nat} (goesOn : m.Continues x n) (terminal : (m.after x n).state = m.terminalState) :
      EndsAfter m x false n (.ok (m.after x n).tape)
  | fails {n : Nat} {e : Error} (goesOn : m.Continues x n)
      (result : (m.step (m.after x n)).result = .error e) (still : StandsStill (.error e)) :
      EndsAfter m x false n (.error e)
  | stops {n : Nat} {e : Error} (goesOn : m.Continues x n)
      (result : (m.step (m.after x n)).result = .error e) (moves : MovesOn (.error e)) :
      EndsAfter m x false (n + 1) (.error e)

/-- The step that ends a run is one of the applied ones if it comes to a limit, and else it stands
still. -/
theorem Continues.exists_endsAfter {r : Except Error Tape} (hgo : m.Continues x n)
    (hend : m.EndsWith (m.after x n) r) : ∃ k, m.EndsAfter x false k r := by
  rw [EndsWith] at hend
  cases hr : (m.step (m.after x n)).result with
  | error e =>
    rw [hr] at hend
    obtain rfl : r = .error e := hend
    by_cases happlies : m.Applies (m.after x n)
    · exact ⟨n + 1, .stops hgo hr (hr ▸ happlies.movesOn)⟩
    · exact ⟨n, .fails hgo hr (hr ▸ standsStill_of_not_applies happlies)⟩
  | ok p =>
    cases p with
    | moved =>
      rw [hr] at hend
      exact hend.elim
    | halted =>
      have terminal := result_eq_halted_iff.1 hr
      rw [hr, step_of_halt (action_eq_halt_iff.2 terminal)] at hend
      obtain rfl : r = .ok (m.after x n).tape := hend
      exact ⟨n, .halts hgo terminal⟩

/-- Every run that ends does so after some number of applied steps. -/
theorem exists_endsAfter {cancelled : Bool} {fuel : Nat} {r : Except Error Tape} {j j' : Journal}
    (h : m.run cancelled fuel x j = some (r, j')) : ∃ n, m.EndsAfter x cancelled n r := by
  cases cancelled with
  | true =>
    cases fuel with
    | zero => simp [run] at h
    | succ fuel =>
      simp only [run, if_true, Option.some.injEq, Prod.mk.injEq] at h
      exact ⟨0, h.1 ▸ .cancelled⟩
  | false =>
    obtain ⟨n, hgo, hend⟩ := exists_of_run_eq_some h
    exact hgo.exists_endsAfter hend

/-- A run that ends gives the lines of its applied steps and the closing ones to the journal. -/
theorem EndsAfter.exists_run {cancelled : Bool} {r : Except Error Tape}
    (h : m.EndsAfter (m.start c tape) cancelled n r) : ∃ es closing,
      m.Transcribes (m.start c tape) (es.map Event.line) n ∧
        closing.map Event.line = closingLines n r ∧
        ∃ fuel, ∀ j, m.exec cancelled c tape fuel j =
          some (r, j.recordAll (es ++ closing)) := by
  cases h with
  | cancelled => exact ⟨[], [.runCancelled 0], transcribes_nil, rfl, 1, fun j => rfl⟩
  | halts hgo terminal =>
    obtain ⟨es, hlines, hrun⟩ := hgo.exists_events
    refine ⟨es, [.runHalted n], hlines, rfl, n + 1, fun j => ?_⟩
    have hsteps : (m.after (m.start c tape) n).steps = n := hgo.appliesAll.steps_after_start
    rw [exec, hrun, run_false_succ, step_of_halt (action_eq_halt_iff.2 terminal), hsteps,
      Journal.recordAll_append]
    rfl
  | fails hgo result still =>
    obtain ⟨es, hlines, hrun⟩ := hgo.exists_events
    refine ⟨es, [], hlines, (closingLines_of_result result n).symm, n + 1, fun j => ?_⟩
    rw [exec, hrun, run_false_succ, result, events_eq_nil_iff.2 (result ▸ still), List.append_nil]
    rfl
  | @stops k e hgo result moves =>
    obtain ⟨es, hlines, hrun⟩ := hgo.exists_events
    have happlies : m.Applies (m.after (m.start c tape) k) := movesOn_iff.1 (result ▸ moves)
    -- the step that comes to the limit has left its line before the limit is looked at
    refine ⟨_, [], hlines.concat_events (appliesAll_of_applies happlies),
      (closingLines_of_result result (k + 1)).symm, k + 1, fun j => ?_⟩
    rw [exec, hrun, run_false_succ, result, List.append_nil, Journal.recordAll_append]

/-- The journal of a fresh run tells what the run did. A run returns exactly what it ends with after
some number of applied steps. Its journal has then gained a line for each of these steps, in order,
and after them the closing line of a run that has halted or is cancelled; other errors have none. As
long as a run goes on, whether it ever ends or not, its journal has gained the lines of the steps
made so far. A step leaves nothing exactly if it stands still. -/
theorem journal_transcribes_run (m : Machine) (c : Int64) (tape : Tape) (j : Journal) :
    let x := m.start c tape
    (∀ cancelled r, Yields (m.exec cancelled c tape) r ↔ ∃ n, m.EndsAfter x cancelled n r) ∧
    (∀ cancelled fuel r j', m.exec cancelled c tape fuel j = some (r, j') →
      ∃ n lines, m.EndsAfter x cancelled n r ∧ m.Transcribes x lines n ∧
        j'.lines = j.lines ++ (lines ++ closingLines n r).filter j.keeps) ∧
    (∀ n, m.Continues x n → ∃ lines j', m.Transcribes x lines n ∧
      j'.lines = j.lines ++ lines.filter j.keeps ∧
      ∀ fuel, m.exec false c tape (n + fuel) j = m.run false fuel (m.after x n) j') ∧
    (∀ y, (m.step y).events = [] ↔ StandsStill (m.step y).result) := by
  intro x
  refine ⟨fun cancelled r => ⟨?_, ?_⟩, fun cancelled fuel r j' h => ?_, fun n hgo => ?_,
    fun y => events_eq_nil_iff⟩
  · rintro ⟨fuel, h⟩
    obtain ⟨j', hj'⟩ := h j
    exact exists_endsAfter hj'
  · rintro ⟨n, hend⟩
    obtain ⟨es, closing, -, -, fuel, hrun⟩ := hend.exists_run
    exact ⟨fuel, fun j => ⟨_, hrun j⟩⟩
  · obtain ⟨n, hend⟩ := exists_endsAfter h
    obtain ⟨es, closing, hlines, hclosing, fuel', hrun⟩ := hend.exists_run
    -- both amounts of fuel suffice, so they give the same journal
    have hmore : m.exec cancelled c tape (fuel + fuel') j = some (r, j') := run_mono h fuel'
    have hmore' : m.exec cancelled c tape (fuel' + fuel) j = _ := run_mono (hrun j) fuel
    rw [Nat.add_comm, hmore', Option.some.injEq, Prod.mk.injEq] at hmore
    refine ⟨n, es.map Event.line, hend, hlines, ?_⟩
    rw [← hmore.2, Journal.lines_recordAll, List.map_append, hclosing]
  · obtain ⟨es, hlines, hrun⟩ := hgo.exists_events
    exact ⟨_, _, hlines, Journal.lines_recordAll j es, fun fuel => hrun fuel j⟩

end Machine

end TapeMachine
