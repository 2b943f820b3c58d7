import TapeMachine.Machine.Step

/-!
# Runs

A run makes steps until the machine halts, a step reports an error, or somebody asks it to stop;
the wish to stop is looked at before every step. `Machine.run` counts down the steps it may
still make and gives nothing if they do not suffice; any number that suffices gives the same
answer.
-/

namespace TapeMachine.Machine

/-- Runs from a configuration for at most `fuel` steps. Gives the tape on which the machine
halts, or the error that ends the run, together with the journal; `none` if the run has not
ended. -/
def run (m : Machine) (cancelled : Bool) :
    Nat → Configuration → Journal → Option (Except Error Tape × Journal)
  | 0, _, _ => none
  | fuel + 1, x, j =>
    if cancelled then some (.error .cancelled, j.record (.runCancelled x.steps))
    else
      let s := m.step x
      match s.result with
      | .ok .moved => m.run cancelled fuel s.after (j.recordAll s.events)
      | .ok .halted => some (.ok s.after.tape, (j.recordAll s.events).record (.runHalted x.steps))
      | .error e => some (.error e, j.recordAll s.events)

/-- Runs on a fresh copy of a tape. -/
def exec (m : Machine) (cancelled : Bool) (carriage : Int64) (tape : Tape) (fuel : Nat) :
    Journal → Option (Except Error Tape × Journal) :=
  m.run cancelled fuel (m.start carriage tape)

/-- More fuel does not change the answer of a run that has ended. -/
theorem run_mono {m : Machine} {cancelled : Bool} {fuel : Nat} {x : Configuration} {j : Journal}
    {r : Except Error Tape × Journal} (h : m.run cancelled fuel x j = some r) (extra : Nat) :
    m.run cancelled (fuel + extra) x j = some r := by
  induction fuel generalizing x j with
  | zero => simp [run] at h
  | succ fuel ih =>
    rw [Nat.add_right_comm]
    unfold run at h ⊢
    split
    · simpa [*] using h
    · rename_i hc
      rw [if_neg hc] at h
      cases hr : (m.step x).result with
      | error e => simpa [hr] using h
      | ok p =>
        cases p with
        | moved =>
          simp only [hr] at h ⊢
          exact ih h
        | halted => simpa [hr] using h

end TapeMachine.Machine
