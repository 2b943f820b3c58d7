import TapeMachine.Proofs.Increment

/-!
# Runs do not depend on where the tape lies

`Tape.shift` moves a tape by a number of cells. A configuration lies `d` cells further on than
another if the carriage and every occupied cell do, and the rest is the same
(`Configuration.Shifted`). A machine does the same in both unless a move leaves the range of cells
in one of them (`Shifted.action_cases`). So a step leads from such configurations to such
configurations, and reports the same on both up to the cell that the tape limit names
(`Shifted.after_step`, `Shifted.result_step`).

`Machine.runs_translate` carries this over to runs of any length in which the carriage does not
leave the range of cells, and to what whole runs return.
-/

namespace TapeMachine

/-! ## Tapes that are moved -/

/-- The tape with every occupied cell moved by `d`. -/
def Tape.shift (t : Tape) (d : Int) : Tape :=
  .ofList (t.toList.map fun cell => (cell.1 + d, cell.2))

namespace Tape

variable (t : Tape) (d : Int)

theorem pairwise_ne_shifted :
    (t.toList.map fun cell => (cell.1 + d, cell.2)).Pairwise fun a b => ¬compare a.1 b.1 = .eq := by
  rw [List.pairwise_map]
  refine Std.ExtTreeMap.distinct_keys_toList.imp fun hne heq => hne ?_
  rw [Std.LawfulEqCmp.compare_eq_iff_eq] at heq ⊢
  omega

/-- A cell holds what the cell `d` before it held. -/
theorem getElem?_shift (i : Int) : (t.shift d)[i]? = t[i - d]? := by
  cases h : t[i - d]? with
  | some c =>
    have hmem : (i - d + d, c) ∈ t.toList.map fun cell => (cell.1 + d, cell.2) :=
      List.mem_map.2 ⟨(i - d, c), Std.ExtTreeMap.mem_toList_iff_getElem?_eq_some.2 h, rfl⟩
    rw [Int.sub_add_cancel] at hmem
    exact Std.ExtTreeMap.getElem?_ofList_of_mem
      (Std.LawfulEqCmp.compare_eq_iff_eq.2 rfl) (pairwise_ne_shifted t d) hmem
  | none =>
    refine Std.ExtTreeMap.getElem?_ofList_of_contains_eq_false ?_
    rw [← Bool.not_eq_true, List.contains_iff_mem]
    simp only [List.map_map, List.mem_map, Function.comp_apply, Prod.exists, not_exists, not_and]
    rintro j c hj rfl
    rw [Int.add_sub_cancel, Std.ExtTreeMap.mem_toList_iff_getElem?_eq_some.1 hj] at h
    exact absurd h (Option.some_ne_none c)

theorem read_shift (i : Int) : (t.shift d).read (i + d) = t.read i := by
  rw [read, getElem?_shift, Int.add_sub_cancel, read]

theorem size_shift : (t.shift d).size = t.size := by
  rw [shift, Std.ExtTreeMap.size_ofList (pairwise_ne_shifted t d), List.length_map,
    Std.ExtTreeMap.length_toList]

theorem shift_insert (i : Int) (c : Char) :
    shift (t.insert i c) d = (t.shift d).insert (i + d) c := by
  refine Std.ExtTreeMap.ext_getElem? fun j => ?_
  rw [getElem?_shift, Std.ExtTreeMap.getElem?_insert, Std.ExtTreeMap.getElem?_insert,
    getElem?_shift]
  refine if_congr ?_ rfl rfl
  rw [Std.LawfulEqCmp.compare_eq_iff_eq, Std.LawfulEqCmp.compare_eq_iff_eq]
  omega

end Tape

/-! ## Results and configurations that are moved -/

/-- The error with the carriage moved by `d` in the report of the tape limit. -/
def Error.shift (e : Error) (d : Int) : Error :=
  match e with
  | .tapeOver cells carriage => .tapeOver cells (Int64.ofInt (carriage.toInt + d))
  | e => e

/-- What a run returns, moved by `d`. -/
def shiftResult (d : Int) : Except Error Tape → Except Error Tape
  | .ok t => .ok (t.shift d)
  | .error e => .error (e.shift d)

/-- The configuration `y` is the configuration `x` moved by `d` cells. -/
structure Configuration.Shifted (d : Int) (x y : Configuration) : Prop where
  state : y.state = x.state
  carriage : y.carriage.toInt = x.carriage.toInt + d
  steps : y.steps = x.steps
  tape : y.tape = x.tape.shift d

namespace Machine

variable {m : Machine} {x y : Configuration} {d : Int}

/-- The step reports no move out of the range of cells. -/
def InRange (m : Machine) (x : Configuration) : Prop :=
  ∀ s c, (m.step x).result ≠ .error (.carriageOverflow s c)

theorem InRange.action_ne (h : m.InRange x) (s : String) (c : Int64) :
    m.action x ≠ .fail (.carriageOverflow s c) := by
  intro ha
  exact h s c (by rw [step_of_fail ha])

/-- A machine that fails does not name the tape limit. -/
theorem shift_of_action {e : Error} (h : m.action x = .fail e) (d : Int) : e.shift d = e := by
  cases action_eq_iff.1 h <;> rfl

end Machine

namespace Configuration.Shifted

open Machine

variable {m : Machine} {x y : Configuration} {d : Int} (h : x.Shifted d y)

include h

theorem read_eq : y.read = x.read := by
  rw [read, read, h.tape, h.carriage, Tape.read_shift]

theorem apply (t : Transition) {cell cell' : Int64} (hcell : cell'.toInt = cell.toInt + d) :
    (x.apply t cell).Shifted d (y.apply t cell') where
  state := rfl
  carriage := hcell
  steps := by rw [Configuration.apply, Configuration.apply, h.steps]
  tape := by rw [Configuration.apply, Configuration.apply, h.tape, h.carriage, Tape.shift_insert]

/-- What comes of the limits is the same in both. -/
theorem reached_eq : m.reached y = (m.reached x).mapError (Error.shift · d) := by
  have hcell : Int64.ofInt (x.carriage.toInt + d) = y.carriage := by
    rw [← h.carriage, Int64.ofInt_toInt]
  unfold reached limit?
  rw [h.tape, Tape.size_shift, h.steps]
  split_ifs
  · exact congrArg (Except.error ∘ Error.tapeOver x.tape.size) hcell.symm
  · rfl
  · rfl

/-- In both the same transition is applied, or else the machine does the same in both. -/
theorem action_cases (hx : m.InRange x) (hy : m.InRange y) :
    (∃ t cell cell', m.action x = .apply t cell ∧ m.action y = .apply t cell' ∧
      (x.apply t cell).Shifted d (y.apply t cell')) ∨
    ¬m.Applies x ∧ m.action y = m.action x := by
  have hread := h.read_eq
  have hstate := h.state
  cases hx' : m.action x with
  | apply t cell =>
    left
    cases action_eq_iff.1 hx' with
    | applies running symbol rule progress move =>
      rw [← hstate] at running rule
      rw [← hread] at symbol rule
      have progress' : repeatsItself y t = false := by
        rwa [repeatsItself, hstate, hread]
      -- both move, since a move that leaves the range would be reported
      cases hmove : t.direction.move? y.carriage with
      | none =>
        have hleaves := action_eq_iff.2 (.leaves running symbol rule progress' hmove)
        exact absurd hleaves (hy.action_ne _ _)
      | some cell' =>
        refine ⟨t, cell, cell', rfl, action_eq_iff.2 (.applies running symbol rule progress' hmove),
          h.apply t ?_⟩
        rw [Direction.move?_eq_some_iff] at move hmove
        rw [hmove, move, h.carriage]
        omega
  | halt =>
    right
    constructor
    · rintro ⟨t, cell, ha⟩
      simp [ha] at hx'
    · rw [action_eq_halt_iff] at hx' ⊢
      rw [hstate, hx']
  | fail e =>
    right
    constructor
    · rintro ⟨t, cell, ha⟩
      simp [ha] at hx'
    · rw [action_eq_iff]
      cases action_eq_iff.1 hx' with
      | foreign running symbol =>
        rw [← hstate, ← hread]
        exact .foreign (hstate ▸ running) (hread ▸ symbol)
      | missing running symbol rule =>
        rw [← hstate, ← hread] at rule ⊢
        exact .missing (hstate ▸ running) (hread ▸ symbol) rule
      | loops running symbol rule loop =>
        rw [← hstate, ← hread] at rule ⊢
        refine .loops (hstate ▸ running) (hread ▸ symbol) rule ?_
        rwa [repeatsItself, hstate, hread]
      | leaves => exact absurd hx' (hx.action_ne _ _)

/-- A step leads to configurations that lie as far apart. -/
theorem after_step (hx : m.InRange x) (hy : m.InRange y) :
    (m.step x).after.Shifted d (m.step y).after := by
  obtain ⟨t, cell, cell', ha, ha', hnext⟩ | ⟨hno, heq⟩ := h.action_cases hx hy
  · rw [step_of_apply ha, step_of_apply ha']
    exact hnext
  · have hno' : ¬m.Applies y := by rwa [Applies, heq]
    rwa [after_step_of_not_applies hno, after_step_of_not_applies hno']

theorem result_step (hx : m.InRange x) (hy : m.InRange y) :
    (m.step y).result = (m.step x).result.mapError (Error.shift · d) := by
  obtain ⟨t, cell, cell', ha, ha', hnext⟩ | ⟨hno, heq⟩ := h.action_cases hx hy
  · rw [step_of_apply ha, step_of_apply ha']
    exact hnext.reached_eq
  · cases ha : m.action x with
    | apply t cell => exact absurd ⟨t, cell, ha⟩ hno
    | halt =>
      rw [step_of_halt ha, step_of_halt (heq.trans ha)]
      rfl
    | fail e =>
      rw [step_of_fail ha, step_of_fail (heq.trans ha)]
      exact congrArg Except.error (shift_of_action ha d).symm

end Configuration.Shifted

/-! ## Runs -/

namespace Machine

variable {m : Machine} {x y : Configuration} {c c' : Int64} {d : Int} {n : Nat}

variable (m x) in
/-- None of the first `n` steps reports a move out of the range of cells. -/
def StaysInRange (n : Nat) : Prop :=
  ∀ k < n, m.InRange (m.after x k)

variable (m x) in
/-- The run does not end with a move out of the range of cells. -/
def EndsInRange : Prop :=
  ∀ s c, ¬Yields (fun fuel => m.run false fuel x) (.error (.carriageOverflow s c))

theorem StaysInRange.mono {k : Nat} (h : m.StaysInRange x n) (hk : k ≤ n) : m.StaysInRange x k :=
  fun i hi => h i (by omega)

theorem Continues.staysInRange (h : m.Continues x n) : m.StaysInRange x n := by
  intro k hk s c
  rw [h k hk]
  simp

/-- As long as the run goes on, the next step does not leave the range either. -/
theorem EndsInRange.inRange (h : m.EndsInRange x) (hc : m.Continues x n) :
    m.InRange (m.after x n) :=
  fun s c hr => h s c (yields_error_iff.2 ⟨n, hc, hr⟩)

/-- Two runs stay as far apart as they were. -/
theorem shifted_after (h : x.Shifted d y) :
    ∀ {n}, m.StaysInRange x n → m.StaysInRange y n → (m.after x n).Shifted d (m.after y n)
  | 0, _, _ => h
  | n + 1, hx, hy => by
    have ih := shifted_after h (hx.mono (Nat.le_succ n)) (hy.mono (Nat.le_succ n))
    rw [after_succ', after_succ']
    exact ih.after_step (hx n (Nat.lt_succ_self n)) (hy n (Nat.lt_succ_self n))

/-- Two runs that stay in range go on for the same number of steps. -/
theorem continues_iff_of_shifted (h : x.Shifted d y) (hx : m.EndsInRange x)
    (hy : m.EndsInRange y) : ∀ n, m.Continues y n ↔ m.Continues x n
  | 0 => iff_of_true continues_zero continues_zero
  | n + 1 => by
    rw [continues_succ', continues_succ', continues_iff_of_shifted h hx hy n]
    refine and_congr_right fun hc => ?_
    have hc' : m.Continues y n := (continues_iff_of_shifted h hx hy n).2 hc
    have hlast := shifted_after h (Continues.staysInRange hc) hc'.staysInRange
    rw [hlast.result_step (hx.inRange hc) (hy.inRange hc')]
    rcases (m.step (m.after x n)).result with e | p <;> simp [Except.mapError]

/-- Where the one run ends the other ends with the result moved by `d`. -/
theorem endsWith_iff_of_shifted (h : x.Shifted d y) (hx : m.InRange x) (hy : m.InRange y)
    {r : Except Error Tape} :
    m.EndsWith y r ↔ ∃ r₀, m.EndsWith x r₀ ∧ r = shiftResult d r₀ := by
  unfold EndsWith
  rw [h.result_step hx hy, (h.after_step hx hy).tape]
  rcases (m.step x).result with e | _ | _ <;> simp [Except.mapError, shiftResult]

theorem yields_iff_of_shifted (h : x.Shifted d y) (hx : m.EndsInRange x) (hy : m.EndsInRange y)
    {r : Except Error Tape} :
    Yields (fun fuel => m.run false fuel y) r ↔
      ∃ r₀, Yields (fun fuel => m.run false fuel x) r₀ ∧ r = shiftResult d r₀ := by
  simp only [yields_run_iff]
  constructor
  · rintro ⟨n, hc', he⟩
    have hc := (continues_iff_of_shifted h hx hy n).1 hc'
    have hlast := shifted_after h hc.staysInRange hc'.staysInRange
    obtain ⟨r₀, he₀, hr⟩ :=
      (endsWith_iff_of_shifted hlast (hx.inRange hc) (hy.inRange hc')).1 he
    exact ⟨r₀, ⟨n, hc, he₀⟩, hr⟩
  · rintro ⟨r₀, ⟨n, hc, he₀⟩, hr⟩
    have hc' := (continues_iff_of_shifted h hx hy n).2 hc
    have hlast := shifted_after h hc.staysInRange hc'.staysInRange
    exact ⟨n, hc', (endsWith_iff_of_shifted hlast (hx.inRange hc) (hy.inRange hc')).2
      ⟨r₀, he₀, hr⟩⟩

theorem shifted_start (m : Machine) (hc : c'.toInt = c.toInt + d) (tape : Tape) :
    (m.start c tape).Shifted d (m.start c' (tape.shift d)) :=
  ⟨rfl, hc, rfl, rfl⟩

/-- A run does not depend on where the tape lies. Move the carriage and the tape by `d` cells: as
long as the carriage leaves the range of cells in neither run, the configurations of the one are
those of the other moved by `d`, and the steps report the same up to the cell that the tape limit
names. If it never leaves the range, the one run returns what the other returns, moved by `d`. -/
theorem runs_translate (m : Machine) (hc : c'.toInt = c.toInt + d) (tape : Tape) :
    (∀ n, m.StaysInRange (m.start c tape) n → m.StaysInRange (m.start c' (tape.shift d)) n →
      (m.after (m.start c tape) n).Shifted d (m.after (m.start c' (tape.shift d)) n)) ∧
    (∀ n, m.StaysInRange (m.start c tape) (n + 1) →
      m.StaysInRange (m.start c' (tape.shift d)) (n + 1) →
      (m.step (m.after (m.start c' (tape.shift d)) n)).result =
        (m.step (m.after (m.start c tape) n)).result.mapError (Error.shift · d)) ∧
    (m.EndsInRange (m.start c tape) → m.EndsInRange (m.start c' (tape.shift d)) → ∀ r,
      Yields (m.exec false c' (tape.shift d)) r ↔
        ∃ r₀, Yields (m.exec false c tape) r₀ ∧ r = shiftResult d r₀) := by
  have hstart := shifted_start m hc tape
  refine ⟨fun n hx hy => shifted_after hstart hx hy, fun n hx hy => ?_,
    fun hx hy r => yields_iff_of_shifted hstart hx hy⟩
  have hlast := shifted_after hstart (hx.mono (Nat.le_succ n)) (hy.mono (Nat.le_succ n))
  exact hlast.result_step (hx n (Nat.lt_succ_self n)) (hy n (Nat.lt_succ_self n))

/-- A number that is moved is the number from another cell on. -/
theorem shift_number (c : Int) (n : Nat) : (number c n).shift d = number (c + d) n := by
  refine Std.ExtTreeMap.ext_getElem? fun i => ?_
  rw [Tape.getElem?_shift, getElem?_number, getElem?_number]
  exact if_congr (by omega) rfl rfl

/-- From the last of the ones in the cells `-1`, `0` and `1` the increment program does the same as
from the last of those in the cells `6`, `7` and `8`. -/
theorem runs_translate_increment :
    let m := Increment.book.machine 9 9 (by decide)
    Int64.toInt 8 = Int64.toInt 1 + 7 ∧
      (m.after (m.start 1 (number (-1) 2)) 4).Shifted 7 (m.after (m.start 8 (number 6 2)) 4) := by
  intro m
  have hc : Int64.toInt 8 = Int64.toInt 1 + 7 := by decide
  have here : m.Continues (m.start 1 (number (-1) 2)) 4 := by
    unfold Continues
    decide +kernel
  have there : m.Continues (m.start 8 ((number (-1) 2).shift 7)) 4 := by
    unfold Continues
    decide +kernel
  have shifted := (runs_translate m hc (number (-1) 2)).1 4 here.staysInRange there.staysInRange
  rw [shift_number] at shifted
  exact ⟨hc, shifted⟩

end Machine

end TapeMachine
