import TapeMachine.Proofs.RunSpec

/-!
# Passages of a run

The view of a configuration is its state, the cell of its carriage and what every cell holds
(`Configuration.view`). From one view to another there is a passage of `n` steps if that many
transitions lead there from every configuration with the first view (`Machine.Leads`). Passages are
put together from single transitions (`Leads.one`), from sweeps in which a state carries the
carriage over symbols that it leaves as they are (`Leads.sweep`), and from shorter passages
(`Leads.trans`).

Limits play no part in this. As occupied cells and steps only grow, they need to be looked at only
where a passage ends: `Leads.exec_ok_iff` says when a run over a passage to the terminal state
succeeds, and `Leads.exists_exec_ok_iff` when there is such a run, if the passage ends with a known
number of occupied cells.
-/

namespace TapeMachine

/-- Writing to a cell changes what that cell holds. -/
theorem Tape.content_insert (t : Tape) (i : Int) (c : Char) :
    (fun j => (t.insert i c)[j]?) = Function.update (fun j => t[j]?) i (some c) := by
  ext1 j
  rw [Std.ExtTreeMap.getElem?_insert, Function.update_apply]
  by_cases h : j = i
  · simp [h]
  · simp [h, Ne.symm h]

/-- What a machine sees of a configuration, and all of its tape. -/
structure View where
  /-- The machine's state. -/
  state : String
  /-- The cell the carriage stands on. -/
  cell : Int
  /-- What the cells hold. -/
  content : Int → Option Char

/-- The view of a configuration. -/
def Configuration.view (x : Configuration) : View :=
  ⟨x.state, x.carriage.toInt, fun i => x.tape[i]?⟩

/-- The carriage can stand on the cell. -/
def Addressable (i : Int) : Prop :=
  Int64.minValue.toInt ≤ i ∧ i ≤ Int64.maxValue.toInt

theorem Addressable.between {i j k : Int} (lower : Addressable i) (upper : Addressable k)
    (h : i ≤ j) (h' : j ≤ k) : Addressable j :=
  ⟨lower.1.trans h, h'.trans upper.2⟩

theorem addressable_toInt (c : Int64) : Addressable c.toInt :=
  ⟨Int64.minValue_le_toInt c, Int64.toInt_le c⟩

namespace Machine

variable {m : Machine}

variable (m) in
/-- In the state `q` and over the symbol `y` the machine goes on by the transition `t`. -/
structure Rule (q : String) (y : Char) (t : Transition) : Prop where
  running : q ≠ m.terminalState
  symbol : y ∈ m.alphabet
  bound : m.program.get? q y = some t
  progress : ¬(t.direction = .stay ∧ t.next = q ∧ t.write = y)

variable (m) in
/-- From every configuration with the view `v`, `n` transitions lead to one with the view `w`. -/
def Leads (v w : View) (n : Nat) : Prop :=
  ∀ x : Configuration, x.view = v → m.AppliesAll x n ∧ (m.after x n).view = w

/-- A rule is applied wherever its move can be made. -/
theorem Rule.action_eq {q : String} {y : Char} {t : Transition} {x : Configuration}
    (h : m.Rule q y t) (state : x.state = q) (read : x.read = y)
    (move : Addressable (x.carriage.toInt + t.direction.offset)) :
    ∃ cell : Int64, cell.toInt = x.carriage.toInt + t.direction.offset ∧
      m.action x = .apply t cell := by
  subst state read
  cases hcell : t.direction.move? x.carriage with
  | none =>
    rw [Direction.move?_eq_none_iff] at hcell
    unfold Addressable at move
    omega
  | some cell =>
    have progress : repeatsItself x t = false := by
      rw [← Bool.not_eq_true, repeatsItself_iff]
      exact h.progress
    exact ⟨cell, Direction.move?_eq_some_iff.1 hcell,
      action_eq_iff.2 (.applies h.running h.symbol h.bound progress hcell)⟩

namespace Leads

variable {u v w : View} {k n : Nat}

theorem refl (v : View) : m.Leads v v 0 :=
  fun _ hx => ⟨fun _ hk => absurd hk (Nat.not_lt_zero _), hx⟩

theorem trans (h : m.Leads u v k) (h' : m.Leads v w n) : m.Leads u w (k + n) := by
  intro x hx
  obtain ⟨hall, hv⟩ := h x hx
  obtain ⟨hall', hw⟩ := h' _ hv
  refine ⟨fun i hi => ?_, by rwa [after_add]⟩
  rcases Nat.lt_or_ge i k with hlt | hge
  · exact hall i hlt
  · obtain ⟨j, rfl⟩ := Nat.exists_eq_add_of_le hge
    rw [after_add]
    exact hall' j (by omega)

variable {q : String} {y : Char} {t : Transition} {i j : Int} {f g : Int → Option Char}

/-- A single transition. -/
theorem one (rule : m.Rule q y t) (read : (f i).getD blank = y) (cell : i + t.direction.offset = j)
    (range : Addressable j) (content : Function.update f i (some t.write) = g) :
    m.Leads ⟨q, i, f⟩ ⟨t.next, j, g⟩ 1 := by
  intro x hx
  obtain ⟨hstate, hcell, htape⟩ := View.mk.inj hx
  subst hcell htape
  rw [← cell] at range
  obtain ⟨next, hnext, ha⟩ := rule.action_eq hstate read range
  refine ⟨fun k hk => ?_, ?_⟩
  · rw [Nat.lt_one_iff.1 hk]
    exact ⟨t, next, ha⟩
  · rw [after_succ', after_zero, step_of_apply ha, Configuration.view, View.mk.injEq]
    refine ⟨rfl, hnext.trans cell, ?_⟩
    rw [← content]
    exact Tape.content_insert x.tape x.carriage.toInt t.write

/-- A sweep: a state that leaves symbols as they are and keeps its direction carries the carriage
over `n` cells that hold such symbols. -/
theorem sweep {d : Direction} :
    ∀ {n : Nat} {i : Int}, i + n * d.offset = j → Addressable j →
      (∀ k < n, ∃ y, f (i + k * d.offset) = some y ∧ m.Rule q y ⟨q, y, d⟩) →
      m.Leads ⟨q, i, f⟩ ⟨q, j, f⟩ n
  | 0, i, stop, _, _ => by
    rw [Int.natCast_zero, Int.zero_mul, Int.add_zero] at stop
    exact stop ▸ refl _
  | n + 1, i, stop, range, cells => fun x hx => by
    have hshift : ∀ k : Nat, i + d.offset + k * d.offset = i + (k + 1 : Nat) * d.offset := by
      intro k
      rw [Int.natCast_succ, Int.add_mul, Int.one_mul]
      omega
    -- the cells in between exist because both ends do
    have hnext : Addressable (i + d.offset) := by
      have hi : Addressable i := (View.mk.inj hx).2.1 ▸ addressable_toInt x.carriage
      unfold Addressable at *
      cases d <;> simp only [Direction.offset] at * <;> omega
    obtain ⟨y, hy, rule⟩ := cells 0 (Nat.succ_pos n)
    rw [Int.natCast_zero, Int.zero_mul, Int.add_zero] at hy
    have hone : m.Leads ⟨q, i, f⟩ ⟨q, i + d.offset, f⟩ 1 :=
      one rule (by rw [hy]; rfl) rfl hnext (by rw [← hy, Function.update_eq_self])
    have hrest : m.Leads ⟨q, i + d.offset, f⟩ ⟨q, j, f⟩ n :=
      sweep ((hshift n).trans stop) range fun k hk => by
        rw [hshift]
        exact cells (k + 1) (by omega)
    rw [Nat.add_comm]
    exact hone.trans hrest x hx

end Leads

/-! ## The end of a passage -/

variable {x : Configuration} {c : Int64} {tape : Tape} {n : Nat}

theorem size_after_mono {k : Nat} (h : k ≤ n) :
    (m.after x k).tape.size ≤ (m.after x n).tape.size := by
  rw [← Tape.card_cells, ← Tape.card_cells, cells_after, cells_after]
  exact Finset.card_le_card (Finset.union_subset_union_right (written_mono h))

/-- Applied steps may go on exactly if the last configuration is below the limits. -/
theorem AppliesAll.continues_iff_last (h : m.AppliesAll x n) :
    m.Continues x n ↔ n = 0 ∨ m.BelowLimits (m.after x n) := by
  rw [continues_iff]
  constructor
  · rintro ⟨-, hbelow⟩
    cases n with
    | zero => exact .inl rfl
    | succ n => exact .inr (hbelow n (Nat.lt_succ_self n))
  · intro hlast
    refine ⟨h, fun k hk => ?_⟩
    obtain hzero | ⟨htape, hsteps⟩ := hlast
    · omega
    · have hsize : (m.after x (k + 1)).tape.size ≤ (m.after x n).tape.size := size_after_mono hk
      refine ⟨by omega, hsteps.imp id fun hlt => ?_⟩
      rw [h.steps_after] at hlt
      rw [AppliesAll.steps_after (h.mono hk)]
      omega

/-- A run comes to the terminal state after one number of applied steps only. -/
theorem AppliesAll.eq_of_terminal {k : Nat} (h : m.AppliesAll x n)
    (hn : (m.after x n).state = m.terminalState) (h' : m.AppliesAll x k)
    (hk : (m.after x k).state = m.terminalState) : k = n := by
  rcases Nat.lt_trichotomy k n with hlt | heq | hgt
  · exact absurd hk (h k hlt).running
  · exact heq
  · exact absurd hn (h' n hgt).running

/-- What a passage leaves on the cells is on a tape. -/
theorem Leads.exists_tape {w : View} (h : m.Leads x.view w n) :
    ∃ t : Tape, ∀ i, t[i]? = w.content i :=
  ⟨(m.after x n).tape, congrFun (View.mk.inj (h x rfl).2).2.2⟩

/-- A run over a passage from the start to the terminal state succeeds exactly if the passage ends
below the limits, and the tape then holds what the passage leaves there. -/
theorem Leads.exec_ok_iff {w : View} (h : m.Leads (m.start c tape).view w n)
    (terminal : w.state = m.terminalState) {r : Tape} :
    Yields (m.exec false c tape) (.ok r) ↔
      (∀ i, r[i]? = w.content i) ∧ (n = 0 ∨ r.size < m.maxTapeLength.toNat ∧
        (m.maxSteps = 0 ∨ n < m.maxSteps.toNat)) := by
  obtain ⟨hall, hview⟩ := h _ rfl
  obtain ⟨hw, -, hcontent⟩ := View.mk.inj hview
  have hstate : (m.after (m.start c tape) n).state = m.terminalState := hw.trans terminal
  have htape : (m.after (m.start c tape) n).tape = r ↔ ∀ i, r[i]? = w.content i := by
    rw [← hcontent]
    exact ⟨fun h i => h ▸ rfl, fun h => Std.ExtTreeMap.ext_getElem? fun {i} => (h i).symm⟩
  have hsteps : (m.after (m.start c tape) n).steps = n := by
    rw [hall.steps_after, start, Nat.zero_add]
  have hlimits := hall.continues_iff_last
  rw [BelowLimits, hsteps] at hlimits
  rw [Machine.exec_ok_iff, ← htape]
  constructor
  · rintro ⟨k, hc, hk, hr⟩
    obtain rfl := hall.eq_of_terminal hstate hc.appliesAll hk
    exact ⟨hr, hr ▸ hlimits.1 hc⟩
  · rintro ⟨rfl, hc⟩
    exact ⟨n, hlimits.2 hc, hstate, rfl⟩

/-- What a successful run leaves on the cells is what the passage leaves there. -/
theorem Leads.getElem?_of_exec_ok {w : View} (h : m.Leads (m.start c tape).view w n)
    (terminal : w.state = m.terminalState) {r : Tape} (hr : Yields (m.exec false c tape) (.ok r))
    (i : Int) : r[i]? = w.content i :=
  ((h.exec_ok_iff terminal).1 hr).1 i

/-- A run over a passage to the terminal state succeeds exactly within the limits on the cells that
the passage leaves occupied and on its steps. -/
theorem Leads.exists_exec_ok_iff {w : View} {cells : Nat} (h : m.Leads (m.start c tape).view w n)
    (terminal : w.state = m.terminalState) (moves : n ≠ 0)
    (size : ∀ t : Tape, (∀ i, t[i]? = w.content i) → t.size = cells) :
    (∃ r, Yields (m.exec false c tape) (.ok r)) ↔
      cells < m.maxTapeLength.toNat ∧ (m.maxSteps = 0 ∨ n < m.maxSteps.toNat) := by
  simp only [h.exec_ok_iff terminal, or_iff_right moves]
  constructor
  · rintro ⟨r, content, within⟩
    rwa [size r content] at within
  · intro within
    obtain ⟨t, content⟩ := h.exists_tape
    exact ⟨t, content, by rwa [size t content]⟩

end Machine

end TapeMachine
