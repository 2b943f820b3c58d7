import Mathlib.Data.Fintype.Pi
import Mathlib.Data.Set.Finite.List
import Mathlib.Order.Preorder.Finite
import TapeMachine.Proofs.Limits
import TapeMachine.Proofs.Safety

/-!
# Runs that never end repeat themselves

Two configurations are alike if they differ at most in the number of steps taken
(`Configuration.Alike`). A machine does the same in configurations that are alike, and without a
step limit it reports that the run may go on in both or in neither. So a run that comes to a
configuration like an earlier one goes on forever (`Machine.goes_on_of_repeats`).

A run that goes on forever never comes to the tape limit. As every step leaves its cell occupied,
the carriage stands on finitely many cells (`Machine.finite_carriages`). Cells that it never comes
to are as they were, states and symbols are those of the machine, so there are finitely many
configurations for infinitely many steps (`Machine.repeats_of_forever`).
-/

namespace TapeMachine

/-! ## Configurations that are alike -/

/-- The configurations differ at most in the number of steps taken. -/
structure Configuration.Alike (x y : Configuration) : Prop where
  state : x.state = y.state
  carriage : x.carriage = y.carriage
  tape : x.tape = y.tape

namespace Configuration.Alike

variable {m : Machine} {x y : Configuration} (h : x.Alike y)

include h

theorem action_eq : m.action x = m.action y := by
  cases x
  cases y
  obtain ⟨rfl, rfl, rfl⟩ := h
  rfl

theorem apply (t : Transition) (cell : Int64) : (x.apply t cell).Alike (y.apply t cell) where
  state := rfl
  carriage := rfl
  tape := by rw [Configuration.apply, Configuration.apply, h.carriage, h.tape]

/-- A step leads from configurations that are alike to such configurations. -/
theorem after_step : (m.step x).after.Alike (m.step y).after := by
  cases ha : m.action y with
  | halt => rwa [Machine.step_of_halt ha, Machine.step_of_halt (h.action_eq.trans ha)]
  | fail e => rwa [Machine.step_of_fail ha, Machine.step_of_fail (h.action_eq.trans ha)]
  | apply t cell =>
    rw [Machine.step_of_apply ha, Machine.step_of_apply (h.action_eq.trans ha)]
    exact h.apply t cell

/-- Without a step limit the run may go on from both or from neither. -/
theorem moved_iff (unlimited : m.maxSteps = 0) :
    (m.step x).result = .ok .moved ↔ (m.step y).result = .ok .moved := by
  simp only [Machine.result_eq_moved_iff, Machine.Applies, Machine.BelowLimits, unlimited,
    true_or, and_true, h.action_eq, h.after_step.tape]

end Configuration.Alike

namespace Machine

variable {m : Machine} {x : Configuration} {c : Int64} {tape : Tape} {n : Nat}

variable (m x) in
/-- The run comes to a configuration like an earlier one before a step ends it. -/
def Repeats : Prop :=
  ∃ i j, i < j ∧ m.Continues x j ∧ (m.after x i).Alike (m.after x j)

/-- Without a step limit a run that repeats itself goes on forever. -/
theorem goes_on_of_repeats (unlimited : m.maxSteps = 0) (h : m.Repeats x) (n : Nat) :
    (m.step (m.after x n)).result = .ok .moved := by
  obtain ⟨i, j, hij, hc, halike⟩ := h
  -- from the repeated configuration on, the run does what it did before
  have replay : ∀ k, (m.after x (i + k)).Alike (m.after x (j + k)) := fun k => by
    rw [after_add, after_add]
    exact after_lockstep halike (fun _ _ h => h.after_step) k
  induction n using Nat.strong_induction_on with
  | _ n ih =>
    rcases Nat.lt_or_ge n j with hlt | hge
    · exact hc n hlt
    · obtain ⟨k, rfl⟩ := Nat.exists_eq_add_of_le hge
      exact ((replay k).moved_iff unlimited).1 (ih (i + k) (by omega))

/-! ## The cells of a run that goes on forever -/

/-- A run that may go on has written fewer cells than the tape may have. -/
theorem Continues.card_written_lt (h : m.Continues x (n + 1)) :
    (m.written x (n + 1)).card < m.maxTapeLength.toNat := by
  have hbelow := ((continues_iff.1 h).2 n (Nat.lt_succ_self n)).1
  rw [← Tape.card_cells, cells_after] at hbelow
  exact lt_of_le_of_lt (Finset.card_le_card Finset.subset_union_right) hbelow

/-- The carriage of a run that goes on forever stands on finitely many cells. -/
theorem finite_carriages (forever : ∀ n, m.Continues x n) :
    (Set.range fun n => (m.after x n).carriage.toInt).Finite := by
  by_contra infinite
  obtain ⟨cells, hcells, hcard⟩ :=
    Set.Infinite.exists_subset_card_eq infinite m.maxTapeLength.toNat
  have hwritten : ∀ i ∈ cells, ∃ n, i ∈ m.written x n := fun i hi => by
    obtain ⟨n, hn⟩ := hcells hi
    exact ⟨n + 1, mem_written.2
      ⟨n, Nat.lt_succ_self n, (forever (n + 1)).appliesAll n (Nat.lt_succ_self n), hn⟩⟩
  choose! time htime using hwritten
  -- by the latest of these times all the cells have been written, which are too many
  let last := cells.sup time
  have hsub : cells ⊆ m.written x (last + 1) := fun i hi =>
    written_mono ((Finset.le_sup hi).trans (Nat.le_succ last)) (htime i hi)
  have hle := Finset.card_le_card hsub
  have hlt := (forever (last + 1)).card_written_lt
  omega

end Machine

/-! ## Finitely many configurations -/

/-- A configuration as far as some cells show it. -/
def Configuration.snapshot (cells : Set Int) (x : Configuration) :
    String × Int × (cells → Option Char) :=
  (x.state, x.carriage.toInt, fun i => x.tape[i.1]?)

/-- Configurations with the same snapshot are alike if their tapes agree in all other cells. -/
theorem Configuration.alike_of_snapshot_eq {cells : Set Int} {x y : Configuration}
    (h : x.snapshot cells = y.snapshot cells)
    (others : ∀ i ∉ cells, x.tape[i]? = y.tape[i]?) : x.Alike y := by
  obtain ⟨hstate, hrest⟩ := Prod.mk.inj h
  obtain ⟨hcarriage, htape⟩ := Prod.mk.inj hrest
  refine ⟨hstate, Int64.toInt_inj.1 hcarriage, Std.ExtTreeMap.ext_getElem? fun {i} => ?_⟩
  by_cases hi : i ∈ cells
  · exact congrFun htape ⟨i, hi⟩
  · exact others i hi

namespace Machine

variable {m : Machine} {c : Int64} {tape : Tape} {cells : Set Int}

variable (m tape cells) in
/-- The snapshots in which a machine that began on the tape can be: its state is one it knows, its
carriage is on one of the cells, and a cell holds what it held or a symbol of the alphabet. -/
def snapshots : Set (String × Int × (cells → Option Char)) :=
  {s | s ∈ m.terminalState :: m.startState :: m.program.states} ×ˢ cells ×ˢ
    Set.univ.pi fun i => insert tape[i.1]? (some '' {y | y ∈ m.alphabet.toList})

theorem finite_snapshots (h : cells.Finite) : (m.snapshots tape cells).Finite := by
  have : Finite cells := h.to_subtype
  refine (List.finite_toSet _).prod (h.prod (Set.Finite.pi fun i => ?_))
  exact ((List.finite_toSet m.alphabet.toList).image some).insert _

theorem snapshot_mem (m : Machine) (tape : Tape) (n : Nat)
    (h : (m.after (m.start c tape) n).carriage.toInt ∈ cells) :
    (m.after (m.start c tape) n).snapshot cells ∈ m.snapshots tape cells := by
  refine ⟨?_, h, fun i _ => ?_⟩
  · obtain hs | hs | ⟨-, hs⟩ := state_after m c tape n
    · exact hs ▸ List.mem_cons_self
    · exact List.mem_cons_of_mem _ (List.mem_cons_of_mem _ (Program.mem_states_iff.2 hs))
    · exact List.mem_cons_of_mem _ (hs ▸ List.mem_cons_self)
  · by_cases hi : i.1 ∈ m.written (m.start c tape) n
    · obtain ⟨y, hy, hcell⟩ := exists_of_mem_written hi
      exact .inr ⟨y, Std.ExtTreeSet.mem_toList.2 hy, hcell.symm⟩
    · exact .inl (getElem?_after hi)

/-- A run that goes on forever repeats itself. -/
theorem repeats_of_forever (forever : ∀ n, m.Continues (m.start c tape) n) :
    m.Repeats (m.start c tape) := by
  let cells := Set.range fun n => (m.after (m.start c tape) n).carriage.toInt
  have hmem : ∀ n, (m.after (m.start c tape) n).snapshot cells ∈ m.snapshots tape cells :=
    fun n => snapshot_mem m tape n ⟨n, rfl⟩
  have others : ∀ n, ∀ i ∉ cells, (m.after (m.start c tape) n).tape[i]? = tape[i]? := by
    refine fun n i hi => getElem?_after fun hw => hi ?_
    obtain ⟨k, -, -, hk⟩ := mem_written.1 hw
    exact ⟨k, hk⟩
  obtain ⟨i, j, hij, heq⟩ := Set.Finite.exists_lt_map_eq_of_forall_mem hmem
    (finite_snapshots (finite_carriages forever))
  refine ⟨i, j, hij, forever j, Configuration.alike_of_snapshot_eq heq fun k hk => ?_⟩
  rw [others i k hk, others j k hk]

/-- Without a step limit a run goes on forever exactly if it comes to a configuration like an
earlier one. So an uncancelled run comes to an end exactly if it never does. -/
theorem goes_on_iff_repeats (unlimited : m.maxSteps = 0) (c : Int64) (tape : Tape) :
    ((∀ n, (m.step (m.after (m.start c tape) n)).result = .ok .moved) ↔
      m.Repeats (m.start c tape)) ∧
    ((∃ r, Yields (m.exec false c tape) r) ↔ ¬m.Repeats (m.start c tape)) := by
  have hforever : (∀ n, (m.step (m.after (m.start c tape) n)).result = .ok .moved) ↔
      m.Repeats (m.start c tape) :=
    ⟨fun h => repeats_of_forever fun _ k _ => h k, goes_on_of_repeats unlimited⟩
  refine ⟨hforever, ?_⟩
  rw [← hforever, not_forall]
  exact exists_yields_iff

/-- Going back and forth between two cells, with room for them and no step limit, never ends. -/
theorem goes_on_iff_repeats_shuttle :
    (shuttle 3 0).maxSteps = 0 ∧
      ∀ n, ((shuttle 3 0).step ((shuttle 3 0).after ((shuttle 3 0).start 0 ∅) n)).result =
        .ok .moved := by
  refine ⟨rfl, (goes_on_iff_repeats rfl 0 ∅).1.2 ⟨2, 4, by decide, fun k hk => ?_, ⟨rfl, rfl, rfl⟩⟩⟩
  match k, hk with
  | 0, _ | 1, _ | 2, _ | 3, _ => rfl

end Machine

end TapeMachine
