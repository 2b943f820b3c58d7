import Mathlib.Logic.Relation
import TapeMachine.Proofs.Safety

/-!
# States that no run enters

A transition links the state of its row to the state it enters (`Program.Links`). The search for
unreachable states takes the rows it comes to out of the table, and with a row the links that leave
it. No chain is lost by that: one that passes through the row leads on from a successor of the row
(`Program.leads_erase`). So the search leaves the states that no chain of links leads to from where
it began (`Program.mem_unvisited_iff`), and `Program.unreachable` lists exactly those, in ascending
order (`Program.unreachable_exact`).

A run goes from state to state along links (`Machine.leads_after`), so it never comes to a state
that the warning of its machine names (`Machine.warned_states_not_entered`).
-/

open Relation

namespace TapeMachine

/-- The successors of a row are the states that its transitions enter. -/
theorem Row.mem_successors_iff {row : Row} {t : String} :
    t ∈ row.successors ↔ ∃ (x : Char) (u : Transition), row[x]? = some u ∧ u.next = t := by
  simp only [successors, values_eq_map_toList, List.map_map, List.mem_map, Prod.exists,
    Std.ExtTreeMap.mem_toList_iff_getElem?_eq_some, Function.comp_apply]

namespace Program

variable {rows : Std.ExtTreeMap String Row} {row : Row} {a s t : String} {waiting : List String}
  {p : Program} {start terminal : String}

/-! ## Links -/

/-- A transition in the row of `s` enters `t`. -/
def Links (rows : Std.ExtTreeMap String Row) (s t : String) : Prop :=
  ∃ row, rows[s]? = some row ∧ t ∈ row.successors

/-- A chain of links, possibly of none, leads from `s` to `t`. -/
def Leads (rows : Std.ExtTreeMap String Row) : String → String → Prop :=
  ReflTransGen (Links rows)

theorem links_iff : Links p.rows s t ↔ ∃ x u, p.get? s x = some u ∧ u.next = t := by
  simp only [Links, Row.mem_successors_iff, get?_eq_some_iff]
  constructor
  · rintro ⟨row, hrow, x, u, hu, rfl⟩
    exact ⟨x, u, ⟨row, hrow, hu⟩, rfl⟩
  · rintro ⟨x, u, ⟨row, hrow, hu⟩, rfl⟩
    exact ⟨row, hrow, x, u, hu, rfl⟩

/-- A table without the row of `a` has the links that do not leave `a`. -/
theorem links_erase_iff : Links (rows.erase a) s t ↔ s ≠ a ∧ Links rows s t := by
  unfold Links
  rw [Std.ExtTreeMap.getElem?_erase]
  by_cases hs : s = a
  · simp [hs]
  · simp [hs, Ne.symm hs]

theorem Leads.of_erase (h : Leads (rows.erase a) s t) : Leads rows s t := by
  induction h with
  | refl => exact .refl
  | tail _ hlink ih => exact ih.tail (links_erase_iff.1 hlink).2

/-- A state without a row leads only to itself. -/
theorem Leads.eq_of_not_mem (h : Leads rows s t) (hs : s ∉ rows) : s = t := by
  rcases h.cases_head with rfl | ⟨b, ⟨row, hrow, -⟩, -⟩
  · rfl
  · rw [Std.ExtTreeMap.getElem?_eq_none hs] at hrow
    cases hrow

/-- A chain that does without the row of `a`, or else leads on from a successor of that row. -/
theorem leads_erase (hrow : rows[a]? = some row) (h : Leads rows s t) :
    Leads (rows.erase a) s t ∨ ∃ b ∈ row.successors, Leads (rows.erase a) b t := by
  induction h using ReflTransGen.head_induction_on with
  | refl => exact .inl .refl
  | @head s b hlink _ ih =>
    rcases ih with hb | hlater
    · by_cases hs : s = a
      -- the chain leaves `a` for the last time here
      · obtain ⟨row', hrow', hb'⟩ := hlink
        rw [hs, hrow, Option.some.injEq] at hrow'
        exact .inr ⟨b, hrow' ▸ hb', hb⟩
      · exact .inl (.head (links_erase_iff.2 ⟨hs, hlink⟩) hb)
    · exact .inr hlater

/-! ## The search -/

/-- The search leaves the rows of the states that no chain leads to from where it began. -/
theorem mem_unvisited_iff (rows : Std.ExtTreeMap String Row) (waiting : List String) :
    s ∈ unvisited rows waiting ↔ s ∈ rows ∧ ∀ w ∈ waiting, ¬Leads rows w s := by
  fun_induction unvisited rows waiting with
  | case1 rows => simp
  | case2 rows a waiting ha ih =>
    have hrow : rows[a]? = some rows[a] := Std.ExtTreeMap.getElem?_eq_some_getElem ha
    rw [ih, Std.ExtTreeMap.mem_erase]
    constructor
    · rintro ⟨⟨hne, hs⟩, hnone⟩
      have hne : a ≠ s := by simpa using hne
      refine ⟨hs, fun w hw hlead => ?_⟩
      rcases leads_erase hrow hlead with hlead | ⟨b, hb, hlead⟩
      · rcases List.mem_cons.1 hw with rfl | hw
        · have hgone : w ∉ rows.erase w := by simp
          exact hne (hlead.eq_of_not_mem hgone)
        · exact hnone w (List.mem_append_right _ hw) hlead
      · exact hnone b (List.mem_append_left _ hb) hlead
    · rintro ⟨hs, hnone⟩
      have hfirst := hnone a List.mem_cons_self
      refine ⟨⟨?_, hs⟩, fun w hw hlead => ?_⟩
      · rw [ne_eq, Std.LawfulEqCmp.compare_eq_iff_eq]
        rintro rfl
        exact hfirst .refl
      · rcases List.mem_append.1 hw with hw | hw
        · exact hfirst (.head ⟨_, hrow, hw⟩ hlead.of_erase)
        · exact hnone w (List.mem_cons_of_mem _ hw) hlead.of_erase
  | case3 rows a waiting ha ih =>
    rw [ih, List.forall_mem_cons]
    refine and_congr_right fun hs => (and_iff_right fun hlead => ?_).symm
    exact ha (hlead.eq_of_not_mem ha ▸ hs)

/-- The unreachable states are those of the program, other than the terminal state, that no chain of
links leads to from the start state. -/
theorem mem_unreachable_iff : s ∈ p.unreachable start terminal ↔
    p.containsState s = true ∧ s ≠ terminal ∧ ¬Leads p.rows start s := by
  rw [unreachable, List.mem_filter, Std.ExtTreeMap.mem_keys, mem_unvisited_iff, containsState,
    Std.ExtTreeMap.contains_iff_mem]
  simp only [List.mem_singleton, forall_eq, decide_eq_true_eq]
  tauto

/-- The search is exact on the graph whose links are the transitions of the program, whatever that
graph looks like. It lists, in ascending order and each once, the states of the program other than
the terminal state that no chain of transitions, not even the empty one, leads to from the start
state. -/
theorem unreachable_exact (p : Program) (start terminal : String) :
    (p.unreachable start terminal).Pairwise (· < ·) ∧
    ∀ s, s ∈ p.unreachable start terminal ↔ s ∈ p.states ∧ s ≠ terminal ∧
      ¬ReflTransGen (fun a b => ∃ x t, p.get? a x = some t ∧ t.next = b) start s := by
  have hlinks : Links p.rows = fun a b => ∃ x t, p.get? a x = some t ∧ t.next = b := by
    ext a b
    exact links_iff
  refine ⟨(pairwise_keys _).filter _, fun s => ?_⟩
  rw [mem_unreachable_iff, mem_states_iff, Leads, hlinks]

end Program

/-! ## Runs -/

namespace Machine

variable {m : Machine} {x : Configuration}

/-- An applied transition is a link from the state before to the state after. -/
theorem links_of_apply {t : Transition} {cell : Int64} (h : m.action x = .apply t cell) :
    Program.Links m.program.rows x.state t.next :=
  Program.links_iff.2 ⟨_, _, rule_of_apply h, rfl⟩

/-- A chain of links leads from the start state to every state of a run. -/
theorem leads_after (m : Machine) (c : Int64) (tape : Tape) (n : Nat) :
    Program.Leads m.program.rows m.startState (m.after (m.start c tape) n).state := by
  have start : Program.Leads m.program.rows m.startState (m.start c tape).state := .refl
  exact after_induction (P := fun y => Program.Leads m.program.rows m.startState y.state) start
    (fun _ _ _ hy h => hy.tail (links_of_apply h)) n

theorem mem_notices_unreachable {start : String} {states : List String} :
    .statesUnreachable start states ∈ m.notices ↔
      start = m.startState ∧ states = m.program.unreachable m.startState m.terminalState ∧
        states ≠ [] := by
  unfold notices
  dsimp only
  split
  next h => simp [h]
  next h =>
    simp only [List.mem_append, List.mem_singleton, Event.statesUnreachable.injEq, reduceCtorEq,
      or_false]
    constructor
    · rintro ⟨rfl, rfl⟩
      exact ⟨rfl, rfl, h⟩
    · rintro ⟨rfl, rfl, -⟩
      exact ⟨rfl, rfl⟩

/-- A warning of unreachable states is no false alarm. However far a run is stepped and whatever the
steps report, its state is none of those that the search finds unreachable, and so none of those
that the machine was warned of when it was built. -/
theorem warned_states_not_entered (m : Machine) (c : Int64) (tape : Tape) (n : Nat) :
    let x := m.after (m.start c tape) n
    x.state ∉ m.program.unreachable m.startState m.terminalState ∧
      ∀ start states, .statesUnreachable start states ∈ m.notices →
        start = m.startState ∧ x.state ∉ states := by
  intro x
  have hx : x.state ∉ m.program.unreachable m.startState m.terminalState := by
    rw [Program.mem_unreachable_iff]
    rintro ⟨-, -, hlost⟩
    exact hlost (leads_after m c tape n)
  refine ⟨hx, fun start states h => ?_⟩
  obtain ⟨hstart, rfl, -⟩ := mem_notices_unreachable.1 h
  exact ⟨hstart, hx⟩

end Machine

end TapeMachine
