import TapeMachine.Program.Basic

/-!
# Reachability of states

A transition links the state of its row to the state it enters. `Program.unreachable` lists the
states that no chain of links leads to from the start state. The search takes the rows it comes
to out of the table; what is left in the end was never reached.
-/

namespace TapeMachine

/-- The states that the transitions of a row enter. -/
def Row.successors (row : Row) : List String :=
  row.values.map Transition.next

namespace Program

/-- The rows that a search from the given states does not come to. A row that the search comes
to is taken out, and the search goes on with the states that its transitions enter. -/
def unvisited (rows : Std.ExtTreeMap String Row) : List String → Std.ExtTreeMap String Row
  | [] => rows
  | s :: waiting =>
    if h : s ∈ rows then
      unvisited (rows.erase s) (Row.successors rows[s] ++ waiting)
    else
      unvisited rows waiting
termination_by waiting => (rows.size, waiting.length)
decreasing_by
  · have nonempty : rows.size ≠ 0 := fun h0 => by
      rw [Std.ExtTreeMap.eq_empty_iff_size_eq_zero.2 h0] at h
      exact Std.ExtTreeMap.not_mem_empty h
    apply Prod.Lex.left
    rw [Std.ExtTreeMap.size_erase, if_pos (Std.ExtTreeMap.contains_iff_mem.2 h)]
    omega
  · exact Prod.Lex.right _ (Nat.lt_succ_self _)

/-- The states of the program, other than the terminal state, that no chain of transitions
leads to from the start state, ascending. -/
def unreachable (p : Program) (start terminal : String) : List String :=
  (unvisited p.rows [start]).keys.filter fun s => s ≠ terminal

end Program

end TapeMachine
