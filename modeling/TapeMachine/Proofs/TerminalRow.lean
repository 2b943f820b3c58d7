import TapeMachine.Proofs.Reachability

/-!
# Rows of the terminal state

A run ends in the terminal state, so it goes only along chains of which no link leaves that state
(`Program.LeadsUpTo`, `Machine.leadsUpTo_after`). A program may have a row for the terminal state
all the same, and the search for unreachable states follows the links of that row like any others.
What it lists is therefore short of the states that no such chain leads to: it leaves out those that
only the terminal state leads on to. `Program.overlooked_behind_terminal` says which they are, and
when there are none.
-/

open Relation

namespace TapeMachine

/-! ## Chains that stop at the terminal state -/

namespace Program

variable {p : Program} {terminal s t : String}

/-- A chain of links, none of which leaves the terminal state, leads from one state to another. -/
def LeadsUpTo (p : Program) (terminal : String) : String → String → Prop :=
  ReflTransGen fun a b => a ≠ terminal ∧ ∃ x t, p.get? a x = some t ∧ t.next = b

theorem LeadsUpTo.leads (h : p.LeadsUpTo terminal s t) : Leads p.rows s t :=
  ReflTransGen.mono (fun _ _ hlink => links_iff.2 hlink.2) _ _ h

/-- A chain stops short of leaving the terminal state, or else it comes to the terminal state and
leads on from there. -/
theorem leads_iff_leadsUpTo (terminal : String) : Leads p.rows s t ↔
    p.LeadsUpTo terminal s t ∨ p.LeadsUpTo terminal s terminal ∧ Leads p.rows terminal t := by
  constructor
  · intro h
    induction h with
    | refl => exact .inl .refl
    | @tail b c _ hlink ih =>
      rcases ih with hb | ⟨hterminal, hb⟩
      · by_cases hne : b = terminal
        -- the chain comes to the terminal state for the first time here
        · subst hne
          exact .inr ⟨hb, .single hlink⟩
        · exact .inl (hb.tail ⟨hne, links_iff.1 hlink⟩)
      · exact .inr ⟨hterminal, hb.tail hlink⟩
  · rintro (h | ⟨hterminal, h⟩)
    · exact h.leads
    · exact hterminal.leads.trans h

end Program

/-- A run goes along links, and not on from the terminal state. -/
theorem Machine.leadsUpTo_after (m : Machine) (c : Int64) (tape : Tape) (n : Nat) :
    m.program.LeadsUpTo m.terminalState m.startState (m.after (m.start c tape) n).state := by
  have start : m.program.LeadsUpTo m.terminalState m.startState (m.start c tape).state := .refl
  refine after_induction
    (P := fun y => m.program.LeadsUpTo m.terminalState m.startState y.state) start
    (fun y t cell hy ha => ?_) n
  have running : y.state ≠ m.terminalState := Applies.running ⟨t, cell, ha⟩
  exact hy.tail ⟨running, y.read, t, rule_of_apply ha, rfl⟩

/-! ## What the search leaves out -/

namespace Program

/-- The search follows the row of the terminal state, and a run does not: it comes only to states
that chains up to the terminal state lead to. Of the other states, the dead ones, the search leaves
out exactly those that the terminal state leads on to, and these only if the terminal state is
itself come to. So it lists every dead state if and only if the terminal state, where it is come to,
leads on to none. -/
theorem overlooked_behind_terminal (p : Program) (start terminal : String) :
    (∀ s, s ∈ p.unreachable start terminal ↔
      (s ∈ p.states ∧ s ≠ terminal ∧ ¬p.LeadsUpTo terminal start s) ∧
        ¬(p.LeadsUpTo terminal start terminal ∧ Leads p.rows terminal s)) ∧
    ((∀ s ∈ p.states, s ≠ terminal → ¬p.LeadsUpTo terminal start s →
        s ∈ p.unreachable start terminal) ↔
      (p.LeadsUpTo terminal start terminal → ∀ s ∈ p.states, Leads p.rows terminal s →
        s = terminal ∨ p.LeadsUpTo terminal start s)) ∧
    (∀ m : Machine, m.program = p → m.startState = start → m.terminalState = terminal →
      ∀ c tape n, p.LeadsUpTo terminal start (m.after (m.start c tape) n).state) := by
  have hlisted : ∀ s, s ∈ p.unreachable start terminal ↔
      (s ∈ p.states ∧ s ≠ terminal ∧ ¬p.LeadsUpTo terminal start s) ∧
        ¬(p.LeadsUpTo terminal start terminal ∧ Leads p.rows terminal s) := fun s => by
    rw [mem_unreachable_iff, mem_states_iff, leads_iff_leadsUpTo terminal, not_or]
    tauto
  refine ⟨hlisted, ?_, ?_⟩
  · simp only [hlisted]
    constructor
    · intro hall hterminal s hs hlead
      by_contra hnew
      rw [not_or] at hnew
      exact (hall s hs hnew.1 hnew.2).2 ⟨hterminal, hlead⟩
    · intro hnothing s hs hne hdead
      refine ⟨⟨hs, hne, hdead⟩, fun ⟨hterminal, hlead⟩ => ?_⟩
      exact (hnothing hterminal s hs hlead).elim hne hdead
  · rintro m rfl rfl rfl c tape n
    exact m.leadsUpTo_after c tape n

/-- Three states, of which the terminal state `Q0` leads on to `Q2`. -/
def onward : List Entry :=
  [⟨"Q1", '1', ⟨"Q0", '1', .right⟩⟩, ⟨"Q0", '1', ⟨"Q2", '1', .right⟩⟩,
    ⟨"Q2", '1', ⟨"Q0", '1', .right⟩⟩]

theorem mem_entries_onward {e : Entry} : e ∈ (ofEntries onward).entries ↔ e ∈ onward :=
  mem_entries_ofEntries (by decide)

/-- From `Q1` only `Q1` and `Q0` are come to without leaving `Q0`. -/
theorem leadsUpTo_onward {s : String} (h : (ofEntries onward).LeadsUpTo "Q0" "Q1" s) :
    s = "Q1" ∨ s = "Q0" := by
  induction h with
  | refl => exact .inl rfl
  | @tail b _ _ hlink ih =>
    obtain ⟨hne, x, t, ht, rfl⟩ := hlink
    obtain rfl : b = "Q1" := ih.resolve_right hne
    have hentry := mem_entries_onward.1 (mem_entries_iff (e := ⟨"Q1", x, t⟩).2 ht)
    simp_all [onward]

theorem links_onward {s t : String} {x : Char} {d : Direction}
    (h : ⟨s, x, ⟨t, x, d⟩⟩ ∈ onward) : Links (ofEntries onward).rows s t :=
  links_iff.2 ⟨x, _, mem_entries_iff.1 (mem_entries_onward.2 h), rfl⟩

/-- The program of `onward` is fit for a machine. Its state `Q2` is dead and not listed. -/
theorem dead_state_overlooked :
    (ofEntries onward).violation? (.ofString "1") "Q0" = none ∧
      ¬∀ s ∈ (ofEntries onward).states, s ≠ "Q0" → ¬(ofEntries onward).LeadsUpTo "Q0" "Q1" s →
        s ∈ (ofEntries onward).unreachable "Q1" "Q0" := by
  constructor
  · rw [violation?_eq_none_iff]
    simp only [mem_entries_onward]
    simp [onward, Alphabet.mem_ofString, containsState_ofEntries]
  · intro law
    have hstate : "Q2" ∈ (ofEntries onward).states := by
      rw [mem_states_iff, containsState_ofEntries]
      simp [onward]
    have hdead : ¬(ofEntries onward).LeadsUpTo "Q0" "Q1" "Q2" := fun h => by
      simpa using leadsUpTo_onward h
    have hfirst : Links (ofEntries onward).rows "Q1" "Q0" :=
      links_onward (x := '1') (d := .right) (by simp [onward])
    have hsecond : Links (ofEntries onward).rows "Q0" "Q2" :=
      links_onward (x := '1') (d := .right) (by simp [onward])
    have hlisted := mem_unreachable_iff.1 (law "Q2" hstate (by decide) hdead)
    exact hlisted.2.2 (.head hfirst (.single hsecond))

end Program

end TapeMachine
