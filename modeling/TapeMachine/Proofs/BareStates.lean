import TapeMachine.Program.Json
import TapeMachine.Proofs.ProgramMap
import TapeMachine.Table.Reader

/-!
# States without transitions

Inserting, collecting entries and reading a table give a state a row together with its first
transition. Reading JSON does not: it keeps an empty object as the row of its state. Such a state is
bare: the program contains it and has no transition for it.

`Origin` lists the ways to a program, and `Origin.Bare` says which states are bare, by the text that
was read and the insertions after it alone (`Origin.bare_iff`). What may be taken for granted of
states and of counts holds of the programs without a bare state, and of no others
(`Origin.contained_iff_transition`).
-/

namespace TapeMachine

/-! ## Objects read as maps -/

/-- The value that counts for a key among members: that of the last member with the key. -/
def Json.lastValue? (key : List Char) : List (Option (List Char) × Json) → Option Json
  | [] => none
  | (k, value) :: rest => (lastValue? key rest).or (if k = some key then some value else none)

/-- A row stays empty if it gets no member. -/
theorem Row.addMembers?_eq_empty_iff {members : List (Option (List Char) × Json)} {row row' : Row}
    (h : addMembers? row members = some row') : row' = ∅ ↔ row = ∅ ∧ members = [] := by
  induction members generalizing row with
  | nil =>
    obtain rfl := Option.some.inj h
    simp
  | cons member rest ih =>
    unfold addMembers? at h
    split at h
    next => contradiction
    next heq =>
      obtain ⟨rfl, rfl⟩ := List.cons.inj heq
      split at h
      next => simp [ih h]
      next => contradiction
    next => contradiction

/-- The empty row is read from the empty object only. -/
theorem Row.ofJson?_eq_empty_iff {j : Json} : ofJson? j = some ∅ ↔ j = .object [] := by
  constructor
  · intro h
    unfold ofJson? at h
    split at h
    next members => rw [((addMembers?_eq_empty_iff h).1 rfl).2]
    next => contradiction
  · rintro rfl
    rfl

namespace Program

/-- The row of a state is read from the value that counts for it, if there is one. -/
theorem rows_addMembers? {members : List (Option (List Char) × Json)} {p q : Program}
    (h : addMembers? p members = some q) (s : String) :
    q.rows[s]? = match Json.lastValue? s.toList members with
      | some value => Row.ofJson? value
      | none => p.rows[s]? := by
  induction members generalizing p with
  | nil =>
    obtain rfl := Option.some.inj h
    rfl
  | cons member rest ih =>
    obtain ⟨_ | key, value⟩ := member
    · simp [addMembers?] at h
    rw [addMembers?] at h
    split at h
    next row hrow =>
      rw [ih h, Json.lastValue?]
      cases Json.lastValue? s.toList rest with
      | some value' => rfl
      | none =>
        rw [Option.none_or, Std.ExtTreeMap.getElem?_insert]
        by_cases hkey : key = s.toList
        · simp [hkey, hrow]
        · have hs : String.ofList key ≠ s := fun hs => hkey (by rw [← hs, String.toList_ofList])
          simp [hkey, hs]
    next => contradiction

/-- The program has a transition for the state. -/
def HasTransition (p : Program) (s : String) : Prop :=
  ∃ x t, p.get? s x = some t

variable {p : Program} {s : String}

theorem HasTransition.containsState (h : p.HasTransition s) : p.containsState s = true := by
  obtain ⟨x, t, ht⟩ := h
  exact containsState_of_get? ht

/-- A row without a transition is empty. -/
theorem row_eq_empty_iff :
    p.rows[s]? = some ∅ ↔ p.containsState s = true ∧ ¬p.HasTransition s := by
  rw [containsState_iff]
  constructor
  · intro h
    refine ⟨⟨_, h⟩, ?_⟩
    rintro ⟨x, t, ht⟩
    simp [get?, h] at ht
  · rintro ⟨⟨row, hrow⟩, hnone⟩
    rw [hrow, Option.some.injEq]
    refine Std.ExtTreeMap.ext_getElem? fun {x} => ?_
    rw [Std.ExtTreeMap.getElem?_empty, Option.eq_none_iff_forall_ne_some]
    exact fun t ht => hnone ⟨x, t, get?_eq_some_iff.2 ⟨row, hrow, ht⟩⟩

theorem hasTransition_insert_iff {s' : String} {x : Char} {t : Transition} :
    (p.insert s x t).HasTransition s' ↔ s = s' ∨ p.HasTransition s' := by
  constructor
  · rintro ⟨x', t', ht⟩
    rw [get?_insert] at ht
    split at ht
    next h => exact .inl h.1
    next => exact .inr ⟨x', t', ht⟩
  · rintro (rfl | ⟨x', t', ht⟩)
    · exact ⟨x, t, by rw [get?_insert, if_pos ⟨rfl, rfl⟩]⟩
    · unfold HasTransition
      simp only [get?_insert]
      by_cases h : s = s' ∧ x = x'
      · exact ⟨x', t, if_pos h⟩
      · exact ⟨x', t', by rw [if_neg h, ht]⟩

/-- Every state of a program of entries has a transition. -/
theorem hasTransition_ofEntries {es : List Entry} (h : (ofEntries es).containsState s = true) :
    (ofEntries es).HasTransition s := by
  induction es using List.reverseRecOn with
  | nil => simp [ofEntries, containsState, empty] at h
  | append_singleton es e ih =>
    rw [ofEntries_concat, containsState_insert, Bool.or_eq_true, decide_eq_true_eq] at h
    rw [ofEntries_concat, hasTransition_insert_iff]
    exact h.imp_right ih

end Program

/-- What a table is read as is made of entries. -/
theorem Table.exists_ofEntries_of_parse {text : String} {p : Program} (h : parse text = .ok p) :
    ∃ es, p = .ofEntries es := by
  unfold parse outcome at h
  split at h
  next => contradiction
  next =>
    split at h
    next => contradiction
    next => exact ⟨_, (Except.ok.inj h).symm⟩

/-! ## Ways to a program -/

/-- How a program came about. -/
inductive Origin where
  /-- From entries, one after the other. -/
  | entries (es : List Entry)
  /-- From the text of a state table. -/
  | table (text : String)
  /-- From a JSON text. -/
  | json (text : String)
  /-- From another program, by binding a transition. -/
  | insert (origin : Origin) (state : String) (symbol : Char) (t : Transition)

namespace Origin

/-- The program that came about, unless a text could not be read. -/
def program? : Origin → Option Program
  | entries es => some (.ofEntries es)
  | table text => (Table.parse text).toOption
  | json text => Program.parseJson? text
  | insert o state symbol t => o.program?.map fun p => p.insert state symbol t

/-- The state was read from JSON with an empty row, and nothing was bound to it since. -/
def Bare : Origin → String → Prop
  | json text, s => ∃ members, Json.parse? text = some (.object members) ∧
      Json.lastValue? s.toList members = some (.object [])
  | insert o state _ _, s => state ≠ s ∧ o.Bare s
  | entries _, _ => False
  | table _, _ => False

variable {o : Origin} {p : Program}

theorem bare_json_iff {text : String} (h : Program.parseJson? text = some p) (s : String) :
    (json text).Bare s ↔ p.rows[s]? = some ∅ := by
  obtain ⟨j, hj, hp⟩ := Option.bind_eq_some_iff.1 h
  unfold Program.ofJson? at hp
  split at hp
  next members =>
    rw [Program.rows_addMembers? hp]
    simp only [Bare, hj, Option.some.injEq, Json.object.injEq, exists_eq_left']
    cases Json.lastValue? s.toList members with
    | none => simp [Program.empty]
    | some value => simp [Row.ofJson?_eq_empty_iff]
  next => contradiction

/-- The bare states are those that the program contains without a transition for them. -/
theorem bare_iff (h : o.program? = some p) (s : String) :
    o.Bare s ↔ p.containsState s = true ∧ ¬p.HasTransition s := by
  induction o generalizing p with
  | entries es =>
    obtain rfl := Option.some.inj h
    simp only [Bare, false_iff, not_and, not_not]
    exact Program.hasTransition_ofEntries
  | table text =>
    cases hp : Table.parse text with
    | error e => simp [program?, hp, Except.toOption] at h
    | ok q =>
      obtain ⟨es, rfl⟩ := Table.exists_ofEntries_of_parse hp
      obtain rfl : Program.ofEntries es = p := by
        simpa [program?, hp, Except.toOption] using h
      simp only [Bare, false_iff, not_and, not_not]
      exact Program.hasTransition_ofEntries
  | json text => rw [bare_json_iff h, Program.row_eq_empty_iff]
  | insert o state symbol t ih =>
    obtain ⟨q, hq, rfl⟩ := Option.map_eq_some_iff.1 h
    rw [Bare, ih hq, Program.containsState_insert, Program.hasTransition_insert_iff,
      Bool.or_eq_true, decide_eq_true_eq]
    tauto

/-! ## What holds without bare states -/

/-- Being empty is the same as counting no transition, unless there are bare states and no
others. -/
theorem isEmpty_iff_transitionCount (h : o.program? = some p) :
    (p.isEmpty = true ↔ p.transitionCount = 0) ↔ (∀ s, ¬o.Bare s) ∨ ∃ s, p.HasTransition s := by
  have hempty : p.isEmpty = true ↔ ∀ s, ¬p.containsState s = true := by
    simp only [Program.isEmpty_iff, Bool.not_eq_true]
  have hcount : p.transitionCount = 0 ↔ ∀ s, ¬p.HasTransition s := by
    simp only [Program.transitionCount_eq_zero_iff, Program.HasTransition, not_exists,
      Option.eq_none_iff_forall_ne_some, ne_eq]
  rw [hempty, hcount]
  constructor
  · intro hlaw
    by_cases hsome : ∃ s, p.HasTransition s
    · exact .inr hsome
    · refine .inl fun s hbare => ?_
      exact hlaw.2 (not_exists.1 hsome) s ((bare_iff h s).1 hbare).1
  · rintro (hnone | ⟨s, hs⟩)
    · refine forall_congr' fun s => not_congr ⟨fun hc => ?_, Program.HasTransition.containsState⟩
      by_contra ht
      exact hnone s ((bare_iff h s).2 ⟨hc, ht⟩)
    · exact ⟨fun hno => absurd hs.containsState (hno s), fun hno => absurd hs (hno s)⟩

/-- A program contains a state if and only if it has a transition for it, unless the state is bare.
So its states are those with a transition if there is no bare state, and only then; and being empty
is the same as counting no transition, unless there are bare states and no others. -/
theorem contained_iff_transition (h : o.program? = some p) :
    (∀ s, (p.containsState s = true ↔ p.HasTransition s) ↔ ¬o.Bare s) ∧
    ((∀ s, s ∈ p.states ↔ p.HasTransition s) ↔ ∀ s, ¬o.Bare s) ∧
    ((p.isEmpty = true ↔ p.transitionCount = 0) ↔
      (∀ s, ¬o.Bare s) ∨ ∃ s, p.HasTransition s) := by
  have hstate : ∀ s, (p.containsState s = true ↔ p.HasTransition s) ↔ ¬o.Bare s := fun s => by
    rw [bare_iff h]
    have := Program.HasTransition.containsState (p := p) (s := s)
    tauto
  refine ⟨hstate, ?_, isEmpty_iff_transitionCount h⟩
  simp only [Program.mem_states_iff, hstate]

/-- A JSON text that gives one state an empty row. -/
def idleText : String := "\x7b\"Q1\":\x7b\x7d\x7d"

theorem parse?_idleText :
    Json.parse? idleText = some (.object [(some ['Q', '1'], .object [])]) := by
  cbv

/-- The program of one state without a transition. -/
def idle : Program :=
  ⟨(∅ : Std.ExtTreeMap String Row).insert "Q1" ∅⟩

theorem program?_idleText : (json idleText).program? = some idle := by
  rw [program?, Program.parseJson?, parse?_idleText]
  rfl

theorem bare_idleText : (json idleText).Bare "Q1" :=
  ⟨_, parse?_idleText, rfl⟩

theorem get?_idle (s : String) (x : Char) : idle.get? s x = none := by
  by_cases hs : "Q1" = s <;> simp [idle, Program.get?, hs]

/-- The state of `idleText` has no transition, but the program contains it, and is not empty. -/
theorem contained_without_transition :
    ∃ p, (json idleText).program? = some p ∧
      ¬(p.containsState "Q1" = true ↔ ∃ x t, p.get? "Q1" x = some t) ∧
      ¬(∀ s, s ∈ p.states ↔ ∃ x t, p.get? s x = some t) ∧
      ¬(p.isEmpty = true ↔ p.transitionCount = 0) := by
  obtain ⟨hcontains, hno⟩ := (bare_iff program?_idleText "Q1").1 bare_idleText
  refine ⟨idle, program?_idleText, fun law => hno (law.1 hcontains), fun law => ?_, fun law => ?_⟩
  · exact hno ((law "Q1").1 (Program.mem_states_iff.2 hcontains))
  · have hcount := Program.transitionCount_eq_zero_iff.2 get?_idle
    have hempty := Program.isEmpty_iff.1 (law.2 hcount) "Q1"
    rw [hcontains] at hempty
    cases hempty

/-- The origin of a program that has a bare state and a state with a transition. -/
def halfIdle : Origin :=
  insert (json idleText) "Q2" '1' ⟨"Q0", '1', .right⟩

/-- Next to a state with a transition the bare state is still contained, but no longer stands in
the way of the counts. -/
theorem contained_iff_transition_halfIdle :
    ∃ p, halfIdle.program? = some p ∧
      ¬(p.containsState "Q1" = true ↔ p.HasTransition "Q1") ∧
      ¬(∀ s, s ∈ p.states ↔ p.HasTransition s) ∧
      (p.isEmpty = true ↔ p.transitionCount = 0) := by
  have h : halfIdle.program? = some (idle.insert "Q2" '1' ⟨"Q0", '1', .right⟩) :=
    Option.map_eq_some_iff.2 ⟨_, program?_idleText, rfl⟩
  have hbare : halfIdle.Bare "Q1" := ⟨by decide, bare_idleText⟩
  obtain ⟨hstate, hstates, hcount⟩ := contained_iff_transition h
  refine ⟨_, h, fun law => (hstate "Q1").1 law hbare, fun law => hstates.1 law "Q1" hbare,
    hcount.2 (.inr ⟨"Q2", ?_⟩)⟩
  exact Program.hasTransition_insert_iff.2 (.inl rfl)

end Origin

end TapeMachine
