import TapeMachine.Proofs.FieldSpec

/-!
# How a field is divided

A mark divides a field into the text before it and the text after it (`Divided`). Neither is empty,
neither holds the mark again, and no mark that is looked for before occurs in the field. The mark is
then the one that `Direction.ofField?` finds and the two texts are the pieces between its places
(`divided_iff`), so there is one division at most (`Divided.unique`).

A field holds a transition exactly if it can be divided. It is refused for want of a mark, or
because the mark that is found does not divide it. `Transition.ofField_grammar` puts this together.
-/

namespace TapeMachine

/-- The mark of a direction divides the field into two texts that are not empty. Neither holds the
mark, and the field holds no mark that is looked for before. -/
structure Divided (field symbol : String) (d : Direction) (state : String) : Prop where
  whole : field = symbol ++ String.singleton d.separator ++ state
  symbol_ne : symbol ≠ ""
  state_ne : state ≠ ""
  mark_not_mem_symbol : d.separator ∉ symbol.toList
  mark_not_mem_state : d.separator ∉ state.toList
  first : ∀ e ∈ d.ahead, e.separator ∉ field.toList

variable {field symbol symbol' state state' : String} {d d' : Direction}

/-- A field is divided by the mark that is found in it, if that leaves two pieces with something in
them. -/
theorem divided_iff :
    Divided field symbol d state ↔ Direction.ofField? field.toList = some d ∧
      field.toList.splitOn d.separator = [symbol.toList, state.toList] ∧
      symbol ≠ "" ∧ state ≠ "" := by
  rw [Direction.ofField?_eq_some_iff, Text.splitOn_eq_pair_iff]
  have hwhole : field = symbol ++ String.singleton d.separator ++ state ↔
      field.toList = symbol.toList ++ d.separator :: state.toList := by
    rw [← String.toList_inj]
    simp
  constructor
  · intro h
    have heq := hwhole.1 h.whole
    exact ⟨⟨by simp [heq], h.first⟩, ⟨heq, h.mark_not_mem_symbol, h.mark_not_mem_state⟩,
      h.symbol_ne, h.state_ne⟩
  · rintro ⟨⟨-, hfirst⟩, ⟨heq, hsymbol, hstate⟩, hne, hne'⟩
    exact ⟨hwhole.2 heq, hne, hne', hsymbol, hstate, hfirst⟩

/-- A field can be divided in one way at most. -/
theorem Divided.unique (h : Divided field symbol d state) (h' : Divided field symbol' d' state') :
    symbol = symbol' ∧ d = d' ∧ state = state' := by
  obtain ⟨hmark, hpieces, -, -⟩ := divided_iff.1 h
  obtain ⟨hmark', hpieces', -, -⟩ := divided_iff.1 h'
  obtain rfl : d = d' := Option.some.inj (hmark.symm.trans hmark')
  have heq : [symbol.toList, state.toList] = [symbol'.toList, state'.toList] :=
    hpieces.symm.trans hpieces'
  simp only [List.cons.injEq, and_true, String.toList_inj] at heq
  exact ⟨heq.1, rfl, heq.2⟩

namespace Direction

theorem ofField?_eq_none_iff {f : List Char} :
    ofField? f = none ↔ ∀ d : Direction, d.separator ∉ f := by
  rw [ofField?, List.find?_eq_none]
  constructor
  · intro h d
    have hd : d ∈ priority := by cases d <;> simp [priority]
    simpa using h d hd
  · intro h d _
    simpa using h d

theorem exists_separator_mem_iff {f : List Char} :
    (∃ d : Direction, d.separator ∈ f) ↔ '>' ∈ f ∨ '<' ∈ f ∨ '.' ∈ f := by
  constructor
  · rintro ⟨d, hd⟩
    cases d with
    | right => exact .inl hd
    | left => exact .inr (.inl hd)
    | stay => exact .inr (.inr hd)
  · rintro (hd | hd | hd)
    · exact ⟨right, hd⟩
    · exact ⟨left, hd⟩
    · exact ⟨stay, hd⟩

end Direction

namespace Transition

variable {t : Transition}

/-- A divided field holds the transition that its parts name. -/
theorem ofField_of_divided (h : Divided field symbol d state) : ∃ c rest,
    symbol.toList = c :: rest ∧ ofField field = .ok ⟨"Q" ++ state, symbolOfMark c, d⟩ := by
  obtain ⟨hmark, hpieces, hsymbol, hstate⟩ := divided_iff.1 h
  obtain ⟨c, rest, hc⟩ : ∃ c rest, symbol.toList = c :: rest :=
    List.exists_cons_of_ne_nil (by simpa using hsymbol)
  obtain ⟨digit, digits, hd⟩ : ∃ digit digits, state.toList = digit :: digits :=
    List.exists_cons_of_ne_nil (by simpa using hstate)
  have hnext : String.ofList (statePrefix :: digit :: digits) = "Q" ++ state := by
    rw [← String.toList_inj]
    simp [hd, statePrefix]
  refine ⟨c, rest, hc, ?_⟩
  rw [hc, hd] at hpieces
  rw [ofField, hmark]
  simp only [hpieces, hnext]

theorem exists_divided_of_ofField (h : ofField field = .ok t) :
    ∃ symbol state, Divided field symbol t.direction state := by
  obtain ⟨symbol, rest, digit, digits, hf, hsymbol, hstate, hahead, -⟩ := ofField_eq_ok_iff.1 h
  refine ⟨String.ofList (symbol :: rest), String.ofList (digit :: digits), ?_⟩
  exact {
    whole := by rw [← String.toList_inj, hf]; simp
    symbol_ne := by simp
    state_ne := by simp
    mark_not_mem_symbol := by rwa [String.toList_ofList]
    mark_not_mem_state := by rwa [String.toList_ofList]
    first := hahead }

/-- The fields that hold a transition are those that can be divided. -/
theorem exists_ofField_iff :
    (∃ t, ofField field = .ok t) ↔ ∃ symbol d state, Divided field symbol d state := by
  constructor
  · rintro ⟨t, h⟩
    obtain ⟨symbol, state, hdivided⟩ := exists_divided_of_ofField h
    exact ⟨symbol, _, state, hdivided⟩
  · rintro ⟨symbol, d, state, hdivided⟩
    obtain ⟨c, rest, -, hok⟩ := ofField_of_divided hdivided
    exact ⟨_, hok⟩

/-- A field without a mark is refused for that reason. -/
theorem ofField_of_unmarked (h : ∀ d : Direction, d.separator ∉ field.toList) :
    ofField field = .error (.parseTransition field noDirection) := by
  rw [ofField, Direction.ofField?_eq_none_iff.2 h]

/-- A field with a mark that cannot be divided is refused for that reason. -/
theorem ofField_of_undivided (hmark : d.separator ∈ field.toList)
    (h : ¬∃ symbol d state, Divided field symbol d state) :
    ofField field = .error (.parseTransition field notTwoParts) := by
  obtain ⟨found, hfound⟩ : ∃ found, Direction.ofField? field.toList = some found :=
    Option.ne_none_iff_exists'.1 fun hnone => Direction.ofField?_eq_none_iff.1 hnone d hmark
  rw [ofField, hfound]
  simp only
  split
  next first rest digit digits hpieces =>
    have hdivided : Divided field (String.ofList (first :: rest)) found
        (String.ofList (digit :: digits)) := divided_iff.2 ⟨hfound, by simpa using hpieces, by simp⟩
    exact absurd ⟨_, _, _, hdivided⟩ h
  next => rfl

theorem ofField_eq_noDirection_iff :
    ofField field = .error (.parseTransition field noDirection) ↔
      ¬∃ d : Direction, d.separator ∈ field.toList := by
  constructor
  · rintro h ⟨d, hd⟩
    by_cases hdivided : ∃ symbol d state, Divided field symbol d state
    · obtain ⟨t, ht⟩ := exists_ofField_iff.2 hdivided
      simp [ht] at h
    · simp [ofField_of_undivided hd hdivided, noDirection, notTwoParts] at h
  · exact fun h => ofField_of_unmarked (not_exists.1 h)

theorem ofField_eq_notTwoParts_iff :
    ofField field = .error (.parseTransition field notTwoParts) ↔
      (∃ d : Direction, d.separator ∈ field.toList) ∧
        ¬∃ symbol d state, Divided field symbol d state := by
  constructor
  · refine fun h => ⟨Classical.byContradiction fun hmark => ?_, ?_⟩
    · simp [ofField_of_unmarked (not_exists.1 hmark), noDirection, notTwoParts] at h
    · intro hdivided
      obtain ⟨t, ht⟩ := exists_ofField_iff.2 hdivided
      simp [ht] at h
  · rintro ⟨⟨d, hd⟩, hdivided⟩
    exact ofField_of_undivided hd hdivided

/-- The grammar of fields. A field holds a transition exactly if the mark of its direction divides
it: what follows the mark is the next state without its `Q`, and the first character before the mark
is what is written, `_` for the blank. So every field that can be divided holds a transition, and
there is one division at most. A field that holds none is refused because it has no mark, or else
because it cannot be divided. -/
theorem ofField_grammar (field : String) :
    (∀ t, ofField field = .ok t ↔ ∃ symbol state, Divided field symbol t.direction state ∧
      t.next = "Q" ++ state ∧
      ∃ c rest, symbol.toList = c :: rest ∧ t.write = if c = '_' then ' ' else c) ∧
    ((∃ t, ofField field = .ok t) ↔ ∃ symbol d state, Divided field symbol d state) ∧
    (∀ symbol symbol' d d' state state', Divided field symbol d state →
      Divided field symbol' d' state' → symbol = symbol' ∧ d = d' ∧ state = state') ∧
    (ofField field = .error (.parseTransition field "no direction found") ↔
      '>' ∉ field.toList ∧ '<' ∉ field.toList ∧ '.' ∉ field.toList) ∧
    (ofField field = .error (.parseTransition field "expected <symbol><direction><state>") ↔
      ('>' ∈ field.toList ∨ '<' ∈ field.toList ∨ '.' ∈ field.toList) ∧
        ¬∃ symbol d state, Divided field symbol d state) := by
  refine ⟨fun t => ⟨fun h => ?_, ?_⟩, exists_ofField_iff, fun _ _ _ _ _ _ h h' => h.unique h',
    ?_, ?_⟩
  · obtain ⟨symbol, state, hdivided⟩ := exists_divided_of_ofField h
    obtain ⟨c, rest, hc, hok⟩ := ofField_of_divided hdivided
    rw [h, Except.ok.injEq] at hok
    exact ⟨symbol, state, hdivided, by rw [hok], c, rest, hc, by rw [hok]; rfl⟩
  · rintro ⟨symbol, state, hdivided, hnext, c, rest, hc, hwrite⟩
    obtain ⟨c', rest', hc', hok⟩ := ofField_of_divided hdivided
    obtain ⟨rfl, rfl⟩ := List.cons.inj (hc.symm.trans hc')
    have hwrite' : t.write = symbolOfMark c := hwrite
    rw [hok, ← hnext, ← hwrite']
  · rw [← not_or, ← not_or, ← Direction.exists_separator_mem_iff]
    exact ofField_eq_noDirection_iff
  · rw [← Direction.exists_separator_mem_iff]
    exact ofField_eq_notTwoParts_iff

/-- Where the marks stand does not matter: `>` is looked for first, and the text before it may hold
others. -/
example : ofField "1<2>3" = .ok ⟨"Q3", '1', .right⟩ := by cbv

end Transition

end TapeMachine
