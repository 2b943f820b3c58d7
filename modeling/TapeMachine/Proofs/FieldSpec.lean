import TapeMachine.Proofs.Pieces
import TapeMachine.Table.Field

/-!
# The grammar of fields

The mark that divides a field is the first of `>`, `<`, `.` that occurs in it, so a field divided
by a direction's mark holds none of the marks that are looked for before (`Direction.ahead`).
`Transition.ofField_eq_ok_iff` says which fields hold which transition, and
`Transition.ofField_field_iff` which transitions are read back from the field they are written as.
All that were read from a field are among them.
-/

namespace TapeMachine

namespace Direction

/-- The directions whose marks are looked for before that of `d`. -/
def ahead : Direction → List Direction
  | right => []
  | left => [right]
  | stay => [right, left]

theorem ofField?_eq_some_iff {f : List Char} {d : Direction} :
    ofField? f = some d ↔ d.separator ∈ f ∧ ∀ e ∈ d.ahead, e.separator ∉ f := by
  simp only [ofField?, priority, List.find?_cons, List.find?_nil, List.contains_eq_mem]
  cases d <;> by_cases hr : right.separator ∈ f <;> by_cases hl : left.separator ∈ f <;>
    by_cases hs : stay.separator ∈ f <;> simp [ahead, hr, hl, hs]

/-- The marks up to that of a direction, in the order in which they are looked for. -/
def marksUpTo : Direction → List Char
  | right => ['>']
  | left => ['>', '<']
  | stay => ['>', '<', '.']

theorem mem_marksUpTo_iff {d : Direction} {c : Char} :
    c ∈ d.marksUpTo ↔ ∃ e ∈ d :: d.ahead, e.separator = c := by
  cases d <;> simp [marksUpTo, ahead, separator, eq_comm, or_comm, or_assoc]

/-- The marks up to that of `d`, one by one. -/
theorem forall_ne_separator_iff {d : Direction} {c : Char} :
    (∀ e ∈ d :: d.ahead, c ≠ e.separator) ↔
      c ≠ '>' ∧ (c = '<' → d = right) ∧ (c = '.' → d = right ∨ d = left) := by
  cases d <;> simp [ahead, separator, and_comm, and_assoc]

end Direction

theorem symbolOfMark_markOfSymbol {c : Char} (h : c ≠ blankMark) :
    symbolOfMark (markOfSymbol c) = c := by
  unfold symbolOfMark markOfSymbol
  by_cases hc : c = blank <;> simp [hc, h]

theorem markOfSymbol_ne {c a : Char} (hc : c ≠ a) (ha : a ≠ blankMark) : markOfSymbol c ≠ a := by
  unfold markOfSymbol
  split
  · exact ha.symm
  · exact hc

theorem symbolOfMark_ne_blankMark (c : Char) : symbolOfMark c ≠ blankMark := by
  unfold symbolOfMark
  split
  · decide
  · assumption

/-- What is written for a written character: the character, unless it stands for the blank. -/
theorem markOfSymbol_symbolOfMark_cases (c : Char) :
    markOfSymbol (symbolOfMark c) = blankMark ∨ markOfSymbol (symbolOfMark c) = c := by
  unfold markOfSymbol symbolOfMark
  by_cases hmark : c = blankMark
  · simp [hmark]
  · by_cases hc : c = blank <;> simp [hmark, hc]

namespace Transition

variable {t : Transition}

/-- A field holds a transition if its mark divides it into two parts that are not empty and hold
the mark no more, and no mark that is looked for before occurs in it. -/
theorem ofField_eq_ok_iff {field : String} :
    ofField field = .ok t ↔ ∃ symbol rest digit digits,
      field.toList = (symbol :: rest) ++ t.direction.separator :: digit :: digits ∧
      t.direction.separator ∉ symbol :: rest ∧ t.direction.separator ∉ digit :: digits ∧
      (∀ e ∈ t.direction.ahead, e.separator ∉ field.toList) ∧
      t = ⟨String.ofList (statePrefix :: digit :: digits), symbolOfMark symbol, t.direction⟩ := by
  unfold ofField
  constructor
  · intro h
    split at h
    next => cases h
    next d hd =>
      split at h
      next symbol rest digit digits hsplit =>
        cases h
        obtain ⟨hf, hs, hn⟩ := Text.splitOn_eq_pair_iff.1 hsplit
        have hahead := (Direction.ofField?_eq_some_iff.1 hd).2
        exact ⟨symbol, rest, digit, digits, hf, hs, hn, hahead, rfl⟩
      next => cases h
  · rintro ⟨symbol, rest, digit, digits, hf, hs, hn, ha, ht⟩
    have hd : Direction.ofField? field.toList = some t.direction :=
      Direction.ofField?_eq_some_iff.2 ⟨by rw [hf]; simp, ha⟩
    rw [hd]
    simp only [Text.splitOn_eq_pair_iff.2 ⟨hf, hs, hn⟩]
    rw [ht]

/-- A field writes no symbol that it does not hold, apart from the blank, and not its own mark. -/
theorem write_ne_of_ofField {field : String} (h : ofField field = .ok t) {c : Char}
    (hc : c ≠ blank) (hout : c = t.direction.separator ∨ c ∉ field.toList) : t.write ≠ c := by
  obtain ⟨symbol, rest, digit, digits, hf, hs, -, -, ht⟩ := ofField_eq_ok_iff.1 h
  rw [ht]
  intro hw
  change symbolOfMark symbol = c at hw
  rw [symbolOfMark] at hw
  split at hw
  · exact hc hw.symm
  · subst hw
    rcases hout with heq | hout
    · exact hs (by simp [← heq])
    · exact hout (by simp [hf])

/-- A field writes neither the mark that divides it nor one that is looked for before. -/
theorem write_ne_separator_of_ofField {field : String} (h : ofField field = .ok t) :
    ∀ e ∈ t.direction :: t.direction.ahead, t.write ≠ e.separator := by
  intro e he
  have hblank : e.separator ≠ blank := by cases e <;> decide
  obtain ⟨symbol, rest, digit, digits, -, -, -, hahead, -⟩ := ofField_eq_ok_iff.1 h
  rcases List.mem_cons.1 he with rfl | he
  · exact write_ne_of_ofField h hblank (.inl rfl)
  · exact write_ne_of_ofField h hblank (.inr (hahead e he))

theorem write_ne_blankMark_of_ofField {field : String} (h : ofField field = .ok t) :
    t.write ≠ blankMark := by
  obtain ⟨symbol, rest, digit, digits, -, -, -, -, ht⟩ := ofField_eq_ok_iff.1 h
  rw [ht]
  exact symbolOfMark_ne_blankMark symbol

theorem toList_field {digits : List Char} (hn : t.next.toList = statePrefix :: digits) :
    t.field.toList = markOfSymbol t.write :: t.direction.separator :: digits := by
  have hdigits : stateDigits t.next = digits := by simp [stateDigits, hn]
  rw [field, String.toList_ofList, hdigits]

/-- A written field is read back if the transition does not write `_`, its next state is a `Q` and
more, and neither part holds the mark of its direction or one that is looked for before. -/
theorem ofField_field {digit : Char} {digits : List Char} (hw : t.write ≠ blankMark)
    (hn : t.next.toList = statePrefix :: digit :: digits)
    (hmarks : ∀ e ∈ t.direction :: t.direction.ahead,
      t.write ≠ e.separator ∧ e.separator ∉ digit :: digits) :
    ofField t.field = .ok t := by
  have hmark : ∀ e : Direction, t.write ≠ e.separator → e.separator ≠ markOfSymbol t.write := by
    intro e he
    have hne : e.separator ≠ blankMark := by cases e <;> decide
    exact (markOfSymbol_ne he hne).symm
  have hfield := toList_field hn
  refine ofField_eq_ok_iff.2 ⟨markOfSymbol t.write, [], digit, digits, hfield, ?_, ?_, ?_, ?_⟩
  · have := hmark _ (hmarks t.direction (by simp)).1
    simpa using this
  · exact (hmarks t.direction (by simp)).2
  · intro e he
    obtain ⟨hwe, hde⟩ := hmarks e (by simp [he])
    rw [hfield]
    have hne : e.separator ≠ t.direction.separator := fun heq => by
      rw [Direction.separator_injective heq] at he
      cases hd : t.direction <;> simp [hd, Direction.ahead] at he
    simpa [hmark e hwe, hne] using hde
  · rw [symbolOfMark_markOfSymbol hw, ← hn, String.ofList_toList]

/-- The field written for a transition that was read is made of `_` and characters of the field it
was read from. -/
theorem mem_of_mem_field {field : String} (h : ofField field = .ok t) {a : Char}
    (ha : a ∈ t.field.toList) : a = blankMark ∨ a ∈ field.toList := by
  obtain ⟨symbol, rest, digit, digits, hf, -, -, -, ht⟩ := ofField_eq_ok_iff.1 h
  have hn : t.next.toList = statePrefix :: digit :: digits := by rw [ht, String.toList_ofList]
  have hw : t.write = symbolOfMark symbol := by rw [ht]
  rw [toList_field hn, hw] at ha
  rw [hf]
  rcases List.mem_cons.1 ha with rfl | ha
  · rcases markOfSymbol_symbolOfMark_cases symbol with hm | hm
    · exact .inl hm
    · exact .inr (by simp [hm])
  · exact .inr (List.mem_append_right _ ha)

/-- A field enters a state whose name is a `Q` and more, free of the mark that divides the field and
of those that are looked for before. -/
theorem exists_next_of_ofField {field : String} (h : ofField field = .ok t) : ∃ digit digits,
    t.next.toList = statePrefix :: digit :: digits ∧
      ∀ e ∈ t.direction :: t.direction.ahead, e.separator ∉ digit :: digits := by
  obtain ⟨symbol, rest, digit, digits, hf, -, hdigits, hahead, ht⟩ := ofField_eq_ok_iff.1 h
  refine ⟨digit, digits, by rw [ht, String.toList_ofList], fun e he => ?_⟩
  rcases List.mem_cons.1 he with rfl | he
  · exact hdigits
  · intro hmem
    refine hahead e he ?_
    rw [hf]
    exact List.mem_append_right _ (List.mem_cons_of_mem _ hmem)

/-- A transition that was read is read back from the field it is written as. -/
theorem ofField_field_of_ofField {field : String} (h : ofField field = .ok t) :
    ofField t.field = .ok t := by
  obtain ⟨digit, digits, hn, hdigits⟩ := exists_next_of_ofField h
  exact ofField_field (write_ne_blankMark_of_ofField h) hn fun e he =>
    ⟨write_ne_separator_of_ofField h e he, hdigits e he⟩

/-- A transition is read back from the field it is written as if and only if its next state is a `Q`
and more, it does not write `_`, and neither what it writes nor what follows the `Q` holds the mark
of its direction or one that is looked for before. Those are the transitions that fields hold: one
that is read from any field is read back from its own. -/
theorem ofField_field_iff (t : Transition) :
    (ofField t.field = .ok t ↔ t.write ≠ '_' ∧ ∃ d : String, d ≠ "" ∧ t.next = "Q" ++ d ∧
      ∀ c ∈ t.direction.marksUpTo, t.write ≠ c ∧ c ∉ d.toList) ∧
    ((∃ field, ofField field = .ok t) ↔ ofField t.field = .ok t) := by
  refine ⟨?_, fun ⟨field, h⟩ => ofField_field_of_ofField h, fun h => ⟨t.field, h⟩⟩
  simp only [Direction.mem_marksUpTo_iff, forall_exists_index, and_imp, forall_apply_eq_imp_iff₂]
  constructor
  · intro h
    obtain ⟨digit, digits, hn, hdigits⟩ := exists_next_of_ofField h
    refine ⟨write_ne_blankMark_of_ofField h, String.ofList (digit :: digits), by simp, ?_, ?_⟩
    · rw [← String.toList_inj, hn]
      simp [statePrefix]
    · intro e he
      rw [String.toList_ofList]
      exact ⟨write_ne_separator_of_ofField h e he, hdigits e he⟩
  · rintro ⟨hwrite, d, hne, hn, hmarks⟩
    obtain ⟨digit, digits, hd⟩ : ∃ digit digits, d.toList = digit :: digits :=
      List.exists_cons_of_ne_nil (by simpa using hne)
    rw [hd] at hmarks
    exact ofField_field hwrite (by simp [hn, hd, statePrefix]) hmarks

end Transition

end TapeMachine
