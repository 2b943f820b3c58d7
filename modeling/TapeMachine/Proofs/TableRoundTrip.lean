import TapeMachine.Proofs.FieldSpec
import TapeMachine.Proofs.TableText

/-!
# The round trip of state tables

Of a program that was read from a text its own rows and fields are known (`Meaning.exists_isCell`,
`Meaning.exists_get?`). So if all its states are numbered, a program survives being written and read
exactly if it has a transition, every state of it has one, no symbol is lost at the head of its row,
and no transition writes a symbol that its field cannot begin with (`read_table_iff`).
-/

namespace TapeMachine

/-- The state is a `Q` followed by one or more digits. -/
def Numbered (s : String) : Prop :=
  ∃ digit digits, s.toList = statePrefix :: digit :: digits ∧
    ∀ c ∈ digit :: digits, c.isDigit = true

/-- A field can begin with the symbol that is written: it is no `_`, nor does it end the field or
divide it before its mark does. -/
structure Transition.Writable (t : Transition) : Prop where
  blankMark : t.write ≠ '_'
  tab : t.write ≠ '\t'
  newline : t.write ≠ '\n'
  right : t.write ≠ '>'
  left : t.write = '<' → t.direction = .right
  stay : t.write = '.' → t.direction = .right ∨ t.direction = .left

namespace Table

/-! ## Programs that were read -/

section

variable {text : String} {names : List String} {c : Cell} {a : Char} {p : Program} {s : String}
  {e : Entry} {n : Nat} {line : String}

theorem LineAt.exists_content (h : LineAt text n line) :
    ∃ l ∈ Text.lines '\n' text.toList, line.toList = l.content '\r' := by
  obtain ⟨i, -, hl⟩ := h
  obtain ⟨l, hmem, rfl⟩ := List.mem_map.1 (List.mem_of_getElem? hl)
  exact ⟨l, hmem, String.toList_ofList⟩

theorem LineAt.newline_not_mem (h : LineAt text n line) : '\n' ∉ line.toList := by
  obtain ⟨l, hmem, hline⟩ := h.exists_content
  rw [hline]
  exact Text.not_mem_content hmem

theorem LineAt.mem_text (h : LineAt text n line) (ha : a ∈ line.toList) : a ∈ text.toList := by
  obtain ⟨l, hmem, hline⟩ := h.exists_content
  rw [hline] at ha
  exact Text.mem_of_mem_content hmem ha

/-- The symbol and the field of a cell are made of characters of its row, and of no tab. -/
theorem Holds.mem_row (h : Holds line c) (ha : a = c.symbol ∨ a ∈ c.field.toList) :
    a ∈ line.toList ∧ a ≠ '\t' := by
  obtain ⟨⟨rest, hs⟩, -, hf, -⟩ := h
  obtain ⟨piece, hpiece, hmem⟩ : ∃ piece ∈ fields line, a ∈ piece := by
    rcases ha with rfl | ha
    · exact ⟨_, List.mem_of_getElem? hs, List.mem_cons_self⟩
    · exact ⟨_, List.mem_of_getElem? hf, ha⟩
  refine ⟨Text.mem_of_mem_splitOn hpiece hmem, ?_⟩
  rintro rfl
  exact Text.not_mem_of_mem_splitOn hpiece hmem

theorem IsCell.ne_tab_newline (h : IsCell text names c)
    (ha : a = c.symbol ∨ a ∈ c.field.toList) : a ≠ '\t' ∧ a ≠ '\n' := by
  obtain ⟨n, row, -, -, hl, hc⟩ := h
  obtain ⟨hmem, htab⟩ := hc.mem_row ha
  exact ⟨htab, fun heq => hl.newline_not_mem (heq ▸ hmem)⟩

/-- Every entry of a program that was read comes from a cell of the text. -/
theorem Meaning.exists_isCell (h : Meaning text (.ok p)) (he : e ∈ p.entries) :
    ∃ names c, IsCell text names c ∧ c.symbol = e.symbol ∧
      Transition.ofField c.field = .ok e.transition := by
  cases h with
  | @program n names _ header some_cell all_read bound =>
    obtain ⟨c, hc, ⟨hs, -⟩, hf, -⟩ := (bound _ _ _).1 (Program.mem_entries_iff.1 he)
    exact ⟨names, c, hc, hs, hf⟩

/-- Every state of a program that was read has a transition. -/
theorem Meaning.exists_get? (h : Meaning text (.ok p)) (hs : p.containsState s = true) :
    ∃ x t, p.get? s x = some t := by
  cases h with
  | @program n names _ header some_cell all_read bound unbound states =>
    obtain ⟨c, hc, hname⟩ := (states s).1 hs
    refine ⟨c.symbol, Option.ne_none_iff_exists'.1 fun hnone => ?_⟩
    exact (unbound s c.symbol).1 hnone c hc ⟨rfl, hname⟩

/-- A program that was read has a transition. -/
theorem Meaning.entries_ne_nil (h : Meaning text (.ok p)) : p.entries ≠ [] := by
  have hrow := fun s => h.exists_get? (s := s)
  cases h with
  | @program n names _ header some_cell all_read bound unbound states =>
    obtain ⟨c, hc⟩ := some_cell
    have hlt : c.column - 1 < names.length := by
      have hpos := hc.column_pos
      have hle := (all_read c hc).1
      omega
    have hname := List.getElem?_eq_getElem hlt
    obtain ⟨x, t, ht⟩ := hrow _ ((states _).2 ⟨c, hc, hname⟩)
    exact List.ne_nil_of_mem (Program.mem_entries_iff (e := ⟨_, x, t⟩) |>.2 ht)

end

/-! ## Numbered states -/

section

variable {digits : List Char} {s : String} {t : Transition}

theorem not_mem_of_isDigit {c : Char} (h : ∀ c ∈ digits, c.isDigit = true)
    (hc : c.isDigit = false) : c ∉ digits := by
  intro hmem
  rw [h c hmem] at hc
  cases hc

theorem endsLine_of_isDigit (h : ∀ c ∈ digits, c.isDigit = true) : EndsLine digits :=
  .of_not_mem (not_mem_of_isDigit h (by decide)) (not_mem_of_isDigit h (by decide))

theorem namesState_of_numbered (h : Numbered s) : namesState s.toList = true := by
  obtain ⟨digit, digits, hs, hdigits⟩ := h
  have hdigit := Text.isDecimalDigit_of_isDigit (hdigits digit List.mem_cons_self)
  exact namesState_iff.2 ⟨[], digit, digits, hs, hdigit⟩

theorem name_of_numbered (h : Numbered s) : '\t' ∉ s.toList ∧ EndsLine s.toList := by
  obtain ⟨digit, digits, hs, hdigits⟩ := h
  rw [hs]
  refine ⟨?_, .cons (by decide) (by decide) (endsLine_of_isDigit hdigits)⟩
  rw [List.mem_cons, not_or]
  exact ⟨by decide, not_mem_of_isDigit hdigits (by decide)⟩

theorem writable_iff :
    t.Writable ↔ t.write ≠ blankMark ∧ t.write ≠ '\t' ∧ t.write ≠ '\n' ∧
      ∀ e ∈ t.direction :: t.direction.ahead, t.write ≠ e.separator := by
  rw [Direction.forall_ne_separator_iff]
  constructor
  · rintro ⟨hblank, htab, hnewline, hright, hleft, hstay⟩
    exact ⟨hblank, htab, hnewline, hright, hleft, hstay⟩
  · rintro ⟨hblank, htab, hnewline, hright, hleft, hstay⟩
    exact ⟨hblank, htab, hnewline, hright, hleft, hstay⟩

/-- The field of a writable transition to a numbered state keeps its place and its meaning. -/
theorem field_of_writable (hw : t.Writable) (hn : Numbered t.next) :
    '\t' ∉ t.field.toList ∧ EndsLine t.field.toList ∧ Transition.ofField t.field = .ok t := by
  obtain ⟨hblank, htab, hnewline, hmarks⟩ := writable_iff.1 hw
  obtain ⟨digit, digits, hnext, hdigits⟩ := hn
  obtain ⟨hseptab, hsepnewline, hsepret⟩ : t.direction.separator ≠ '\t' ∧
      t.direction.separator ≠ '\n' ∧ t.direction.separator ≠ '\r' := by
    cases t.direction <;> decide
  have hfirst : '\n' ∉ [markOfSymbol t.write] := by
    rw [List.mem_singleton]
    exact (markOfSymbol_ne hnewline (by decide)).symm
  rw [Transition.toList_field hnext]
  refine ⟨?_, ?_, Transition.ofField_field hblank hnext fun e he => ⟨hmarks e he, ?_⟩⟩
  · rw [List.mem_cons, List.mem_cons, not_or, not_or]
    have hmark := (markOfSymbol_ne htab (by decide)).symm
    exact ⟨hmark, hseptab.symm, not_mem_of_isDigit hdigits (by decide)⟩
  · refine .append hfirst (List.cons_ne_nil _ _) ?_
    exact .cons hsepnewline hsepret (endsLine_of_isDigit hdigits)
  · exact not_mem_of_isDigit hdigits (by cases e <;> decide)

end

/-! ## The round trip -/

section

variable {p : Program}

/-- A program of numbered states is tabular if it has transitions in all its rows, symbols that keep
their place, and writable transitions. -/
theorem tabular_of_numbered (states : ∀ s ∈ p.states, Numbered s)
    (next : ∀ e ∈ p.entries, Numbered e.transition.next) (ne : p.entries ≠ [])
    (hrows : ∀ s ∈ p.states, ∃ x t, p.get? s x = some t)
    (hentries : ∀ e ∈ p.entries, e.symbol ≠ '\t' ∧ e.symbol ≠ '\n' ∧ e.transition.Writable) :
    Tabular p where
  rows := hrows
  named := by
    obtain ⟨e, he⟩ := List.exists_mem_of_ne_nil _ ne
    have hs := Program.containsState_of_get? (Program.mem_entries_iff.1 he)
    have hmem := Program.mem_states_iff.2 hs
    exact ⟨e.state, hmem, namesState_of_numbered (states _ hmem)⟩
  names s hs := name_of_numbered (states s hs)
  symbols e he := by
    obtain ⟨htab, hnewline, -⟩ := hentries e he
    exact ⟨htab, hnewline⟩
  fields e he := field_of_writable (hentries e he).2.2 (next e he)

/-- A program of numbered states is read back from its table exactly if it has a transition, each of
its states has one, no symbol is a tab or a line end, and every transition is writable. -/
theorem read_table_iff (states : ∀ s ∈ p.states, Numbered s)
    (next : ∀ e ∈ p.entries, Numbered e.transition.next) (j : Journal) :
    ((read (Delivery.ofText p.table)).run j).1 = .ok p ↔
      p.entries ≠ [] ∧ (∀ s ∈ p.states, ∃ x t, p.get? s x = some t) ∧
        ∀ e ∈ p.entries, e.symbol ≠ '\t' ∧ e.symbol ≠ '\n' ∧ e.transition.Writable := by
  constructor
  · intro hread
    have meaning : Meaning p.table (.ok p) := hread ▸ meaning_of_read p.table j
    refine ⟨meaning.entries_ne_nil, fun s hs => ?_, fun e he => ?_⟩
    · exact meaning.exists_get? (Program.mem_states_iff.1 hs)
    · obtain ⟨names, c, hc, hs, hfield⟩ := meaning.exists_isCell he
      obtain ⟨htab, hnewline⟩ := hc.ne_tab_newline (.inl hs.symm)
      have hout : ∀ a ∈ c.field.toList, a ≠ '\t' ∧ a ≠ '\n' := fun a ha =>
        hc.ne_tab_newline (.inr ha)
      refine ⟨htab, hnewline, writable_iff.2 ⟨?_, ?_, ?_, ?_⟩⟩
      · exact Transition.write_ne_blankMark_of_ofField hfield
      · exact Transition.write_ne_of_ofField hfield (by decide)
          (.inr fun hmem => (hout _ hmem).1 rfl)
      · exact Transition.write_ne_of_ofField hfield (by decide)
          (.inr fun hmem => (hout _ hmem).2 rfl)
      · exact Transition.write_ne_separator_of_ofField hfield
  · rintro ⟨ne, hrows, hentries⟩
    exact (tabular_of_numbered states next ne hrows hentries).read_table j

/-- Moving right, the mark of the left direction can be written. -/
def markWriter : List Entry :=
  [⟨"Q1", '1', ⟨"Q0", '<', .right⟩⟩]

theorem read_table_iff_markWriter :
    (∀ s ∈ (Program.ofEntries markWriter).states, Numbered s) ∧
      (∀ e ∈ (Program.ofEntries markWriter).entries, Numbered e.transition.next) ∧
      ((read (Delivery.ofText (Program.ofEntries markWriter).table)).run ⟨.error, #[]⟩).1 =
        .ok (.ofEntries markWriter) := by
  have hentries : ∀ {e}, e ∈ (Program.ofEntries markWriter).entries ↔ e ∈ markWriter :=
    Program.mem_entries_ofEntries (by simp [markWriter])
  have hstates : ∀ {s}, s ∈ (Program.ofEntries markWriter).states ↔ s = "Q1" := by
    intro s
    rw [Program.mem_states_iff, Program.containsState_ofEntries]
    simp [markWriter, eq_comm]
  have states : ∀ s ∈ (Program.ofEntries markWriter).states, Numbered s := by
    intro s hs
    rw [hstates.1 hs]
    exact ⟨'1', [], rfl, by simp⟩
  have next : ∀ e ∈ (Program.ofEntries markWriter).entries, Numbered e.transition.next := by
    intro e he
    rw [List.mem_singleton.1 (hentries.1 he)]
    exact ⟨'0', [], rfl, by simp⟩
  refine ⟨states, next, (read_table_iff states next _).2 ⟨?_, fun s hs => ?_, fun e he => ?_⟩⟩
  · exact List.ne_nil_of_mem (hentries.2 List.mem_cons_self)
  · rw [hstates.1 hs]
    exact ⟨'1', _, Program.mem_entries_iff.1 (hentries.2 List.mem_cons_self)⟩
  · rw [List.mem_singleton.1 (hentries.1 he)]
    exact ⟨by decide, by decide, by decide, by decide, by decide, by decide, by decide, by decide⟩

end

end Table

end TapeMachine
