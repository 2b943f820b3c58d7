import TapeMachine.Proofs.Pieces
import TapeMachine.Proofs.TableGrammar
import TapeMachine.Table.Writer

/-!
# Reading written tables

A written table is a header and a row for every symbol that is read, each a piece and a list of
columns with tabs before them (`tabbed`). If the names, symbols and fields of a program keep their
places in such lines (`LaidOut`), these are the lines of its table. A program is tabular if moreover
its header is known as one and its fields hold its transitions (`Tabular`). The reader then finds
the entries of the program and nothing else (`Tabular.read_table`).
-/

namespace TapeMachine.Table

/-! ## Tabbed lines -/

/-- The characters can stand at the end of a line: they hold no line end, and end in no carriage
return that the line end would take with it. -/
structure EndsLine (piece : List Char) : Prop where
  newline : '\n' ∉ piece
  ret : piece.getLast? ≠ some '\r'

/-- A line of columns, with a tab before each, that begins with a piece of its own. -/
def tabbed (first : List Char) (columns : List (List Char)) : List Char :=
  first ++ '\t' :: ['\t'].intercalate columns

section

variable {first piece rest : List Char} {columns rows : List (List Char)}

theorem EndsLine.of_not_mem (newline : '\n' ∉ piece) (ret : '\r' ∉ piece) : EndsLine piece :=
  ⟨newline, fun hlast => ret (List.mem_of_getLast? hlast)⟩

theorem EndsLine.cons {c : Char} (newline : c ≠ '\n') (ret : c ≠ '\r') (h : EndsLine rest) :
    EndsLine (c :: rest) := by
  refine ⟨by simp [newline.symm, h.newline], ?_⟩
  rw [List.getLast?_cons, ne_eq, Option.some.injEq]
  cases hr : rest.getLast? with
  | none => exact ret
  | some d =>
    have hd := h.ret
    rw [hr, ne_eq, Option.some.injEq] at hd
    exact hd

theorem EndsLine.append (hfirst : '\n' ∉ first) (ne : rest ≠ []) (h : EndsLine rest) :
    EndsLine (first ++ rest) := by
  refine ⟨by simp [hfirst, h.newline], ?_⟩
  rw [List.getLast?_append_of_ne_nil _ ne]
  exact h.ret

theorem EndsLine.tab (hfirst : '\n' ∉ first) (h : EndsLine rest) :
    EndsLine (first ++ '\t' :: rest) :=
  .append hfirst (List.cons_ne_nil _ _) (.cons (by decide) (by decide) h)

theorem EndsLine.intercalate :
    ∀ {pieces : List (List Char)}, (∀ piece ∈ pieces, EndsLine piece) →
      EndsLine (['\t'].intercalate pieces)
  | [], _ => ⟨by simp, by simp⟩
  | [piece], h => by simpa using h
  | piece :: next :: pieces, h => by
    rw [List.intercalate_cons_cons, List.append_assoc, List.singleton_append]
    have hpiece := h piece List.mem_cons_self
    exact .tab hpiece.newline (.intercalate fun q hq => h q (List.mem_cons_of_mem _ hq))

theorem EndsLine.tabbed (hfirst : '\n' ∉ first) (h : ∀ piece ∈ columns, EndsLine piece) :
    EndsLine (tabbed first columns) :=
  .tab hfirst (.intercalate h)

/-- The fields of a tabbed line are what it was made of. -/
theorem fields_tabbed (hfirst : '\t' ∉ first) (h : ∀ piece ∈ columns, '\t' ∉ piece)
    (ne : columns ≠ []) : fields (String.ofList (tabbed first columns)) = first :: columns := by
  rw [fields, String.toList_ofList, tabbed, List.splitOn_append_cons_self_of_not_mem hfirst,
    List.splitOn_intercalate _ h ne]

/-- The lines of a text of rows are the rows. -/
theorem textLines_of_rows (h : ∀ row ∈ rows, EndsLine row) :
    textLines (String.ofList (rows.flatMap (· ++ ['\n']))) = rows.map String.ofList := by
  rw [textLines, String.toList_ofList, Text.lines_of_rows fun row hrow => (h row hrow).newline,
    List.map_map]
  refine List.map_congr_left fun row hrow => ?_
  rw [Function.comp_apply, Text.Line.content]
  simp [(h row hrow).ret]

end

/-! ## Written programs -/

/-- The program can be read back from its table. -/
structure Tabular (p : Program) : Prop where
  /-- Every state has a transition, and so a field. -/
  rows : ∀ s ∈ p.states, ∃ x t, p.get? s x = some t
  /-- The header is known by some of its names. -/
  named : ∃ s ∈ p.states, namesState s.toList = true
  /-- The names keep their place in the header. -/
  names : ∀ s ∈ p.states, '\t' ∉ s.toList ∧ EndsLine s.toList
  /-- The symbols keep their place at the head of a row. -/
  symbols : ∀ e ∈ p.entries, e.symbol ≠ '\t' ∧ e.symbol ≠ '\n'
  /-- The fields keep their place in a row, and each holds its transition. -/
  fields : ∀ e ∈ p.entries, '\t' ∉ e.transition.field.toList ∧
    EndsLine e.transition.field.toList ∧
    Transition.ofField e.transition.field = .ok e.transition

/-- The names, symbols and fields of the program keep their places in its table. -/
structure LaidOut (p : Program) : Prop where
  states : p.states ≠ []
  names : ∀ s ∈ p.states, '\t' ∉ s.toList ∧ EndsLine s.toList
  symbols : ∀ e ∈ p.entries, e.symbol ≠ '\t' ∧ e.symbol ≠ '\n'
  fields : ∀ e ∈ p.entries, '\t' ∉ e.transition.field.toList ∧
    EndsLine e.transition.field.toList

section

/-- The rows below the header. -/
def symbolRows (p : Program) : List String :=
  (rowSymbols p).map fun x => String.ofList (symbolRow p x)

variable {p : Program} {s : String} {x : Char} {c : Cell}

theorem headerRow_eq (p : Program) : headerRow p = tabbed [] ((columns p).map String.toList) :=
  rfl

theorem symbolRow_eq (p : Program) (x : Char) :
    symbolRow p x = tabbed [x] ((columns p).map (fieldFor p x)) :=
  rfl

theorem mem_columns_iff : s ∈ columns p ↔ s ∈ p.states := by
  rw [columns, List.mem_mergeSort]

theorem mem_rowSymbols_iff : x ∈ rowSymbols p ↔ ∃ e ∈ p.entries, e.symbol = x := by
  rw [rowSymbols, Std.ExtTreeSet.mem_toList, Std.ExtTreeSet.mem_ofList]
  simp

theorem nodup_rowSymbols : (rowSymbols p).Nodup :=
  Std.ExtTreeSet.distinct_toList.imp fun h heq => h (Std.LawfulEqCmp.compare_eq_iff_eq.2 heq)

/-- Cells that are read as the entries of a program, each of them from some cell, are read as the
program. -/
theorem outcome_eq_ok_of_entries {line : Nat} {names : List String} {cs : List Cell}
    (ne : p.entries ≠ []) (hrows : ∀ s ∈ p.states, ∃ x t, p.get? s x = some t)
    (hcells : ∀ c ∈ cs, ∃ e ∈ p.entries, c.entry names = .ok e)
    (hentries : ∀ e ∈ p.entries, ∃ c ∈ cs, c.entry names = .ok e) :
    outcome (cellFindings line names cs) = .ok p := by
  have : Nonempty Entry := ⟨⟨"", blank, default⟩⟩
  choose! entryOf hmem hread using hcells
  have hcs : cs ≠ [] := by
    obtain ⟨e, he⟩ := List.exists_mem_of_ne_nil _ ne
    obtain ⟨c, hc, -⟩ := hentries e he
    exact List.ne_nil_of_mem hc
  have hes : ∀ e, e ∈ cs.map entryOf ↔ e ∈ p.entries := by
    intro e
    rw [List.mem_map]
    constructor
    · rintro ⟨c, hc, rfl⟩
      exact hmem c hc
    · intro he
      obtain ⟨c, hc, hce⟩ := hentries e he
      exact ⟨c, hc, Except.ok.inj ((hread c hc).symm.trans hce)⟩
  rw [outcome_eq_ok entryOf hread, if_neg hcs,
    Program.ofEntries_eq hes fun s hs => hrows s (Program.mem_states_iff.2 hs)]

namespace LaidOut

variable (h : LaidOut p)

include h

theorem columns_ne_nil : columns p ≠ [] := by
  obtain ⟨s, hs⟩ := List.exists_mem_of_ne_nil _ h.states
  exact List.ne_nil_of_mem (mem_columns_iff.2 hs)

theorem name {piece : List Char} (hpiece : piece ∈ (columns p).map String.toList) :
    '\t' ∉ piece ∧ EndsLine piece := by
  obtain ⟨s, hs, rfl⟩ := List.mem_map.1 hpiece
  exact h.names s (mem_columns_iff.1 hs)

theorem field {piece : List Char} (hpiece : piece ∈ (columns p).map (fieldFor p x)) :
    '\t' ∉ piece ∧ EndsLine piece := by
  obtain ⟨s, -, rfl⟩ := List.mem_map.1 hpiece
  unfold fieldFor
  cases ht : p.get? s x with
  | none => exact ⟨List.not_mem_nil, List.not_mem_nil, by simp⟩
  | some t =>
    exact h.fields ⟨s, x, t⟩ (Program.mem_entries_iff.2 ht)

theorem symbol (hx : x ∈ rowSymbols p) : x ≠ '\t' ∧ x ≠ '\n' := by
  obtain ⟨e, he, rfl⟩ := mem_rowSymbols_iff.1 hx
  exact h.symbols e he

theorem fields_headerRow :
    Table.fields (String.ofList (headerRow p)) = [] :: (columns p).map String.toList := by
  rw [headerRow_eq]
  exact fields_tabbed List.not_mem_nil (fun _ hpiece => (h.name hpiece).1)
    (by simp [h.columns_ne_nil])

theorem fields_symbolRow (hx : x ∈ rowSymbols p) :
    Table.fields (String.ofList (symbolRow p x)) = [x] :: (columns p).map (fieldFor p x) := by
  rw [symbolRow_eq]
  exact fields_tabbed (by simpa using (h.symbol hx).1.symm)
    (fun _ hpiece => (h.field hpiece).1) (by simp [h.columns_ne_nil])

/-- The lines of the table are the header and the rows. -/
theorem textLines_table :
    textLines p.table = String.ofList (headerRow p) :: symbolRows p := by
  rw [Program.table, textLines_of_rows, List.map_cons, List.map_map]
  · rfl
  · intro row hrow
    rcases List.mem_cons.1 hrow with rfl | hrow
    · rw [headerRow_eq]
      exact .tabbed List.not_mem_nil fun _ hpiece => (h.name hpiece).2
    · obtain ⟨x, hx, rfl⟩ := List.mem_map.1 hrow
      rw [symbolRow_eq]
      exact .tabbed (by simpa using (h.symbol hx).2.symm) fun _ hpiece => (h.field hpiece).2

/-- A line of the table is the header or the row of a symbol. -/
theorem lineAt_table {n : Nat} {line : String} (hl : LineAt p.table n line) :
    (n = 1 ∧ line = String.ofList (headerRow p)) ∨
      ∃ k x, n = k + 2 ∧ (rowSymbols p)[k]? = some x ∧ line = String.ofList (symbolRow p x) := by
  obtain ⟨i, rfl, hi⟩ := hl
  rw [h.textLines_table] at hi
  cases i with
  | zero => exact .inl ⟨rfl, (Option.some.inj hi).symm⟩
  | succ k =>
    rw [List.getElem?_cons_succ, symbolRows, List.getElem?_map, Option.map_eq_some_iff] at hi
    obtain ⟨x, hx, hrow⟩ := hi
    exact .inr ⟨k, x, rfl, hx, hrow.symm⟩

/-- The header is known by the names of the states. -/
theorem isHeader_headerRow_iff : isHeader (String.ofList (headerRow p)) = true ↔
    ∃ s ∈ p.states, namesState s.toList = true := by
  rw [isHeader, h.fields_headerRow, List.tail_cons, List.any_map, List.any_eq_true]
  simp only [mem_columns_iff, Function.comp_apply]

theorem headerStates_headerRow : headerStates (String.ofList (headerRow p)) = columns p := by
  rw [headerStates, h.fields_headerRow, List.tail_cons, List.map_map]
  simp [Function.comp_def]

/-- The row of a symbol holds the fields of its transitions, each in the column of its state. -/
theorem holds_symbolRow_iff (hx : x ∈ rowSymbols p) :
    Holds (String.ofList (symbolRow p x)) c ↔
      c.symbol = x ∧ 1 ≤ c.column ∧ ∃ s t, (columns p)[c.column - 1]? = some s ∧
        p.get? s x = some t ∧ c.field = t.field := by
  have hfields := h.fields_symbolRow hx
  constructor
  · rintro ⟨⟨rest, hs⟩, hc, hf, ne⟩
    obtain ⟨i, hi⟩ := Nat.exists_eq_add_of_le' hc
    rw [hfields, List.getElem?_cons_zero, Option.some.injEq, List.cons.injEq] at hs
    rw [hfields, hi, List.getElem?_cons_succ, List.getElem?_map, Option.map_eq_some_iff] at hf
    obtain ⟨s, hname, hfield⟩ := hf
    rw [fieldFor] at hfield
    cases ht : p.get? s x with
    | none =>
      rw [ht] at hfield
      exact absurd (String.toList_eq_nil_iff.1 hfield.symm) ne
    | some t =>
      rw [ht] at hfield
      exact ⟨hs.1.symm, hc, s, t, by rwa [hi], ht, String.toList_inj.1 hfield.symm⟩
  · rintro ⟨hs, hc, s, t, hname, ht, hfield⟩
    obtain ⟨i, hi⟩ := Nat.exists_eq_add_of_le' hc
    rw [hi, Nat.add_sub_cancel] at hname
    refine ⟨⟨[], by rw [hfields, hs]; rfl⟩, hc, ?_, ?_⟩
    · rw [hfields, hi, List.getElem?_cons_succ, List.getElem?_map, hname, Option.map_some,
        fieldFor, ht, hfield]
    · rw [hfield, Transition.field]
      simp

end LaidOut

namespace Tabular

variable (h : Tabular p)

include h

theorem laidOut : LaidOut p where
  states := by
    obtain ⟨s, hs, -⟩ := h.named
    exact List.ne_nil_of_mem hs
  names := h.names
  symbols := h.symbols
  fields e he := by
    obtain ⟨htab, hline, -⟩ := h.fields e he
    exact ⟨htab, hline⟩

/-- Every cell of the rows is read as an entry of the program. -/
theorem entry_of_cell {n : Nat} (hc : c ∈ tableCells n (symbolRows p)) :
    ∃ e ∈ p.entries, c.entry (columns p) = .ok e := by
  obtain ⟨-, row, hrow, hc⟩ := mem_tableCells.1 hc
  obtain ⟨x, hx, rfl⟩ := List.mem_map.1 (List.mem_of_getElem? hrow)
  obtain ⟨hs, -, s, t, hname, ht, hfield⟩ := (h.laidOut.holds_symbolRow_iff hx).1 hc
  have he : ⟨s, x, t⟩ ∈ p.entries := Program.mem_entries_iff.2 ht
  obtain ⟨-, -, hread⟩ := h.fields _ he
  exact ⟨_, he, Cell.entry_eq_ok_iff.2 ⟨⟨hs, hname⟩, by rwa [hfield]⟩⟩

/-- Every entry of the program is read from a cell of the rows. -/
theorem cell_of_entry {e : Entry} (n : Nat) (he : e ∈ p.entries) :
    ∃ c ∈ tableCells n (symbolRows p), c.entry (columns p) = .ok e := by
  have ht := Program.mem_entries_iff.1 he
  have hx : e.symbol ∈ rowSymbols p := mem_rowSymbols_iff.2 ⟨e, he, rfl⟩
  obtain ⟨i, hi⟩ := List.mem_iff_getElem?.1 hx
  have hs : e.state ∈ columns p :=
    mem_columns_iff.2 (Program.mem_states_iff.2 (Program.containsState_of_get? ht))
  obtain ⟨k, hk⟩ := List.mem_iff_getElem?.1 hs
  let c : Cell := ⟨n + i, k + 1, e.symbol, e.transition.field⟩
  obtain ⟨-, -, hread⟩ := h.fields e he
  have hrow : Holds (String.ofList (symbolRow p e.symbol)) c :=
    (h.laidOut.holds_symbolRow_iff hx).2 ⟨rfl, Nat.le_add_left 1 k, _, _, hk, ht, rfl⟩
  refine ⟨c, mem_tableCells.2 ⟨Nat.le_add_right n i, _, ?_, hrow⟩, ?_⟩
  · rw [Nat.add_sub_cancel_left, symbolRows, List.getElem?_map, hi, Option.map_some]
  · exact Cell.entry_eq_ok_iff.2 ⟨⟨rfl, hk⟩, hread⟩

theorem findings_table :
    findings ((textLines p.table).map .ok) =
      cellFindings 1 (columns p) (tableCells 2 (symbolRows p)) := by
  -- the header is the first line, so no free line comes before it
  have hfree : ∀ line ∈ ([] : List String), isHeader line = false := by simp
  have hheader := h.laidOut.isHeader_headerRow_iff.2 h.named
  rw [h.laidOut.textLines_table, ← List.nil_append (_ :: _), findings_of_header hfree hheader,
    h.laidOut.headerStates_headerRow]
  rfl

theorem entries_ne_nil : p.entries ≠ [] := by
  obtain ⟨s, hs, -⟩ := h.named
  obtain ⟨x, t, ht⟩ := h.rows s hs
  exact List.ne_nil_of_mem (Program.mem_entries_iff (e := ⟨s, x, t⟩) |>.2 ht)

/-- A tabular program is read back from its table. -/
theorem read_table (j : Journal) : ((read (Delivery.ofText p.table)).run j).1 = .ok p := by
  rw [read_result, ofText_eq, h.findings_table]
  exact outcome_eq_ok_of_entries h.entries_ne_nil h.rows (fun _ => h.entry_of_cell)
    fun _ => h.cell_of_entry 2

end Tabular

end

end TapeMachine.Table
