import Mathlib.Data.List.Basic
import Mathlib.Data.List.TakeWhile
import TapeMachine.Table.Reader

/-!
# The cells of a state table

A cell is a field of a row that is not empty, together with its place. `rowCells` and `tableCells`
list the cells of rows in reading order, and `Cell.entry` reads one under the header's names.

The reader finds a header and the cells after it, each read (`findings_of_header`), and its outcome
is the first cell that cannot be read, or the program of all of them (`outcome_eq_error`,
`outcome_eq_ok`). So what a text means can be told from its cells alone.
-/

namespace TapeMachine.Table

/-- A field that is not empty in the row of a symbol. -/
structure Cell where
  /-- The number of its line, from 1. -/
  line : Nat
  /-- Its place in the line; the field that holds the symbol is number 0. -/
  column : Nat
  /-- The symbol of the row. -/
  symbol : Char
  /-- The characters of the field. -/
  field : String

namespace Cell

/-- The cell stands before another: in an earlier line, or in an earlier column of the same. -/
def Before (c d : Cell) : Prop :=
  c.line < d.line ∨ c.line = d.line ∧ c.column < d.column

/-- The entry of a cell under a header with these names. -/
def entry (names : List String) (c : Cell) : Except Error Entry :=
  match names[c.column - 1]? with
  | none => .error (.columnOutOfRange c.line c.column)
  | some state => (Transition.ofField c.field).map fun t => ⟨state, c.symbol, t⟩

theorem Before.asymm {c d : Cell} (h : c.Before d) : ¬d.Before c := by
  unfold Before at *
  omega

theorem Before.irrefl (c : Cell) : ¬c.Before c := fun h => h.asymm h

end Cell

/-! ## Cells of a row -/

/-- The cells of row number `line`. -/
def rowCells (line : Nat) (row : String) : List Cell :=
  match fields row with
  | (symbol :: _) :: columns =>
    (columns.zipIdx.filter fun (field, _) => field ≠ []).map fun (field, i) =>
      ⟨line, i + 1, symbol, String.ofList field⟩
  | _ => []

/-- The row holds the cell's symbol and, in the cell's column, its field. -/
structure Holds (row : String) (c : Cell) : Prop where
  symbol : ∃ rest, (fields row)[0]? = some (c.symbol :: rest)
  column : 1 ≤ c.column
  field : (fields row)[c.column]? = some c.field.toList
  nonempty : c.field ≠ ""

theorem mem_rowCells {line : Nat} {row : String} {c : Cell} :
    c ∈ rowCells line row ↔ c.line = line ∧ Holds row c := by
  unfold rowCells
  split
  next symbol rest columns h =>
    simp only [List.mem_map, List.mem_filter, Prod.exists, List.mk_mem_zipIdx_iff_getElem?,
      decide_eq_true_eq]
    constructor
    · rintro ⟨field, i, ⟨hi, ne⟩, rfl⟩
      exact ⟨rfl, ⟨rest, by simp [h]⟩, Nat.le_add_left 1 i, by simpa [h] using hi,
        by simpa using ne⟩
    · rintro ⟨rfl, ⟨rest', hs⟩, hc, hf, ne⟩
      obtain ⟨i, hi⟩ := Nat.exists_eq_add_of_le' hc
      rw [h, hi, List.getElem?_cons_succ] at hf
      rw [h, List.getElem?_cons_zero, Option.some.injEq, List.cons.injEq] at hs
      refine ⟨c.field.toList, i, ⟨hf, by simpa using ne⟩, ?_⟩
      rw [hs.1, ← hi, String.ofList_toList]
  next h =>
    constructor
    · intro hc
      simp at hc
    · rintro ⟨-, ⟨rest, hs⟩, -, -, -⟩
      cases hf : fields row with
      | nil => simp [hf] at hs
      | cons first columns =>
        rw [hf, List.getElem?_cons_zero, Option.some.injEq] at hs
        exact absurd (hs ▸ hf) (h _ _ _)

theorem pairwise_lt_zipIdx {α : Type} (l : List α) (n : Nat) :
    (l.zipIdx n).Pairwise fun a b => a.2 < b.2 := by
  rw [← List.pairwise_map (f := Prod.snd) (R := (· < ·)), List.zipIdx_map_snd]
  exact List.pairwise_lt_range'

theorem pairwise_rowCells (line : Nat) (row : String) :
    (rowCells line row).Pairwise Cell.Before := by
  unfold rowCells
  split
  next =>
    rw [List.pairwise_map]
    refine ((pairwise_lt_zipIdx _ 0).filter _).imp fun h => .inr ⟨rfl, ?_⟩
    exact Nat.succ_lt_succ h
  next => exact List.Pairwise.nil

/-- What the reader finds in a row are its cells, each read. -/
theorem rowFindings_eq (names : List String) (line : Nat) (row : String) :
    rowFindings names line row = (rowCells line row).map fun c => (c.entry names).map .cell := by
  unfold rowFindings rowCells
  rcases fields row with _ | ⟨_ | ⟨symbol, rest⟩, columns⟩
  · rfl
  · rfl
  · simp only [List.map_map]
    refine List.map_congr_left fun (field, i) _ => ?_
    simp only [Function.comp_apply, Cell.entry, Nat.add_sub_cancel]
    cases names[i]? with
    | none => rfl
    | some state => cases Transition.ofField (String.ofList field) <;> rfl

/-! ## Cells of consecutive rows -/

/-- The cells of rows, the first of them numbered `line`. -/
def tableCells (line : Nat) (rows : List String) : List Cell :=
  (rows.zipIdx line).flatMap fun (row, n) => rowCells n row

theorem mem_tableCells {line : Nat} {rows : List String} {c : Cell} :
    c ∈ tableCells line rows ↔
      line ≤ c.line ∧ ∃ row, rows[c.line - line]? = some row ∧ Holds row c := by
  simp only [tableCells, List.mem_flatMap, Prod.exists,
    List.mk_mem_zipIdx_iff_le_and_getElem?_sub, mem_rowCells]
  constructor
  · rintro ⟨row, n, ⟨hn, hrow⟩, rfl, h⟩
    exact ⟨hn, row, hrow, h⟩
  · rintro ⟨hn, row, hrow, h⟩
    exact ⟨row, c.line, ⟨hn, hrow⟩, rfl, h⟩

/-- The cells are listed in reading order. -/
theorem pairwise_tableCells (line : Nat) (rows : List String) :
    (tableCells line rows).Pairwise Cell.Before := by
  rw [tableCells, List.pairwise_flatMap]
  refine ⟨fun (row, n) _ => pairwise_rowCells n row, ?_⟩
  refine (pairwise_lt_zipIdx rows line).imp fun hlt c hc d hd => .inl ?_
  rw [(mem_rowCells.1 hc).1, (mem_rowCells.1 hd).1]
  exact hlt

/-! ## The header -/

/-- The findings of a header and cells read under it. -/
def cellFindings (line : Nat) (names : List String) (cs : List Cell) :
    List (Except Error Finding) :=
  .ok (.header line names) :: cs.map fun c => (c.entry names).map .cell

theorem isFreeLine_of_mem_zipIdx {lines : List String} (h : ∀ l ∈ lines, isHeader l = false)
    (n : Nat) : ∀ d ∈ (lines.map Except.ok).zipIdx n, isFreeLine d.1 = true := by
  intro d hd
  obtain ⟨l, hl, hd⟩ := List.mem_map.1 (List.fst_mem_of_mem_zipIdx hd)
  rw [← hd, isFreeLine, h l hl, Bool.not_false]

theorem findings_of_no_header {lines : List String} (h : ∀ l ∈ lines, isHeader l = false) :
    findings (lines.map .ok) = [] := by
  rw [findings, List.dropWhile_eq_nil_iff.2 (isFreeLine_of_mem_zipIdx h 1)]

/-- After the lines that are no header, the reader finds the header and the cells that follow it,
each read under its names. -/
theorem findings_of_header {before rows : List String} {header : String}
    (hb : ∀ l ∈ before, isHeader l = false) (hh : isHeader header = true) :
    findings ((before ++ header :: rows).map .ok) =
      cellFindings (before.length + 1) (headerStates header)
        (tableCells (before.length + 2) rows) := by
  rw [findings, List.map_append, List.zipIdx_append,
    List.dropWhile_append_of_pos (isFreeLine_of_mem_zipIdx hb 1), List.map_cons, List.zipIdx_cons,
    List.dropWhile_cons_of_neg (by simp [isFreeLine, hh]), List.length_map, Nat.add_comm 1]
  simp only [List.zipIdx_map, List.flatMap_map, deliveryFindings, rowFindings_eq, tableCells,
    cellFindings, List.map_flatMap]
  rfl

/-! ## The outcome -/

variable {line : Nat} {names : List String} {cs : List Cell}

theorem failure?_cellFindings :
    failure? (cellFindings line names cs) =
      cs.findSome? fun c => match c.entry names with
        | .error e => some e
        | .ok _ => none := by
  simp only [failure?, cellFindings, List.findSome?_cons, List.findSome?_map]
  congr 1
  funext c
  rw [Function.comp_apply]
  cases c.entry names <;> rfl

/-- The outcome is the error of the first cell that cannot be read. -/
theorem outcome_eq_error {before after : List Cell} {c : Cell} {e : Error}
    (hcs : cs = before ++ c :: after) (hb : ∀ b ∈ before, ∃ entry, b.entry names = .ok entry)
    (hc : c.entry names = .error e) : outcome (cellFindings line names cs) = .error e := by
  have hfail : failure? (cellFindings line names cs) = some e := by
    rw [failure?_cellFindings, List.findSome?_eq_some_iff]
    refine ⟨before, c, after, hcs, by rw [hc], fun b hbm => ?_⟩
    obtain ⟨entry, hentry⟩ := hb b hbm
    rw [hentry]
  rw [outcome, hfail]

theorem cells_cellFindings (entryOf : Cell → Entry)
    (h : ∀ c ∈ cs, c.entry names = .ok (entryOf c)) :
    cells (cellFindings line names cs) = cs.map entryOf := by
  rw [cells, cellFindings, List.filterMap_cons, List.filterMap_map]
  refine List.filterMap_eq_map_iff_forall_eq_some.2 fun c hc => ?_
  rw [Function.comp_apply, h c hc]
  rfl

/-- The outcome is the program of all cells if each can be read, unless there is none. -/
theorem outcome_eq_ok (entryOf : Cell → Entry) (h : ∀ c ∈ cs, c.entry names = .ok (entryOf c)) :
    outcome (cellFindings line names cs) =
      if cs = [] then .error .noTransitions else .ok (.ofEntries (cs.map entryOf)) := by
  have hfail : failure? (cellFindings line names cs) = none := by
    rw [failure?_cellFindings, List.findSome?_eq_none_iff]
    intro c hc
    rw [h c hc]
  rw [outcome, hfail, cells_cellFindings entryOf h]
  simp only [List.isEmpty_iff, List.map_eq_nil_iff]

/-! ## Reading with a journal -/

/-- Reading leaves a journal, and gives the outcome of what is found. -/
theorem read_result (deliveries : List Delivery) (j : Journal) :
    ((read deliveries).run j).1 = outcome (findings deliveries) := by
  unfold read
  dsimp only
  cases outcome (findings deliveries) <;> rfl

end TapeMachine.Table
