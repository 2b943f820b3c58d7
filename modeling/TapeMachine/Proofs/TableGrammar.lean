import TapeMachine.Proofs.ProgramMap
import TapeMachine.Proofs.TableCells

/-!
# The grammar of state tables

What a text means as a state table is said here by the places of its lines and fields alone. The
header is the first line that names a state (`HeaderAt`). A cell of the text is a cell of a row
after it (`IsCell`).

`read_accepts_grammar`: the reader gives a program exactly if there is a cell and every cell stands
under a name and holds a transition; the program then has for every state and symbol the transition
of the last of their cells. Otherwise it gives the error of the first cell that is refused, or says
that there is no transition.
-/

namespace TapeMachine.Table

/-! ## Lines and header -/

/-- The lines of a text, without their ends. -/
def textLines (text : String) : List String :=
  (Text.lines '\n' text.toList).map fun line => String.ofList (line.content '\r')

/-- Line number `n` of the text, counted from 1. -/
def LineAt (text : String) (n : Nat) (line : String) : Prop :=
  ∃ i, n = i + 1 ∧ (textLines text)[i]? = some line

/-- Some field of the line after its first holds a `Q` followed by a decimal digit. -/
def NamesState (line : String) : Prop :=
  ∃ k field, 1 ≤ k ∧ (fields line)[k]? = some field ∧
    ∃ before d after, field = before ++ statePrefix :: d :: after ∧ Text.isDecimalDigit d = true

/-- The header of the text is line number `n`, and `names` are its fields after the first. -/
structure HeaderAt (text : String) (n : Nat) (names : List String) : Prop where
  line : ∃ header, LineAt text n header ∧ NamesState header ∧
    names = (fields header).tail.map String.ofList
  first : ∀ i < n, ∀ line, LineAt text i line → ¬NamesState line

/-- A cell of the text: a field that is not empty, after the first field of a line after the header
whose first field is not empty. -/
def IsCell (text : String) (names : List String) (c : Cell) : Prop :=
  ∃ n row, HeaderAt text n names ∧ n < c.line ∧ LineAt text c.line row ∧ Holds row c

namespace Cell

variable (names : List String)

/-- The cell belongs to the state `s` and the symbol `x`. -/
def Stands (s : String) (x : Char) (c : Cell) : Prop :=
  c.symbol = x ∧ names[c.column - 1]? = some s

/-- The cell is refused with the error `e`: it stands past the names, or holds no transition. -/
def Refused (e : Error) (c : Cell) : Prop :=
  names.length < c.column ∧ e = .columnOutOfRange c.line c.column ∨
    c.column ≤ names.length ∧ Transition.ofField c.field = .error e

end Cell

theorem ofText_eq (text : String) : Delivery.ofText text = (textLines text).map .ok := by
  rw [Delivery.ofText, textLines, List.map_map]
  rfl

theorem namesState_iff :
    ∀ {field : List Char}, namesState field = true ↔
      ∃ before d after, field = before ++ statePrefix :: d :: after ∧
        Text.isDecimalDigit d = true
  | [] => by simp [namesState]
  | [c] => by
    simp only [namesState, Bool.false_eq_true, false_iff]
    rintro ⟨before, d, after, h, -⟩
    have := congrArg List.length h
    simp at this
    omega
  | c :: d :: rest => by
    rw [namesState, Bool.or_eq_true, namesState_iff, Bool.and_eq_true, beq_iff_eq]
    constructor
    · rintro (⟨rfl, hd⟩ | ⟨before, d', after, h, hd⟩)
      · exact ⟨[], d, rest, rfl, hd⟩
      · exact ⟨c :: before, d', after, by rw [h, List.cons_append], hd⟩
    · rintro ⟨before, d', after, h, hd⟩
      cases before with
      | nil =>
        simp only [List.nil_append, List.cons.injEq] at h
        exact .inl ⟨h.1, h.2.1 ▸ hd⟩
      | cons b before => exact .inr ⟨before, d', after, (List.cons.inj h).2, hd⟩

theorem isHeader_iff {line : String} : isHeader line = true ↔ NamesState line := by
  rw [isHeader, List.any_eq_true]
  constructor
  · rintro ⟨field, hf, hn⟩
    obtain ⟨k, hk⟩ := List.mem_iff_getElem?.1 hf
    rw [List.getElem?_tail] at hk
    exact ⟨k + 1, field, Nat.le_add_left 1 k, hk, namesState_iff.1 hn⟩
  · rintro ⟨k, field, hk, hf, hn⟩
    obtain ⟨i, rfl⟩ := Nat.exists_eq_add_of_le' hk
    rw [← List.getElem?_tail] at hf
    exact ⟨field, List.mem_of_getElem? hf, namesState_iff.2 hn⟩

/-! ## The header as a place in the list of lines -/

/-- A text has no header, or its lines are free lines, the header and rows. -/
theorem header_cases (text : String) :
    (∀ l ∈ textLines text, isHeader l = false) ∨
      ∃ before header rows, textLines text = before ++ header :: rows ∧
        (∀ l ∈ before, isHeader l = false) ∧ isHeader header = true := by
  cases h : (textLines text).find? isHeader with
  | none => exact .inl fun l hl => by simpa using List.find?_eq_none.1 h l hl
  | some header =>
    obtain ⟨hh, before, rows, hlines, hb⟩ := List.find?_eq_some_iff_append.1 h
    exact .inr ⟨before, header, rows, hlines, fun l hl => by simpa using hb l hl, hh⟩

section

variable {text header : String} {before rows names names' : List String} {n n' : Nat} {c d : Cell}

theorem LineAt.unique {l l' : String} (h : LineAt text n l) (h' : LineAt text n l') : l = l' := by
  obtain ⟨i, rfl, hl⟩ := h
  obtain ⟨i', hi, hl'⟩ := h'
  obtain rfl : i = i' := by omega
  exact Option.some.inj (hl.symm.trans hl')

theorem HeaderAt.unique (h : HeaderAt text n names) (h' : HeaderAt text n' names') :
    n = n' ∧ names = names' := by
  obtain ⟨⟨l, hl, hn, rfl⟩, hfirst⟩ := h
  obtain ⟨⟨l', hl', hn', rfl⟩, hfirst'⟩ := h'
  rcases Nat.lt_trichotomy n n' with hlt | rfl | hgt
  · exact absurd hn (hfirst' n hlt l hl)
  · exact ⟨rfl, by rw [hl.unique hl']⟩
  · exact absurd hn' (hfirst n' hgt l' hl')

/-- The cells of a text are told apart by their places. -/
theorem IsCell.unique (hc : IsCell text names c) (hd : IsCell text names' d)
    (line : c.line = d.line) (column : c.column = d.column) : c = d := by
  obtain ⟨n, row, -, -, hl, ⟨⟨rest, hs⟩, -, hf, -⟩⟩ := hc
  obtain ⟨n', row', -, -, hl', ⟨⟨rest', hs'⟩, -, hf', -⟩⟩ := hd
  rw [← line] at hl'
  obtain rfl := hl.unique hl'
  rw [hs, Option.some.injEq, List.cons.injEq] at hs'
  rw [← column, hf, Option.some.injEq, String.toList_inj] at hf'
  cases c
  cases d
  simp_all

theorem headerAt_iff (hlines : textLines text = before ++ header :: rows)
    (hb : ∀ l ∈ before, isHeader l = false) (hh : isHeader header = true) :
    HeaderAt text n names ↔ n = before.length + 1 ∧ names = headerStates header := by
  have hat : LineAt text (before.length + 1) header :=
    ⟨before.length, rfl, by rw [hlines, List.getElem?_append_right le_rfl, Nat.sub_self]; rfl⟩
  have hfree : ∀ i < before.length + 1, ∀ l, LineAt text i l → ¬NamesState l := by
    rintro _ hi l ⟨i, rfl, hl⟩ hn
    rw [hlines, List.getElem?_append_left (by omega)] at hl
    rw [← isHeader_iff, hb l (List.mem_of_getElem? hl)] at hn
    cases hn
  have header : HeaderAt text (before.length + 1) (headerStates header) :=
    ⟨⟨header, hat, isHeader_iff.1 hh, rfl⟩, hfree⟩
  constructor
  · exact fun h => h.unique header
  · rintro ⟨rfl, rfl⟩
    exact header

/-- The cells of a text with a header are those that the reader finds. -/
theorem isCell_iff (hlines : textLines text = before ++ header :: rows)
    (hb : ∀ l ∈ before, isHeader l = false) (hh : isHeader header = true) :
    IsCell text names c ↔
      names = headerStates header ∧ c ∈ tableCells (before.length + 2) rows := by
  simp only [IsCell, headerAt_iff hlines hb hh, mem_tableCells]
  have hrow : ∀ row, before.length + 1 < c.line →
      (LineAt text c.line row ↔ rows[c.line - (before.length + 2)]? = some row) := by
    intro row hlt
    obtain ⟨i, hi⟩ := Nat.exists_eq_add_of_lt hlt
    rw [LineAt, hlines]
    have hsub : c.line - (before.length + 2) = i := by omega
    constructor
    · rintro ⟨k, hk, h⟩
      obtain rfl : k = before.length + (i + 1) := by omega
      rw [List.getElem?_append_right (by omega), Nat.add_sub_cancel_left] at h
      rwa [hsub]
    · intro h
      rw [hsub] at h
      refine ⟨before.length + (i + 1), by omega, ?_⟩
      rwa [List.getElem?_append_right (by omega), Nat.add_sub_cancel_left]
  constructor
  · rintro ⟨n, row, ⟨rfl, rfl⟩, hlt, hl, hc⟩
    exact ⟨rfl, hlt, row, (hrow row hlt).1 hl, hc⟩
  · rintro ⟨rfl, hle, row, hl, hc⟩
    exact ⟨_, row, ⟨rfl, rfl⟩, hle, (hrow row hle).2 hl, hc⟩

theorem not_isCell_of_no_header (h : ∀ l ∈ textLines text, isHeader l = false) :
    ¬IsCell text names c := by
  rintro ⟨n, row, ⟨⟨l, ⟨i, -, hl⟩, hn, -⟩, -⟩, -⟩
  rw [← isHeader_iff, h l (List.mem_of_getElem? hl)] at hn
  cases hn

end

/-! ## Reading the cells -/

section

variable {names : List String} {c : Cell} {cs : List Cell} {e : Error} {entry : Entry}
  {s : String} {x : Char} {t : Transition}

theorem Cell.entry_eq_error_iff (hc : 1 ≤ c.column) :
    c.entry names = .error e ↔ c.Refused names e := by
  unfold Cell.entry Cell.Refused
  cases hs : names[c.column - 1]? with
  | none =>
    have hlen : names.length < c.column := by
      have := List.getElem?_eq_none_iff.1 hs
      omega
    simp [hlen, Nat.not_le.2 hlen, eq_comm]
  | some state =>
    have hlen : c.column ≤ names.length := by
      obtain ⟨hlt, -⟩ := List.getElem?_eq_some_iff.1 hs
      omega
    cases ht : Transition.ofField c.field <;>
      simp [hlen, Nat.not_lt.2 hlen, Except.map]

theorem Cell.entry_eq_ok_iff :
    c.entry names = .ok entry ↔
      c.Stands names entry.state entry.symbol ∧
        Transition.ofField c.field = .ok entry.transition := by
  unfold Cell.entry Cell.Stands
  cases hs : names[c.column - 1]? with
  | none => simp
  | some state =>
    cases ht : Transition.ofField c.field with
    | error e => simp [Except.map]
    | ok t =>
      cases entry
      simp [Except.map, and_assoc, and_left_comm]

theorem Cell.stands_iff (h : c.entry names = .ok entry) :
    c.Stands names s x ↔ entry.state = s ∧ entry.symbol = x := by
  obtain ⟨⟨hx, hs⟩, -⟩ := Cell.entry_eq_ok_iff.1 h
  rw [Cell.Stands, hs, hx, Option.some.injEq, and_comm]

/-- Of cells in reading order either each can be read, or there is a first that is refused. -/
theorem read_cases (names : List String) (cs : List Cell) :
    (∀ c ∈ cs, ∃ entry, c.entry names = .ok entry) ∨
      ∃ before c after e, cs = before ++ c :: after ∧
        (∀ b ∈ before, ∃ entry, b.entry names = .ok entry) ∧ c.entry names = .error e := by
  induction cs with
  | nil => exact .inl (by simp)
  | cons c cs ih =>
    cases hc : c.entry names with
    | error e => exact .inr ⟨[], c, cs, e, rfl, by simp, hc⟩
    | ok entry =>
      refine ih.imp (fun h => ?_) ?_
      · rintro d (_ | ⟨_, hd⟩)
        · exact ⟨entry, hc⟩
        · exact h d hd
      · rintro ⟨before, d, after, e, rfl, hb, hd⟩
        refine ⟨c :: before, d, after, e, rfl, ?_, hd⟩
        rintro b (_ | ⟨_, hbm⟩)
        · exact ⟨entry, hc⟩
        · exact hb b hbm

/-- The program of cells in reading order has for every state and symbol the transition of the last
of their cells. -/
theorem get?_cells_iff (sorted : cs.Pairwise Cell.Before) {entryOf : Cell → Entry}
    (h : ∀ c ∈ cs, c.entry names = .ok (entryOf c)) :
    (Program.ofEntries (cs.map entryOf)).get? s x = some t ↔
      ∃ c ∈ cs, c.Stands names s x ∧ Transition.ofField c.field = .ok t ∧
        ∀ d ∈ cs, d.Stands names s x → ¬c.Before d := by
  rw [Program.get?_ofEntries_eq_some_iff]
  constructor
  · rintro ⟨before, after, hes, hlast⟩
    obtain ⟨cs₁, cs', rfl, -, hes⟩ := List.map_eq_append_iff.1 hes
    obtain ⟨c, cs₂, rfl, hc, rfl⟩ := List.map_eq_cons_iff.1 hes
    have hentry := h c (by simp)
    rw [hc] at hentry
    obtain ⟨hstands, hfield⟩ := Cell.entry_eq_ok_iff.1 hentry
    refine ⟨c, by simp, hstands, hfield, fun d hd hs => ?_⟩
    rcases List.mem_append.1 hd with hd | hd
    · exact ((List.pairwise_append.1 sorted).2.2 d hd c (by simp)).asymm
    · rcases List.mem_cons.1 hd with rfl | hd
      · exact Cell.Before.irrefl d
      · exact absurd ((Cell.stands_iff (h d (by simp [hd]))).1 hs)
          (hlast _ (List.mem_map_of_mem hd))
  · rintro ⟨c, hc, hstands, hfield, hlast⟩
    obtain ⟨cs₁, cs₂, rfl⟩ := List.append_of_mem hc
    have hread : c.entry names = .ok ⟨s, x, t⟩ := Cell.entry_eq_ok_iff.2 ⟨hstands, hfield⟩
    have hentry : entryOf c = ⟨s, x, t⟩ := Except.ok.inj ((h c hc).symm.trans hread)
    refine ⟨cs₁.map entryOf, cs₂.map entryOf, by simp [hentry], fun e he => ?_⟩
    obtain ⟨d, hd, rfl⟩ := List.mem_map.1 he
    rw [← Cell.stands_iff (h d (by simp [hd]))]
    intro hs
    refine hlast d (by simp [hd]) hs ?_
    exact (List.pairwise_cons.1 (List.pairwise_append.1 sorted).2.1).1 d hd

theorem containsState_cells_iff {entryOf : Cell → Entry}
    (h : ∀ c ∈ cs, c.entry names = .ok (entryOf c)) :
    (Program.ofEntries (cs.map entryOf)).containsState s = true ↔
      ∃ c ∈ cs, names[c.column - 1]? = some s := by
  rw [Program.containsState_ofEntries]
  constructor
  · rintro ⟨e, he, rfl⟩
    obtain ⟨c, hc, rfl⟩ := List.mem_map.1 he
    exact ⟨c, hc, (Cell.entry_eq_ok_iff.1 (h c hc)).1.2⟩
  · rintro ⟨c, hc, hs⟩
    exact ⟨entryOf c, List.mem_map_of_mem hc, ((Cell.stands_iff (h c hc)).1 ⟨rfl, hs⟩).1⟩

theorem get?_cells_eq_none_iff {entryOf : Cell → Entry}
    (h : ∀ c ∈ cs, c.entry names = .ok (entryOf c)) :
    (Program.ofEntries (cs.map entryOf)).get? s x = none ↔ ∀ c ∈ cs, ¬c.Stands names s x := by
  rw [Program.get?_ofEntries_eq_none_iff, List.forall_mem_map]
  exact forall₂_congr fun c hc => not_congr (Cell.stands_iff (h c hc)).symm

end

/-! ## The meaning of a text -/

/-- What a text means as a state table. -/
inductive Meaning (text : String) : Except Error Program → Prop
  /-- There is no cell, so there is no transition. -/
  | noTransitions (no_cell : ∀ names c, ¬IsCell text names c) : Meaning text (.error .noTransitions)
  /-- Some cell is refused; the first such cell in reading order gives the error. -/
  | refused {names : List String} {c : Cell} {e : Error} (cell : IsCell text names c)
      (refused : c.Refused names e)
      (first : ∀ d, IsCell text names d → d.Before c → ∀ e', ¬d.Refused names e') :
      Meaning text (.error e)
  /-- There are cells, and each stands under a name and holds a transition. The program binds to a
  state and a symbol the transition of the last of their cells, and has no other state. -/
  | program {n : Nat} {names : List String} {p : Program} (header : HeaderAt text n names)
      (some_cell : ∃ c, IsCell text names c)
      (all_read : ∀ c, IsCell text names c →
        c.column ≤ names.length ∧ ∃ t, Transition.ofField c.field = .ok t)
      (bound : ∀ s x t, p.get? s x = some t ↔ ∃ c, IsCell text names c ∧ c.Stands names s x ∧
        Transition.ofField c.field = .ok t ∧
        ∀ d, IsCell text names d → d.Stands names s x → ¬c.Before d)
      (unbound : ∀ s x, p.get? s x = none ↔ ∀ c, IsCell text names c → ¬c.Stands names s x)
      (states : ∀ s, p.containsState s = true ↔
        ∃ c, IsCell text names c ∧ names[c.column - 1]? = some s) :
      Meaning text (.ok p)

section

variable {text : String} {names names' : List String} {c d : Cell} {e e' : Error}

theorem IsCell.names_unique (hc : IsCell text names c) (hd : IsCell text names' d) :
    names = names' := by
  obtain ⟨n, row, h, -⟩ := hc
  obtain ⟨n', row', h', -⟩ := hd
  exact (h.unique h').2

theorem IsCell.column_pos (h : IsCell text names c) : 1 ≤ c.column := by
  obtain ⟨n, row, -, -, -, hc⟩ := h
  exact hc.column

theorem Cell.Refused.unique (h : c.Refused names e) (h' : c.Refused names e') : e = e' := by
  rcases h with ⟨hlt, rfl⟩ | ⟨hle, hf⟩ <;> rcases h' with ⟨hlt', rfl⟩ | ⟨hle', hf'⟩
  · rfl
  · omega
  · omega
  · exact Except.error.inj (hf.symm.trans hf')

theorem Cell.Refused.not_read (h : c.Refused names e)
    (hr : c.column ≤ names.length ∧ ∃ t, Transition.ofField c.field = .ok t) : False := by
  obtain ⟨hle, t, ht⟩ := hr
  rcases h with ⟨hlt, -⟩ | ⟨-, hf⟩
  · omega
  · rw [ht] at hf
    cases hf

/-- A text has at most one meaning. -/
theorem Meaning.unique {r r' : Except Error Program} (h : Meaning text r) (h' : Meaning text r') :
    r = r' := by
  cases h with
  | noTransitions none =>
    cases h' with
    | noTransitions => rfl
    | refused cell => exact absurd cell (none _ _)
    | program _ some =>
      obtain ⟨c, hc⟩ := some
      exact absurd hc (none _ _)
  | @refused names c e cell refused first =>
    cases h' with
    | noTransitions none => exact absurd cell (none _ _)
    | @refused names' c' e' cell' refused' first' =>
      obtain rfl := cell.names_unique cell'
      have hcd : ¬c.Before c' := fun hb => first' c cell hb e refused
      have hdc : ¬c'.Before c := fun hb => first c' cell' hb e' refused'
      unfold Cell.Before at hcd hdc
      obtain rfl := cell.unique cell' (by omega) (by omega)
      rw [refused.unique refused']
    | program _ some all =>
      obtain ⟨d, hd⟩ := some
      obtain rfl := cell.names_unique hd
      exact (refused.not_read (all c cell)).elim
  | @program n names p header some all bound unbound states =>
    cases h' with
    | noTransitions none =>
      obtain ⟨c, hc⟩ := some
      exact absurd hc (none _ _)
    | refused cell refused =>
      obtain ⟨d, hd⟩ := some
      obtain rfl := cell.names_unique hd
      exact (refused.not_read (all _ cell)).elim
    | @program n' names' p' header' some' all' bound' unbound' states' =>
      obtain rfl := (header.unique header').2
      refine congrArg Except.ok (Program.ext_get? (fun s x => ?_) fun s => ?_)
      · refine Option.ext fun t => ?_
        rw [bound, bound']
      · rw [Bool.eq_iff_iff, states, states']

/-- Cells in reading order under the header of the text give a meaning of the text. -/
theorem meaning_of_cells {n line : Nat} {cs : List Cell} (header : HeaderAt text n names)
    (hcell : ∀ {names' c}, IsCell text names' c ↔ names' = names ∧ c ∈ cs)
    (sorted : cs.Pairwise Cell.Before) :
    Meaning text (outcome (cellFindings line names cs)) := by
  rcases read_cases names cs with hgood | ⟨before, c, after, e, rfl, hb, hc⟩
  · have : Nonempty Entry := ⟨⟨"", blank, default⟩⟩
    choose! entryOf hread using hgood
    rw [outcome_eq_ok entryOf hread]
    split
    next hnil => exact .noTransitions fun names' c hc => by simp [hcell, hnil] at hc
    next hne =>
      obtain ⟨c, hc⟩ := List.exists_mem_of_ne_nil cs hne
      refine .program header ⟨c, hcell.2 ⟨rfl, hc⟩⟩ (fun d hd => ?_) (fun s x t => ?_)
        (fun s x => ?_) fun s => ?_
      · obtain ⟨⟨-, hs⟩, hf⟩ := Cell.entry_eq_ok_iff.1 (hread d (hcell.1 hd).2)
        obtain ⟨hlt, -⟩ := List.getElem?_eq_some_iff.1 hs
        exact ⟨by omega, _, hf⟩
      · simp only [get?_cells_iff sorted hread, hcell, true_and]
      · simp only [get?_cells_eq_none_iff hread, hcell, true_and]
      · simp only [containsState_cells_iff hread, hcell, true_and]
  · have cell : IsCell text names c := hcell.2 ⟨rfl, by simp⟩
    rw [outcome_eq_error rfl hb hc]
    refine .refused cell ((Cell.entry_eq_error_iff cell.column_pos).1 hc) fun d hd hdc e' hr => ?_
    rcases List.mem_append.1 (hcell.1 hd).2 with hdb | hda
    · obtain ⟨entry, hok⟩ := hb d hdb
      rw [(Cell.entry_eq_error_iff hd.column_pos).2 hr] at hok
      cases hok
    · rcases List.mem_cons.1 hda with rfl | hda
      · exact Cell.Before.irrefl d hdc
      · have hcd := (List.pairwise_cons.1 (List.pairwise_append.1 sorted).2.1).1 d hda
        exact hcd.asymm hdc

/-- The reader gives a meaning of the text. -/
theorem meaning_of_read (text : String) (j : Journal) :
    Meaning text ((read (Delivery.ofText text)).run j).1 := by
  rw [read_result, ofText_eq]
  rcases header_cases text with hfree | ⟨before, header, rows, hlines, hb, hh⟩
  · rw [findings_of_no_header hfree]
    exact .noTransitions fun names c => not_isCell_of_no_header hfree
  · rw [hlines, findings_of_header hb hh]
    exact meaning_of_cells ((headerAt_iff hlines hb hh).2 ⟨rfl, rfl⟩) (isCell_iff hlines hb hh)
      (pairwise_tableCells _ rows)

/-- A text that means something means a program exactly if it has cells and each can be read. -/
theorem Meaning.ok_iff {r : Except Error Program} (h : Meaning text r) :
    (∃ p, r = .ok p) ↔ ∃ names, (∃ c, IsCell text names c) ∧ ∀ c, IsCell text names c →
      c.column ≤ names.length ∧ ∃ t, Transition.ofField c.field = .ok t := by
  cases h with
  | noTransitions none =>
    constructor
    · rintro ⟨p, hp⟩
      cases hp
    · rintro ⟨names, ⟨c, hc⟩, -⟩
      exact absurd hc (none names c)
  | refused cell refused =>
    constructor
    · rintro ⟨p, hp⟩
      cases hp
    · rintro ⟨names, ⟨d, hd⟩, all⟩
      obtain rfl := cell.names_unique hd
      exact (refused.not_read (all _ cell)).elim
  | @program n names p _ some all => exact ⟨fun _ => ⟨names, some, all⟩, fun _ => ⟨p, rfl⟩⟩

/-- The reader gives a program exactly if there are cells and each stands under a name and holds a
transition. Whatever it gives is what the text means as a state table. -/
theorem read_accepts_grammar (text : String) (j : Journal) :
    ((∃ p, ((read (Delivery.ofText text)).run j).1 = .ok p) ↔
      ∃ names, (∃ c, IsCell text names c) ∧ ∀ c, IsCell text names c →
        c.column ≤ names.length ∧ ∃ t, Transition.ofField c.field = .ok t) ∧
    ∀ r, ((read (Delivery.ofText text)).run j).1 = r ↔ Meaning text r := by
  have meaning := meaning_of_read text j
  refine ⟨meaning.ok_iff, fun r => ⟨?_, meaning.unique⟩⟩
  rintro rfl
  exact meaning

end

end TapeMachine.Table
