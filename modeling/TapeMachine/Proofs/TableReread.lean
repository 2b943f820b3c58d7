import TapeMachine.Proofs.TableRoundTrip

/-!
# Programs that were read are read back

Whatever the reader lets through is written in a form that it reads back: names, symbols and fields
of a program that was read are made of characters of its text, so that they keep their places in its
table (`laidOut_of_read`), and a transition that was read is read back from its field.

The header alone can get lost. If no state of the program is named by a `Q` and a decimal digit, the
first row of its table is no header. A later row that is taken for one is lost as a row, and no
other has its symbol (`LaidOut.named_of_read`). `reread_iff_named` is the main statement.
-/

namespace TapeMachine.Table

variable {text : String} {names : List String} {c : Cell} {a : Char} {p : Program} {s : String}
  {n : Nat} {line : String}

theorem LineAt.mem_textLines (h : LineAt text n line) : line ∈ textLines text := by
  obtain ⟨i, -, hl⟩ := h
  exact List.mem_of_getElem? hl

/-- A state of a program that was read is a field of the header. -/
theorem Meaning.exists_header (h : Meaning text (.ok p)) (hs : p.containsState s = true) :
    ∃ n line, LineAt text n line ∧ s.toList ∈ fields line := by
  cases h with
  | @program n names _ header some_cell all_read bound unbound states =>
    obtain ⟨c, -, hname⟩ := (states s).1 hs
    obtain ⟨line, hl, -, rfl⟩ := header.line
    obtain ⟨field, hfield, rfl⟩ := List.mem_map.1 (List.mem_of_getElem? hname)
    rw [String.toList_ofList]
    exact ⟨n, line, hl, List.mem_of_mem_tail hfield⟩

/-- The symbol and the field of a cell are made of characters of its line. -/
theorem IsCell.mem_line (h : IsCell text names c) (ha : a = c.symbol ∨ a ∈ c.field.toList) :
    ∃ line ∈ textLines text, a ∈ line.toList := by
  obtain ⟨n, row, -, -, hl, hc⟩ := h
  exact ⟨row, hl.mem_textLines, (hc.mem_row ha).1⟩

/-! ## From the text to the table -/

section

variable (clean : ∀ line ∈ textLines text, '\r' ∉ line.toList)

include clean

theorem endsLine_name (h : Meaning text (.ok p)) (hs : s ∈ p.states) :
    '\t' ∉ s.toList ∧ EndsLine s.toList := by
  obtain ⟨n, line, hl, hfield⟩ := h.exists_header (Program.mem_states_iff.1 hs)
  have hline : ∀ {a}, a ∈ s.toList → a ∈ line.toList := Text.mem_of_mem_splitOn hfield
  refine ⟨Text.not_mem_of_mem_splitOn hfield, .of_not_mem (fun hmem => ?_) fun hmem => ?_⟩
  · exact hl.newline_not_mem (hline hmem)
  · exact clean line hl.mem_textLines (hline hmem)

theorem endsLine_field (h : IsCell text names c) {t : Transition}
    (hf : Transition.ofField c.field = .ok t) :
    '\t' ∉ t.field.toList ∧ EndsLine t.field.toList := by
  -- the mark of the blank is the only character that may be new
  have hout : ∀ a, a ≠ blankMark → a ∉ c.field.toList → a ∉ t.field.toList := fun a hne hout hmem =>
    (Transition.mem_of_mem_field hf hmem).elim hne hout
  refine ⟨hout _ (by decide) ?_, .of_not_mem (hout _ (by decide) ?_) (hout _ (by decide) ?_)⟩
  · exact fun hmem => (h.ne_tab_newline (.inr hmem)).1 rfl
  · exact fun hmem => (h.ne_tab_newline (.inr hmem)).2 rfl
  · intro hmem
    obtain ⟨line, hline, hret⟩ := h.mem_line (.inr hmem)
    exact clean line hline hret

/-- What was read from a text without stray carriage returns keeps its places in its table. -/
theorem laidOut_of_read (h : Meaning text (.ok p)) : LaidOut p where
  states := by
    obtain ⟨e, he⟩ := List.exists_mem_of_ne_nil _ h.entries_ne_nil
    have hs := Program.containsState_of_get? (Program.mem_entries_iff.1 he)
    exact List.ne_nil_of_mem (Program.mem_states_iff.2 hs)
  names s hs := endsLine_name clean h hs
  symbols e he := by
    obtain ⟨names, c, hc, hs, -⟩ := h.exists_isCell he
    exact hc.ne_tab_newline (.inl hs.symm)
  fields e he := by
    obtain ⟨names, c, hc, -, hf⟩ := h.exists_isCell he
    exact endsLine_field clean hc hf

theorem tabular_of_read (h : Meaning text (.ok p))
    (named : ∃ s ∈ p.states, namesState s.toList = true) : Tabular p where
  rows s hs := h.exists_get? (Program.mem_states_iff.1 hs)
  named := named
  names := (laidOut_of_read clean h).names
  symbols := (laidOut_of_read clean h).symbols
  fields e he := by
    obtain ⟨names, c, -, -, hf⟩ := h.exists_isCell he
    obtain ⟨htab, hline⟩ := (laidOut_of_read clean h).fields e he
    exact ⟨htab, hline, Transition.ofField_field_of_ofField hf⟩

end

/-! ## From the table to the program -/

/-- A program is not read back from its table unless its header is known as one. -/
theorem LaidOut.named_of_read (h : LaidOut p) (meaning : Meaning p.table (.ok p)) :
    ∃ s ∈ p.states, namesState s.toList = true := by
  obtain ⟨e, he⟩ := List.exists_mem_of_ne_nil _ meaning.entries_ne_nil
  obtain ⟨names, c, ⟨n, row, header, -⟩, -⟩ := meaning.exists_isCell he
  obtain ⟨line, hline, hnames, -⟩ := header.line
  rcases h.lineAt_table hline with ⟨-, rfl⟩ | ⟨k, x, rfl, hx, rfl⟩
  · exact h.isHeader_headerRow_iff.1 (isHeader_iff.2 hnames)
  -- the row of `x` is taken for the header, but an entry for `x` is read from a later row
  · exfalso
    obtain ⟨e', he', rfl⟩ := mem_rowSymbols_iff.1 (List.mem_of_getElem? hx)
    obtain ⟨names', c', ⟨n', row', header', hlt, hrow', holds⟩, hs, -⟩ := meaning.exists_isCell he'
    obtain ⟨rfl, -⟩ := header.unique header'
    rcases h.lineAt_table hrow' with ⟨hfirst, -⟩ | ⟨k', x', hk', hx', rfl⟩
    · omega
    · have hsymbol := ((h.holds_symbolRow_iff (List.mem_of_getElem? hx')).1 holds).1
      have hlen : k < (rowSymbols p).length := (List.getElem?_eq_some_iff.1 hx).1
      have heq : (rowSymbols p)[k]? = (rowSymbols p)[k']? := by rw [hx, hx', ← hsymbol, hs]
      have := (List.getElem?_inj hlen nodup_rowSymbols).1 heq
      omega

/-- A program that was read from a text without stray carriage returns is read back from its table
exactly if the name of some state holds a `Q` followed by a decimal digit. -/
theorem reread_iff_named {j : Journal} (clean : ∀ line ∈ textLines text, '\r' ∉ line.toList)
    (hp : ((read (Delivery.ofText text)).run j).1 = .ok p) (j' : Journal) :
    ((read (Delivery.ofText p.table)).run j').1 = .ok p ↔
      ∃ s ∈ p.states, ∃ before d after, s.toList = before ++ statePrefix :: d :: after ∧
        Text.isDecimalDigit d = true := by
  have meaning : Meaning text (.ok p) := hp ▸ meaning_of_read text j
  simp only [← namesState_iff]
  constructor
  · intro hread
    have back : Meaning p.table (.ok p) := hread ▸ meaning_of_read p.table j'
    exact (laidOut_of_read clean meaning).named_of_read back
  · intro named
    exact (tabular_of_read clean meaning named).read_table j'

/-- A table with a state that has no name, a part to write of two characters and a next state that
holds the mark of a direction. -/
def permissive : String :=
  "\tQ1x\t\nab\t12>3<4\t_.5\n"

/-- What the table holds. -/
def permitted : List Entry :=
  [⟨"Q1x", 'a', ⟨"Q3<4", '1', .right⟩⟩, ⟨"", 'a', ⟨"Q5", blank, .stay⟩⟩]

theorem reread_iff_named_permissive :
    (∀ line ∈ textLines permissive, '\r' ∉ line.toList) ∧
      ((read (Delivery.ofText permissive)).run ⟨.error, #[]⟩).1 = .ok (.ofEntries permitted) ∧
      ((read (Delivery.ofText (Program.ofEntries permitted).table)).run ⟨.error, #[]⟩).1 =
        .ok (.ofEntries permitted) := by
  have clean : ∀ line ∈ textLines permissive, '\r' ∉ line.toList := by decide +kernel
  have hread : ((read (Delivery.ofText permissive)).run ⟨.error, #[]⟩).1 =
      .ok (.ofEntries permitted) := by rfl
  refine ⟨clean, hread, (reread_iff_named clean hread _).2 ⟨"Q1x", ?_, [], '1', ['x'], rfl, ?_⟩⟩
  · decide +kernel
  · decide

end TapeMachine.Table
