import TapeMachine.Proofs.TableRoundTrip

/-!
# What follows a state table

The reader knows no end of the table. A further text, set off by an empty line, is read as rows like
all others, so it is passed over only as far as its lines hold no cells
(`not_trailerCell_of_no_tab`). A cell in it is refused, or binds a transition.

`trailer_ignored_iff` says which texts after a table leave its program as it is: those in which each
cell stands under a name of the header and holds a transition, and the last cell of a place holds
the transition that the program has there anyway.
-/

namespace TapeMachine.Table

/-- A table closed by a line end, an empty line and a further text. -/
def withTrailer (body trailer : String) : String :=
  body ++ "\n" ++ "\n" ++ trailer

/-- A cell of the text after the table. Its lines are counted on from those of the table and the
empty line. -/
def TrailerCell (body trailer : String) (c : Cell) : Prop :=
  ∃ i row, c.line = (textLines (body ++ "\n")).length + 1 + i ∧ LineAt trailer i row ∧ Holds row c

/-- The cell stands under a name and holds a transition, and this is the transition that the program
has in the cell's place unless a cell after it in the trailer has the same place. -/
def Repeats (body trailer : String) (names : List String) (p : Program) (c : Cell) : Prop :=
  ∃ s t, c.Stands names s c.symbol ∧ Transition.ofField c.field = .ok t ∧
    ((∀ d, TrailerCell body trailer d → d.Stands names s c.symbol → ¬c.Before d) →
      p.get? s c.symbol = some t)

section

variable {body trailer row : String} {n : Nat} {names names' : List String} {p q : Program}
  {c d : Cell}

/-! ## Lines and cells of the whole -/

theorem textLines_withTrailer :
    textLines (withTrailer body trailer) = textLines (body ++ "\n") ++ "" :: textLines trailer := by
  have hempty : Text.lines '\n' ('\n' :: trailer.toList) =
      ⟨[], true⟩ :: Text.lines '\n' trailer.toList :=
    Text.lines_append_cons List.not_mem_nil _
  have hchars : (withTrailer body trailer).toList =
      body.toList ++ '\n' :: '\n' :: trailer.toList := by
    simp [withTrailer]
  have hbody : (body ++ "\n").toList = body.toList ++ ['\n'] := by simp
  rw [textLines, hchars, Text.lines_append, hempty, ← hbody, List.map_append, List.map_cons]
  rfl

/-- The lines of the whole are the lines of the table, the empty line and the lines after it. -/
theorem lineAt_withTrailer_iff :
    LineAt (withTrailer body trailer) n row ↔ LineAt (body ++ "\n") n row ∨
      n = (textLines (body ++ "\n")).length + 1 ∧ row = "" ∨
      ∃ i, n = (textLines (body ++ "\n")).length + 1 + i ∧ LineAt trailer i row := by
  constructor
  · rintro ⟨m, rfl, hm⟩
    rw [textLines_withTrailer] at hm
    rcases Nat.lt_trichotomy m (textLines (body ++ "\n")).length with hlt | rfl | hgt
    · rw [List.getElem?_append_left hlt] at hm
      exact .inl ⟨m, rfl, hm⟩
    · rw [List.getElem?_append_right le_rfl, Nat.sub_self, List.getElem?_cons_zero] at hm
      exact .inr (.inl ⟨rfl, (Option.some.inj hm).symm⟩)
    · obtain ⟨k, rfl⟩ := Nat.exists_eq_add_of_lt hgt
      rw [Nat.add_assoc, List.getElem?_append_right (Nat.le_add_right _ _),
        Nat.add_sub_cancel_left, List.getElem?_cons_succ] at hm
      exact .inr (.inr ⟨k + 1, by omega, k, rfl, hm⟩)
  · rintro (⟨m, rfl, hm⟩ | ⟨rfl, rfl⟩ | ⟨_, rfl, k, rfl, hk⟩)
    · refine ⟨m, rfl, ?_⟩
      rwa [textLines_withTrailer,
        List.getElem?_append_left (List.getElem?_eq_some_iff.1 hm).1]
    · exact ⟨_, rfl, by rw [textLines_withTrailer, List.getElem?_append_right le_rfl,
        Nat.sub_self, List.getElem?_cons_zero]⟩
    · refine ⟨(textLines (body ++ "\n")).length + (k + 1), by omega, ?_⟩
      rwa [textLines_withTrailer, List.getElem?_append_right (Nat.le_add_right _ _),
        Nat.add_sub_cancel_left, List.getElem?_cons_succ]

/-- A cell is in a line with a tab. -/
theorem Holds.tab_mem (h : Holds row c) : '\t' ∈ row.toList := by
  by_contra htab
  have hfield := h.field
  have hcolumn := h.column
  rw [fields, List.splitOn_eq_singleton htab, List.getElem?_singleton, if_neg (by omega)] at hfield
  cases hfield

theorem LineAt.le_length {text : String} (h : LineAt text n row) : n ≤ (textLines text).length := by
  obtain ⟨i, rfl, hi⟩ := h
  exact (List.getElem?_eq_some_iff.1 hi).1

/-- The header of the table is the header of the whole. -/
theorem HeaderAt.withTrailer (h : HeaderAt (body ++ "\n") n names) :
    HeaderAt (withTrailer body trailer) n names := by
  obtain ⟨⟨line, hline, hnames⟩, hfirst⟩ := h
  refine ⟨⟨line, lineAt_withTrailer_iff.2 (.inl hline), hnames⟩, fun i hi line' hline' => ?_⟩
  have hle := hline.le_length
  rcases lineAt_withTrailer_iff.1 hline' with hline' | ⟨rfl, -⟩ | ⟨k, rfl, -⟩
  · exact hfirst i hi line' hline'
  · omega
  · omega

/-- The cells of the whole are those of the table and those of the trailer. -/
theorem isCell_withTrailer_iff (header : HeaderAt (body ++ "\n") n names) :
    IsCell (withTrailer body trailer) names' c ↔
      names' = names ∧ (IsCell (body ++ "\n") names c ∨ TrailerCell body trailer c) := by
  have whole : HeaderAt (withTrailer body trailer) n names := header.withTrailer
  obtain ⟨⟨line, hline, -⟩, -⟩ := id header
  have hle := hline.le_length
  constructor
  · rintro ⟨n', row, header', hlt, hrow, holds⟩
    obtain ⟨rfl, rfl⟩ := whole.unique header'
    refine ⟨rfl, ?_⟩
    rcases lineAt_withTrailer_iff.1 hrow with hrow | ⟨-, rfl⟩ | ⟨i, hi, hrow⟩
    · exact .inl ⟨n, row, header, hlt, hrow, holds⟩
    · exact absurd holds.tab_mem List.not_mem_nil
    · exact .inr ⟨i, row, hi, hrow, holds⟩
  · rintro ⟨rfl, ⟨n', row, header', hlt, hrow, holds⟩ | ⟨i, row, hi, hrow, holds⟩⟩
    · exact ⟨n', row, header'.withTrailer, hlt, lineAt_withTrailer_iff.2 (.inl hrow), holds⟩
    · exact ⟨n, row, whole, by omega, lineAt_withTrailer_iff.2 (.inr (.inr ⟨i, hi, hrow⟩)), holds⟩

theorem trailerCell_iff : TrailerCell body trailer c ↔
    c ∈ tableCells ((textLines (body ++ "\n")).length + 2) (textLines trailer) := by
  rw [mem_tableCells]
  constructor
  · rintro ⟨_, row, hc, ⟨k, rfl, hk⟩, holds⟩
    have hk' : c.line - ((textLines (body ++ "\n")).length + 2) = k := by omega
    exact ⟨by omega, row, by rw [hk', hk], holds⟩
  · rintro ⟨hle, row, hrow, holds⟩
    exact ⟨_, row, by omega, ⟨_, rfl, hrow⟩, holds⟩

theorem IsCell.withTrailer (h : IsCell (body ++ "\n") names c) :
    IsCell (withTrailer body trailer) names c := by
  obtain ⟨n, -, header, -⟩ := id h
  exact (isCell_withTrailer_iff header).2 ⟨rfl, .inl h⟩

theorem TrailerCell.isCell (header : HeaderAt (body ++ "\n") n names)
    (h : TrailerCell body trailer c) : IsCell (withTrailer body trailer) names c :=
  (isCell_withTrailer_iff header).2 ⟨rfl, .inr h⟩

/-- A cell of the table stands before every cell of the trailer. -/
theorem before_trailerCell (hc : IsCell (body ++ "\n") names c) (hd : TrailerCell body trailer d) :
    c.Before d := by
  obtain ⟨_, _, -, -, hline, -⟩ := hc
  obtain ⟨i, _, hi, -⟩ := hd
  have hle := hline.le_length
  exact .inl (by omega)

/-! ## The program of the whole -/

/-- The cells of a trailer repeat the program if the whole means the same program. -/
theorem repeats_of_meaning (header : HeaderAt (body ++ "\n") n names)
    (whole : Meaning (withTrailer body trailer) (.ok p)) (hc : TrailerCell body trailer c) :
    Repeats body trailer names p c := by
  cases whole with
  | program header' _ all_read bound =>
    obtain ⟨-, rfl⟩ := header.withTrailer.unique header'
    have cell := hc.isCell header
    obtain ⟨hle, t, ht⟩ := all_read c cell
    have hlt : c.column - 1 < names.length := by
      have := cell.column_pos
      omega
    have stands : c.Stands names names[c.column - 1] c.symbol :=
      ⟨rfl, List.getElem?_eq_getElem hlt⟩
    refine ⟨names[c.column - 1], t, stands, ht, fun last => ?_⟩
    -- the cells of the table all stand before `c`, so it is the last of the whole in its place
    refine (bound _ _ _).2 ⟨c, cell, stands, ht, fun d hd hs => ?_⟩
    rcases ((isCell_withTrailer_iff header).1 hd).2 with hd | hd
    · exact (before_trailerCell hd hc).asymm
    · exact last d hd hs

/-- If the cells of a trailer repeat the program of the table, the whole binds nothing else. -/
theorem get?_of_repeats (header : HeaderAt (body ++ "\n") n names)
    (table : Meaning (body ++ "\n") (.ok p)) (whole : Meaning (withTrailer body trailer) (.ok q))
    (h : ∀ c, TrailerCell body trailer c → Repeats body trailer names p c) {s : String} {x : Char}
    {t : Transition} (hq : q.get? s x = some t) : p.get? s x = some t := by
  cases table with
  | program header₁ _ _ bound₁ =>
    obtain ⟨-, rfl⟩ := header.unique header₁
    cases whole with
    | program header₂ _ _ bound₂ =>
      obtain ⟨-, rfl⟩ := header.withTrailer.unique header₂
      obtain ⟨c, hc, stands, ht, last⟩ := (bound₂ s x t).1 hq
      rcases ((isCell_withTrailer_iff header).1 hc).2 with hc | hc
      · exact (bound₁ s x t).2 ⟨c, hc, stands, ht, fun d hd => last d hd.withTrailer⟩
      · obtain ⟨s', t', stands', ht', hp⟩ := h c hc
        obtain ⟨rfl, hs⟩ := stands
        obtain rfl : s = s' := Option.some.inj (hs.symm.trans stands'.2)
        obtain rfl : t = t' := Except.ok.inj (ht.symm.trans ht')
        exact hp fun d hd => last d (hd.isCell header)

/-- If the cells of a trailer repeat the program of the table, the whole has no other program. -/
theorem eq_of_repeats (header : HeaderAt (body ++ "\n") n names)
    (table : Meaning (body ++ "\n") (.ok p)) (whole : Meaning (withTrailer body trailer) (.ok q))
    (h : ∀ c, TrailerCell body trailer c → Repeats body trailer names p c) : q = p := by
  have hle : ∀ {s x t}, q.get? s x = some t → p.get? s x = some t :=
    get?_of_repeats header table whole h
  have hrow := fun s => whole.exists_get? (s := s)
  cases table with
  | program header₁ _ _ bound₁ _ states₁ =>
    cases whole with
    | program header₂ _ _ _ unbound₂ states₂ =>
      obtain ⟨-, rfl⟩ := header₁.withTrailer.unique header₂
      refine Program.ext_get? (fun s x => ?_) fun s => ?_
      · cases hp : p.get? s x with
        | none =>
          rw [Option.eq_none_iff_forall_ne_some]
          intro t hq
          simp [hle hq] at hp
        | some t =>
          -- the cell of the table takes part in the whole, so something is bound in its place
          obtain ⟨c, hc, stands, -⟩ := (bound₁ s x t).1 hp
          obtain ⟨u, hu⟩ := Option.ne_none_iff_exists'.1 fun hnone =>
            (unbound₂ s x).1 hnone c hc.withTrailer stands
          rw [hu, ← hle hu, hp]
      · rw [Bool.eq_iff_iff]
        constructor
        · intro hs
          obtain ⟨x, t, hq⟩ := hrow s hs
          exact Program.containsState_of_get? (hle hq)
        · intro hs
          obtain ⟨c, hc, hname⟩ := (states₁ s).1 hs
          exact (states₂ s).2 ⟨c, hc.withTrailer, hname⟩

/-- A table keeps its program exactly if the cells of the trailer repeat it. -/
theorem meaning_withTrailer_iff (header : HeaderAt (body ++ "\n") n names)
    (table : Meaning (body ++ "\n") (.ok p)) :
    Meaning (withTrailer body trailer) (.ok p) ↔
      ∀ c, TrailerCell body trailer c → Repeats body trailer names p c := by
  constructor
  · exact fun whole c hc => repeats_of_meaning header whole hc
  · intro h
    have meaning := meaning_of_read (withTrailer body trailer) ⟨.error, #[]⟩
    obtain ⟨names₁, ⟨c, hc⟩, all_read⟩ := table.ok_iff.1 ⟨p, rfl⟩
    obtain ⟨_, -, header₁, -⟩ := id hc
    obtain ⟨-, rfl⟩ := header.unique header₁
    have readable : ∀ d, IsCell (withTrailer body trailer) names d →
        d.column ≤ names.length ∧ ∃ t, Transition.ofField d.field = .ok t := fun d hd => by
      rcases ((isCell_withTrailer_iff header).1 hd).2 with hd | hd
      · exact all_read d hd
      · obtain ⟨s, t, ⟨-, hs⟩, ht, -⟩ := h d hd
        have hlt := (List.getElem?_eq_some_iff.1 hs).1
        exact ⟨by omega, t, ht⟩
    obtain ⟨q, hq⟩ := meaning.ok_iff.2 ⟨names, ⟨c, hc.withTrailer⟩, readable⟩
    rw [hq] at meaning
    obtain rfl := eq_of_repeats header table meaning h
    exact meaning

theorem Meaning.exists_headerAt {text : String} (h : Meaning text (.ok p)) :
    ∃ n names, HeaderAt text n names := by
  cases h with
  | program header => exact ⟨_, _, header⟩

/-! ## Trailers without cells -/

theorem not_trailerCell_of_no_tab (htab : '\t' ∉ trailer.toList) :
    ¬TrailerCell body trailer c := by
  rintro ⟨i, row, -, hrow, holds⟩
  exact htab (hrow.mem_text holds.tab_mem)

/-- A trailer without a tab is passed over. -/
theorem read_withTrailer_of_no_tab {j : Journal}
    (h : ((read (Delivery.ofText (body ++ "\n"))).run j).1 = .ok p) (htab : '\t' ∉ trailer.toList)
    (j' : Journal) :
    ((read (Delivery.ofText (withTrailer body trailer))).run j').1 = .ok p := by
  have table : Meaning (body ++ "\n") (.ok p) := h ▸ meaning_of_read _ j
  obtain ⟨n, names, header⟩ := table.exists_headerAt
  have whole : Meaning (withTrailer body trailer) (.ok p) :=
    (meaning_withTrailer_iff header table).2 fun c hc => absurd hc (not_trailerCell_of_no_tab htab)
  exact (meaning_of_read _ j').unique whole

/-! ## Trailers that are ignored -/

/-- A text after a table leaves the program of the table as it is exactly if its cells repeat the
program: each stands under a name of the table's header and holds a transition, and the last of a
place holds the transition that the program has there. -/
theorem trailer_ignored_iff {j : Journal}
    (h : ((read (Delivery.ofText (body ++ "\n"))).run j).1 = .ok p) :
    ∃ n names, HeaderAt (body ++ "\n") n names ∧ ∀ (trailer : String) (j' : Journal),
      ((read (Delivery.ofText (withTrailer body trailer))).run j').1 = .ok p ↔
        ∀ c, TrailerCell body trailer c → Repeats body trailer names p c := by
  have table : Meaning (body ++ "\n") (.ok p) := h ▸ meaning_of_read _ j
  obtain ⟨n, names, header⟩ := table.exists_headerAt
  refine ⟨n, names, header, fun trailer j' => ?_⟩
  have meaning := meaning_of_read (withTrailer body trailer) j'
  rw [← meaning_withTrailer_iff header table]
  constructor
  · exact fun hread => hread ▸ meaning
  · exact meaning.unique

end

/-- A table of one transition, without its last line end. -/
def oneRow : String :=
  "\tQ1\n1\t1>0"

/-- The entry of the table. -/
def oneEntry : Entry :=
  ⟨"Q1", '1', ⟨"Q0", '1', .right⟩⟩

theorem read_oneRow (j : Journal) :
    ((read (Delivery.ofText (oneRow ++ "\n"))).run j).1 = .ok (.ofEntries [oneEntry]) := by
  rw [read_result]
  rfl

/-- A saved tape with a tab before it fails the table it is saved under, and a row under the empty
line replaces a transition of the table. -/
theorem trailer_not_ignored :
    ((read (Delivery.ofText (oneRow ++ "\n"))).run ⟨.error, #[]⟩).1 = .ok (.ofEntries [oneEntry]) ∧
      ((read (Delivery.ofText (withTrailer oneRow "Saved tape:\t111+11\n"))).run ⟨.error, #[]⟩).1 =
        .error (.parseTransition "111+11" Transition.noDirection) ∧
      ((read (Delivery.ofText (withTrailer oneRow "1\t1<0\n"))).run ⟨.error, #[]⟩).1 =
        .ok (.ofEntries [{ oneEntry with transition := ⟨"Q0", '1', .left⟩ }]) := by
  refine ⟨read_oneRow _, ?_, ?_⟩
  · rfl
  · rfl

/-- A trailer that replaces the transition of the table and binds it again. -/
def restoring : String :=
  "1\t1<0\n1\t1>0\n"

theorem trailerCell_restoring {c : Cell} :
    TrailerCell oneRow restoring c ↔ c = ⟨4, 1, '1', "1<0"⟩ ∨ c = ⟨5, 1, '1', "1>0"⟩ := by
  have hcells : tableCells ((textLines (oneRow ++ "\n")).length + 2) (textLines restoring) =
      [⟨4, 1, '1', "1<0"⟩, ⟨5, 1, '1', "1>0"⟩] := by rfl
  rw [trailerCell_iff, hcells]
  simp

theorem trailer_ignored_iff_restoring :
    ((read (Delivery.ofText (oneRow ++ "\n"))).run ⟨.error, #[]⟩).1 = .ok (.ofEntries [oneEntry]) ∧
      ((read (Delivery.ofText (withTrailer oneRow restoring))).run ⟨.error, #[]⟩).1 =
        .ok (.ofEntries [oneEntry]) := by
  refine ⟨read_oneRow _, ?_⟩
  obtain ⟨n, names, header, ignored⟩ := trailer_ignored_iff (read_oneRow ⟨.error, #[]⟩)
  have hlines : textLines (oneRow ++ "\n") = [] ++ "\tQ1" :: ["1\t1>0"] := by rfl
  obtain ⟨-, rfl⟩ := (headerAt_iff hlines (by simp) (by decide)).1 header
  refine (ignored restoring _).2 fun c hc => ?_
  rcases trailerCell_restoring.1 hc with rfl | rfl
  · refine ⟨"Q1", ⟨"Q0", '1', .left⟩, ⟨rfl, rfl⟩, rfl, fun last => ?_⟩
    -- the cell below it has the same place
    exact absurd (.inl (by decide)) (last _ (trailerCell_restoring.2 (.inr rfl)) ⟨rfl, rfl⟩)
  · exact ⟨"Q1", ⟨"Q0", '1', .right⟩, ⟨rfl, rfl⟩, rfl, fun _ => rfl⟩

end TapeMachine.Table
