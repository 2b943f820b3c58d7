import TapeMachine.Proofs.LineByLine
import TapeMachine.Proofs.Pieces
import TapeMachine.Proofs.TableGrammar

/-!
# The layout around a state table

A reader passes over a line without a tab, whatever else the line holds, and once it has the header
also over a line that begins with a tab (`PassedOver`). Such a line only moves the lines after it.
So lines can be put between those of a text (`withLines`) as long as the reader passes over them:
what it comes to is the same, but for the line number in an error (`Reading.takeAll_spaced`).

How a line ends does not matter either, if returns stand nowhere else (`textLines_withReturns`), nor
does an empty line at the end of the text. `layout_around_table` puts this together.
-/

namespace TapeMachine

/-! ## Numbers of lines -/

/-- The error with the number of its line changed, if it names one. -/
def Error.renumber (f : Nat → Nat) : Error → Error
  | .columnOutOfRange line column => .columnOutOfRange (f line) column
  | e => e

namespace Table

/-- Where line number `n` stands after the lines of `gaps i` have been put between the first `i`
lines and the rest, for every `i`: every line put before it moves it on by one. -/
def movedTo {α : Type} (gaps : Nat → List α) (n : Nat) : Nat :=
  n + ((List.range n).flatMap gaps).length

theorem movedTo_succ {α : Type} (gaps : Nat → List α) (n : Nat) :
    movedTo gaps (n + 1) = movedTo gaps n + (gaps n).length + 1 := by
  simp only [movedTo, List.range_succ, List.flatMap_append, List.flatMap_singleton,
    List.length_append]
  omega

section

variable (f : Nat → Nat) (names : List String) (n : Nat) (p : Program)

theorem renumber_ofField {field : String} {e : Error} (h : Transition.ofField field = .error e) :
    e.renumber f = e := by
  unfold Transition.ofField at h
  split at h
  next => cases h; rfl
  next => split at h <;> cases h; rfl

/-- A row under another number has the same findings, but for the number. -/
theorem rowFindings_renumber (row : String) :
    rowFindings names (f n) row =
      (rowFindings names n row).map (Except.mapError (Error.renumber f)) := by
  unfold rowFindings
  split
  next =>
    rw [List.map_map]
    refine List.map_congr_left fun (field, i) _ => ?_
    simp only [Function.comp_apply]
    cases names[i]? with
    | none => rfl
    | some state =>
      cases hfield : Transition.ofField (String.ofList field) with
      | error e => exact congrArg Except.error (renumber_ofField f hfield).symm
      | ok t => rfl
  next => rfl

theorem enter_renumber (found : List (Except Error Finding)) :
    enter p (found.map (Except.mapError (Error.renumber f))) =
      (enter p found).mapError (Error.renumber f) := by
  induction found generalizing p with
  | nil => rfl
  | cons finding found ih =>
    rcases finding with e | _ | e
    · rfl
    · exact ih p
    · exact ih (p.add e)

theorem complete_renumber : complete p = (complete p).mapError (Error.renumber f) := by
  unfold complete
  split <;> rfl

end

/-! ## Lines that are passed over -/

/-- A line without a tab; or one that begins with a tab, if there was a header before. -/
def PassedOver (header : Bool) (line : List Char) : Prop :=
  '\t' ∉ line ∨ header = true ∧ line.head? = some '\t'

/-- A line is passed over without its return as it is with it. -/
theorem PassedOver.content {header : Bool} (line : Text.Line Char)
    (h : PassedOver header line.body) : PassedOver header (line.content '\r') := by
  refine h.imp (fun htab hc => htab (line.content_subset '\r' hc)) (And.imp_right fun htab => ?_)
  obtain ⟨rest, hrest⟩ := List.head?_eq_some_iff.1 htab
  rw [Text.Line.content]
  split
  next hret =>
    rw [Bool.and_eq_true, decide_eq_true_eq, hrest] at hret
    rw [hrest]
    cases rest with
    | nil => exact absurd (Option.some.inj hret.2) (by decide)
    | cons c rest => rfl
  next => exact htab

theorem isHeader_of_no_tab {row : String} (h : '\t' ∉ row.toList) : isHeader row = false := by
  rw [isHeader, fields, List.splitOn_eq_singleton h]
  rfl

/-- A row without a tab, or without a symbol, holds nothing. -/
theorem rowFindings_of_passedOver {names : List String} {n : Nat} {row : String}
    (h : '\t' ∉ row.toList ∨ row.toList.head? = some '\t') : rowFindings names n row = [] := by
  unfold rowFindings fields
  obtain htab | htab := h
  · rw [List.splitOn_eq_singleton htab]
    cases row.toList <;> rfl
  · obtain ⟨rest, hrest⟩ := List.head?_eq_some_iff.1 htab
    have hsplit : ('\t' :: rest).splitOn '\t' = [] :: rest.splitOn '\t' :=
      List.splitOn_append_cons_self_of_not_mem (List.not_mem_nil (a := '\t')) rest
    rw [hrest, hsplit]

/-- The deliveries of a text that falls into these pieces at its line ends. -/
def deliver (pieces : List (List Char)) : List Delivery :=
  (Text.linesOfPieces pieces).map fun line => .ok (String.ofList (line.content '\r'))

theorem deliver_pieces (text : String) :
    deliver (text.toList.splitOn '\n') = Delivery.ofText text :=
  rfl

theorem deliver_append (before : List (List Char)) {after : List (List Char)} (h : after ≠ []) :
    deliver (before ++ after) =
      before.map (fun body => .ok (String.ofList (Text.Line.content '\r' ⟨body, true⟩))) ++
        deliver after := by
  rw [deliver, Text.linesOfPieces_append h, List.map_append, List.map_map]
  rfl

theorem deliver_cons {piece : List Char} {after : List (List Char)} (noReturn : '\r' ∉ piece)
    (h : after ≠ []) : deliver (piece :: after) = .ok (String.ofList piece) :: deliver after := by
  have hcontent := Text.Line.content_of_not_mem ⟨piece, true⟩ noReturn
  have happend := deliver_append [piece] h
  rwa [List.singleton_append, List.map_singleton, hcontent] at happend

namespace Reading

variable {n : Nat} {names : Option (List String)} {p : Program}

theorem take_of_passedOver {row : String} (h : PassedOver names.isSome row.toList) :
    take ⟨n, names, p⟩ (.ok row) = .ok ⟨n + 1, names, p⟩ := by
  cases names with
  | none =>
    have htab : '\t' ∉ row.toList := h.resolve_right fun hsome => Bool.false_ne_true hsome.1
    simp [take, isHeader_of_no_tab htab]
  | some names =>
    rw [take_row, rowFindings_of_passedOver (h.imp_right And.right)]
    rfl

/-- Lines that are passed over are counted. -/
theorem takeAll_passedOver {lines : List (List Char)}
    (h : ∀ line ∈ lines, PassedOver names.isSome line) (ds : List Delivery) (n : Nat) :
    takeAll ⟨n, names, p⟩ (lines.map (fun line => .ok (String.ofList line)) ++ ds) =
      takeAll ⟨n + lines.length, names, p⟩ ds := by
  induction lines generalizing n with
  | nil => rfl
  | cons line lines ih =>
    obtain ⟨hline, hlines⟩ := List.forall_mem_cons.1 h
    have htake : take ⟨n, names, p⟩ (.ok (String.ofList line)) = .ok ⟨n + 1, names, p⟩ :=
      take_of_passedOver (by rwa [String.toList_ofList])
    rw [List.map_cons, List.cons_append, takeAll_cons, htake, List.length_cons,
      Nat.add_comm lines.length, ← Nat.add_assoc]
    exact ih hlines (n + 1)

/-- A reader has found the header once it has taken it. -/
theorem isSome_names_of_take {r r' : Reading} {line : String} (h : r.take (.ok line) = .ok r') :
    r'.names.isSome = (r.names.isSome || isHeader line) := by
  obtain ⟨n, names, p⟩ := r
  cases names with
  | none =>
    obtain rfl := Except.ok.inj h
    cases isHeader line <;> simp
  | some names =>
    rw [take_row] at h
    cases hrow : enter p (rowFindings names (n + 1) line) with
    | error e => simp [hrow, Except.map] at h
    | ok q =>
      rw [hrow] at h
      obtain rfl := Except.ok.inj h
      simp

theorem takeAll_gap {gap after : List (List Char)} (h : ∀ line ∈ gap, PassedOver names.isSome line)
    (ne : after ≠ []) :
    takeAll ⟨n, names, p⟩ (deliver (gap ++ after)) =
      takeAll ⟨n + gap.length, names, p⟩ (deliver after) := by
  have hcontents : ∀ line ∈ gap.map fun body => Text.Line.content '\r' ⟨body, true⟩,
      PassedOver names.isSome line :=
    List.forall_mem_map.2 fun body hbody => PassedOver.content ⟨body, true⟩ (h body hbody)
  have hread := takeAll_passedOver (p := p) hcontents (deliver after) n
  rw [List.map_map, List.length_map] at hread
  rw [deliver_append gap ne]
  exact hread

/-- Lines that are all passed over lead to the outcome of what was read before. -/
theorem takeAll_deliver_passedOver {pieces : List (List Char)} (r : Reading)
    (h : ∀ line ∈ pieces, PassedOver r.names.isSome line) :
    r.takeAll (deliver pieces) = r.finish := by
  have hlines : ∀ line ∈ (Text.linesOfPieces pieces).map (Text.Line.content '\r'),
      PassedOver r.names.isSome line := by
    intro _ hmem
    obtain ⟨line, hline, rfl⟩ := List.mem_map.1 hmem
    exact .content line (h _ (Text.body_of_mem_linesOfPieces hline))
  have hread := takeAll_passedOver (p := r.program) hlines [] r.lines
  rw [List.append_nil, List.map_map] at hread
  exact hread

theorem takeAll_deliver_singleton {piece : List Char} (r : Reading) (noReturn : '\r' ∉ piece) :
    r.takeAll (deliver [piece]) = r.takeAll [.ok (String.ofList piece)] := by
  by_cases hpiece : piece = []
  · have hempty : ∀ line ∈ [[]], PassedOver r.names.isSome line := by simp [PassedOver]
    rw [hpiece]
    exact (takeAll_passedOver hempty [] r.lines).symm
  · have hcontent := Text.Line.content_of_not_mem ⟨piece, false⟩ noReturn
    rw [deliver, Text.linesOfPieces, if_neg hpiece, List.map_singleton, hcontent]

/-- Lines after the last one do not matter if they are passed over. -/
theorem takeAll_append_passedOver {pieces after : List (List Char)} (r : Reading) (ne : pieces ≠ [])
    (noReturn : ∀ piece ∈ pieces, '\r' ∉ piece)
    (h : ∀ line ∈ after,
      PassedOver (r.names.isSome || pieces.any fun piece => isHeader (String.ofList piece)) line) :
    r.takeAll (deliver (pieces ++ after)) = r.takeAll (deliver pieces) := by
  by_cases hafter : after = []
  · rw [hafter, List.append_nil]
  induction pieces generalizing r with
  | nil => exact absurd rfl ne
  | cons piece rest ih =>
    obtain ⟨hpiece, hrest⟩ := List.forall_mem_cons.1 noReturn
    rw [List.cons_append, deliver_cons hpiece (List.append_ne_nil_of_right_ne_nil rest hafter),
      takeAll_cons]
    by_cases hlast : rest = []
    · rw [hlast, takeAll_deliver_singleton r hpiece, takeAll_cons]
      cases htake : r.take (.ok (String.ofList piece)) with
      | error e => rfl
      | ok r' =>
        refine takeAll_deliver_passedOver r' fun line hline => ?_
        rw [isSome_names_of_take htake]
        simpa [hlast] using h line hline
    · rw [deliver_cons hpiece hlast, takeAll_cons]
      cases htake : r.take (.ok (String.ofList piece)) with
      | error e => rfl
      | ok r' =>
        refine ih r' hlast hrest fun line hline => ?_
        rw [isSome_names_of_take htake]
        simpa [Bool.or_assoc] using h line hline

/-- A row is taken under another number as it is under its own, but for the number. -/
theorem takeAll_cons_moved {f : Nat → Nat} {m : Nat} (hm : f (n + 1) = m + 1) (row : String)
    {ds ds' : List Delivery}
    (h : ∀ names' q, take ⟨n, names, p⟩ (.ok row) = .ok ⟨n + 1, names', q⟩ →
      takeAll ⟨m + 1, names', q⟩ ds =
        (takeAll ⟨n + 1, names', q⟩ ds').mapError (Error.renumber f)) :
    takeAll ⟨m, names, p⟩ (.ok row :: ds) =
      (takeAll ⟨n, names, p⟩ (.ok row :: ds')).mapError (Error.renumber f) := by
  rw [takeAll_cons, takeAll_cons]
  cases names with
  | none => exact h _ p rfl
  | some names =>
    rw [take_row, take_row, ← hm, rowFindings_renumber f names (n + 1), enter_renumber, hm]
    cases hrow : enter p (rowFindings names (n + 1) row) with
    | error e => rfl
    | ok q => exact h (some names) q (by rw [take_row, hrow]; rfl)

end Reading

/-! ## Lines between lines -/

/-- Lines with those of `gaps n` before the first, those of `gaps (n + 1)` before the second, and so
on; after the last line come those of one more gap. -/
def spaced (gaps : Nat → List (List Char)) (n : Nat) : List (List Char) → List (List Char)
  | [] => gaps n
  | line :: lines => gaps n ++ line :: spaced gaps (n + 1) lines

theorem spaced_ne_nil (gaps : Nat → List (List Char)) (n : Nat) {lines : List (List Char)}
    (h : lines ≠ []) : spaced gaps n lines ≠ [] := by
  cases lines with
  | nil => exact absurd rfl h
  | cons line lines => simp [spaced]

/-- What the reader comes to with lines in between that it passes over is what it comes to without
them, but for the number of the line in an error. -/
theorem Reading.takeAll_spaced {gaps : Nat → List (List Char)} {names : Option (List String)}
    {pieces : List (List Char)} {n : Nat} {p : Program} (ne : pieces ≠ [])
    (noReturn : ∀ piece ∈ pieces, '\r' ∉ piece)
    (h : ∀ i, ∀ line ∈ gaps (n + i), PassedOver
      (names.isSome || (pieces.take i).any fun piece => isHeader (String.ofList piece)) line) :
    takeAll ⟨movedTo gaps n, names, p⟩ (deliver (spaced gaps n pieces)) =
      (takeAll ⟨n, names, p⟩ (deliver pieces)).mapError (Error.renumber (movedTo gaps)) := by
  induction pieces generalizing n names p with
  | nil => exact absurd rfl ne
  | cons piece rest ih =>
    obtain ⟨hpiece, hrest⟩ := List.forall_mem_cons.1 noReturn
    have hgap : ∀ line ∈ gaps n, PassedOver names.isSome line := fun line hline => by
      simpa using h 0 line hline
    have hstep : movedTo gaps (n + 1) = movedTo gaps n + (gaps n).length + 1 := movedTo_succ gaps n
    rw [spaced, takeAll_gap hgap (List.cons_ne_nil _ _)]
    by_cases hlast : rest = []
    · subst hlast
      have hpassed : ∀ line ∈ gaps (n + 1), PassedOver
          (names.isSome || [piece].any fun piece => isHeader (String.ofList piece)) line :=
        fun line hline => by simpa using h 1 line hline
      have hafter := takeAll_append_passedOver ⟨movedTo gaps n + (gaps n).length, names, p⟩
        (List.cons_ne_nil piece []) noReturn hpassed
      rw [spaced, ← List.singleton_append, hafter, takeAll_deliver_singleton _ hpiece,
        takeAll_deliver_singleton _ hpiece]
      exact takeAll_cons_moved hstep _ fun _ q _ => complete_renumber _ q
    · rw [deliver_cons hpiece (spaced_ne_nil gaps _ hlast), deliver_cons hpiece hlast]
      refine takeAll_cons_moved hstep _ fun names' q hq => ?_
      rw [← hstep]
      refine ih hlast hrest fun i line hline => ?_
      have hnames : names'.isSome = (names.isSome || isHeader (String.ofList piece)) :=
        isSome_names_of_take hq
      have hpassed := h (i + 1) line (by rwa [← Nat.add_assoc, Nat.add_right_comm])
      simpa [hnames, Bool.or_assoc] using hpassed

/-- The text with the lines of `gaps i` after its first `i` lines, for every `i`. What follows the
last line end counts as a line here, even if it is empty. -/
def withLines (gaps : Nat → List String) (text : String) : String :=
  String.ofList <| ['\n'].intercalate <|
    spaced (fun i => (gaps i).map String.toList) 0 (text.toList.splitOn '\n')

/-- The text with a return before every line end. -/
def withReturns (text : String) : String :=
  String.ofList (text.toList.flatMap fun c => if c = '\n' then ['\r', '\n'] else [c])

/-- What can be put between the lines of a text: lines without a tab, and after the header also
lines that begin with a tab. -/
structure Around (text : String) (gaps : Nat → List String) : Prop where
  newline : ∀ i, ∀ line ∈ gaps i, '\n' ∉ line.toList
  passed_over : ∀ i, ∀ line ∈ gaps i, '\t' ∉ line.toList ∨
    line.toList.head? = some '\t' ∧ ∃ n names, HeaderAt text n names ∧ n ≤ i

theorem mem_spaced {gaps : Nat → List (List Char)} {line : List Char} :
    ∀ {lines : List (List Char)} {n : Nat}, line ∈ spaced gaps n lines →
      line ∈ lines ∨ ∃ i, line ∈ gaps i
  | [], n, h => .inr ⟨n, h⟩
  | first :: lines, n, h => by
    obtain h | h | h := (by simpa [spaced] using h :
      line ∈ gaps n ∨ line = first ∨ line ∈ spaced gaps (n + 1) lines)
    · exact .inr ⟨n, h⟩
    · exact .inl (by simp [h])
    · exact (mem_spaced h).imp_left (List.mem_cons_of_mem _)

section

variable {text : String}

theorem pieces_noReturn (noReturn : '\r' ∉ text.toList) :
    ∀ piece ∈ text.toList.splitOn '\n', '\r' ∉ piece := fun _ hpiece hmem =>
  noReturn (Text.mem_of_mem_splitOn hpiece hmem)

/-- The header of a text is among its pieces up to there. -/
theorem HeaderAt.any_isHeader {n i : Nat} {names : List String} (h : HeaderAt text n names)
    (noReturn : '\r' ∉ text.toList) (hi : n ≤ i) :
    ((text.toList.splitOn '\n').take i).any (fun piece => isHeader (String.ofList piece)) =
      true := by
  obtain ⟨⟨header, ⟨k, rfl, hk⟩, hnames, -⟩, -⟩ := h
  rw [textLines, List.getElem?_map, Option.map_eq_some_iff] at hk
  obtain ⟨line, hline, rfl⟩ := hk
  have hpiece : (text.toList.splitOn '\n')[k]? = some line.body :=
    Text.getElem?_of_linesOfPieces hline
  rw [line.content_of_not_mem (pieces_noReturn noReturn _ (List.mem_of_getElem? hpiece))] at hnames
  refine List.any_eq_true.2 ⟨line.body, ?_, isHeader_iff.2 hnames⟩
  exact List.mem_of_getElem? (i := k) (by rw [List.getElem?_take_of_lt hi, hpiece])

theorem content_flatMap_returns (s : List Char) (noReturn : '\r' ∉ s) :
    (Text.lines '\n' (s.flatMap fun c => if c = '\n' then ['\r', '\n'] else [c])).map
        (Text.Line.content '\r') =
      (Text.lines '\n' s).map (Text.Line.content '\r') := by
  have hfree : ∀ body : List Char, '\n' ∉ body →
      body.flatMap (fun c => if c = '\n' then ['\r', '\n'] else [c]) = body := fun body hbody => by
    have hkept : ∀ c ∈ body, (if c = '\n' then ['\r', '\n'] else [c]) = [c] := by
      rintro c hc
      rw [if_neg]
      rintro rfl
      exact hbody hc
    rw [List.flatMap_congr hkept, List.flatMap_singleton']
  induction s using Text.line_induction '\n' with
  | last body h => rw [hfree body h]
  | step body rest h ih =>
    have hbody : '\r' ∉ body := fun hmem => noReturn (List.mem_append_left _ hmem)
    have hrest : '\r' ∉ rest := fun hmem => noReturn (by simp [hmem])
    have hreturn : '\n' ∉ body ++ ['\r'] := by simp [h]
    have hcontent : Text.Line.content '\r' ⟨body ++ ['\r'], true⟩ = body := by
      simp [Text.Line.content]
    rw [List.flatMap_append, hfree body h, List.flatMap_cons, if_pos rfl, List.cons_append,
      List.singleton_append, ← List.singleton_append, ← List.append_assoc,
      Text.lines_append_cons hreturn, Text.lines_append_cons h, List.map_cons, List.map_cons,
      ih hrest, hcontent, Text.Line.content_of_not_mem ⟨body, true⟩ hbody]

/-- Returns before the line ends are not read. -/
theorem textLines_withReturns (noReturn : '\r' ∉ text.toList) :
    textLines (withReturns text) = textLines text := by
  have hcontent := congrArg (List.map String.ofList) (content_flatMap_returns text.toList noReturn)
  rw [List.map_map, List.map_map] at hcontent
  rw [textLines, withReturns, String.toList_ofList]
  exact hcontent

/-- The pieces of a text with lines put in between. -/
theorem splitOn_withLines {gaps : Nat → List String} (around : Around text gaps) :
    (withLines gaps text).toList.splitOn '\n' =
      spaced (fun i => (gaps i).map String.toList) 0 (text.toList.splitOn '\n') := by
  rw [withLines, String.toList_ofList, List.splitOn_intercalate]
  · intro line hline
    obtain hpiece | ⟨i, hgap⟩ := mem_spaced hline
    · exact Text.not_mem_of_mem_splitOn hpiece
    · obtain ⟨line, hmem, rfl⟩ := List.mem_map.1 hgap
      exact around.newline i line hmem
  · exact spaced_ne_nil _ _ (List.splitOn_ne_nil _ _)

theorem movedTo_map {α β : Type} (gaps : Nat → List α) (f : α → β) :
    movedTo (fun i => (gaps i).map f) = movedTo gaps := by
  funext n
  simp [movedTo, ← List.map_flatMap]

theorem result_eq (text : String) (j : Journal) :
    ((read (Delivery.ofText text)).run j).1 =
      Reading.start.takeAll (deliver (text.toList.splitOn '\n')) := by
  rw [read_result, ← takeAll_start, deliver_pieces]

/-- The layout around a table does not matter. A text without returns means the same with a return
before every line end, with another line end after it, and with lines put between its own that hold
no tab, or begin with one and come after the header. Only the line number of a field without a state
grows by the number of lines put before it. -/
theorem layout_around_table (noReturn : '\r' ∉ text.toList) (j : Journal) :
    let result := fun text => ((read (Delivery.ofText text)).run j).1
    result (withReturns text) = result text ∧
    result (text ++ "\n") = result text ∧
    ∀ gaps, Around text gaps →
      result (withLines gaps text) = (result text).mapError (Error.renumber (movedTo gaps)) := by
  have hpieces := pieces_noReturn noReturn
  have hne := List.splitOn_ne_nil '\n' text.toList
  intro result
  refine ⟨?_, ?_, fun gaps around => ?_⟩
  · simp only [result]
    rw [ofText_eq, ofText_eq, textLines_withReturns noReturn]
  · have hend : (text ++ "\n").toList.splitOn '\n' = text.toList.splitOn '\n' ++ [[]] := by
      rw [String.toList_append]
      exact List.splitOn_append_cons_self text.toList []
    simp only [result]
    rw [result_eq, result_eq, hend]
    exact Reading.takeAll_append_passedOver _ hne hpieces (by simp [PassedOver])
  · simp only [result]
    rw [result_eq, result_eq, splitOn_withLines around, ← movedTo_map gaps String.toList]
    refine Reading.takeAll_spaced (n := 0) hne hpieces fun i line hgap => ?_
    rw [Nat.zero_add] at hgap
    obtain ⟨line, hline, rfl⟩ := List.mem_map.1 hgap
    refine (around.passed_over i line hline).imp_right fun ⟨htab, n, names, header, hn⟩ =>
      ⟨?_, htab⟩
    exact header.any_isHeader noReturn hn

end

/-- A table with a row that has one field too many. -/
def crowded : String :=
  "\tQ1\n1\t1>1\t1.0\n"

/-- Remarks for it: one before the header and two after it. -/
def remarks : Nat → List String
  | 0 => ["Q1 is 1>1"]
  | 1 => ["\tQ2\t1!2", "1"]
  | _ => []

theorem around_crowded : Around crowded remarks where
  newline
    | 0 => by decide
    | 1 => by decide
    | _ + 2 => by simp [remarks]
  passed_over
    | 0 => by simp [remarks]
    | 1 => by
      have hlines : textLines crowded = [] ++ "\tQ1" :: ["1\t1>1\t1.0"] := by rfl
      have header := (headerAt_iff hlines (by simp) (by decide)).2 ⟨rfl, rfl⟩
      simp only [remarks, List.forall_mem_cons, List.not_mem_nil, false_imp_iff, implies_true,
        and_true]
      exact ⟨.inr ⟨rfl, 1, _, header, le_rfl⟩, .inl (by decide)⟩
    | _ + 2 => by simp [remarks]

/-- The field too many is found in the second line of the table, and in the fifth line if three are
put before it. -/
theorem layout_around_table_crowded :
    let result := fun text => ((read (Delivery.ofText text)).run ⟨.error, #[]⟩).1
    withLines remarks crowded = "Q1 is 1>1\n\tQ1\n\tQ2\t1!2\n1\n1\t1>1\t1.0\n" ∧
      result (withReturns crowded) = .error (.columnOutOfRange 2 2) ∧
      result (crowded ++ "\n") = .error (.columnOutOfRange 2 2) ∧
      result (withLines remarks crowded) = .error (.columnOutOfRange 5 2) := by
  have noReturn : '\r' ∉ crowded.toList := by decide
  obtain ⟨hreturns, hend, hlines⟩ := layout_around_table noReturn ⟨.error, #[]⟩
  exact ⟨rfl, hreturns, hend, hlines remarks around_crowded⟩

end Table

end TapeMachine
