import TapeMachine.Text.Lines

/-!
# Pieces of a list

What `List.splitOn` gives are pieces without the separator, made of members of the list. A list
falls into exactly two pieces if it holds the separator once (`splitOn_eq_pair_iff`), and rows that
are each closed by a line end are the lines of the text they make (`lines_of_rows`).
-/

namespace TapeMachine.Text

variable {α : Type} [DecidableEq α] {sep a : α} {s piece : List α}

theorem mem_splitOn_cons {x : α} (h : piece ∈ (x :: s).splitOn sep) :
    piece = [] ∨ piece ∈ s.splitOn sep ∨
      x ≠ sep ∧ ∃ rest ∈ s.splitOn sep, piece = x :: rest := by
  rw [List.splitOn_cons_eq_if_modifyHead] at h
  split at h
  next =>
    rcases List.mem_cons.1 h with rfl | h
    · exact .inl rfl
    · exact .inr (.inl h)
  next hx =>
    rw [beq_iff_eq] at hx
    obtain ⟨first, pieces, hs⟩ := List.exists_cons_of_ne_nil (List.splitOn_ne_nil sep s)
    rw [hs, List.modifyHead_cons] at h
    rcases List.mem_cons.1 h with rfl | h
    · exact .inr (.inr ⟨hx, first, by simp [hs], rfl⟩)
    · exact .inr (.inl (by simp [hs, h]))

/-- A piece does not hold the separator. -/
theorem not_mem_of_mem_splitOn : ∀ {s piece : List α}, piece ∈ s.splitOn sep → sep ∉ piece
  | [], piece, h => by
    rw [List.splitOn_nil, List.mem_singleton] at h
    simp [h]
  | x :: s, piece, h => by
    rcases mem_splitOn_cons h with rfl | h | ⟨hx, rest, hrest, rfl⟩
    · exact List.not_mem_nil
    · exact not_mem_of_mem_splitOn h
    · rw [List.mem_cons, not_or]
      exact ⟨Ne.symm hx, not_mem_of_mem_splitOn hrest⟩

/-- A piece is made of members of the list. -/
theorem mem_of_mem_splitOn : ∀ {s piece : List α}, piece ∈ s.splitOn sep → a ∈ piece → a ∈ s
  | [], piece, h, ha => by
    rw [List.splitOn_nil, List.mem_singleton] at h
    simp [h] at ha
  | x :: s, piece, h, ha => by
    rcases mem_splitOn_cons h with rfl | h | ⟨hx, rest, hrest, rfl⟩
    · simp at ha
    · exact List.mem_cons_of_mem _ (mem_of_mem_splitOn h ha)
    · rcases List.mem_cons.1 ha with rfl | ha
      · exact List.mem_cons_self
      · exact List.mem_cons_of_mem _ (mem_of_mem_splitOn hrest ha)

theorem splitOn_eq_pair_iff {b c : List α} :
    s.splitOn sep = [b, c] ↔ s = b ++ sep :: c ∧ sep ∉ b ∧ sep ∉ c := by
  constructor
  · intro h
    have hs : [sep].intercalate (s.splitOn sep) = s := List.intercalate_splitOn sep
    rw [h] at hs
    refine ⟨by rw [← hs]; simp, ?_, ?_⟩
    · exact not_mem_of_mem_splitOn (s := s) (by simp [h])
    · exact not_mem_of_mem_splitOn (s := s) (by simp [h])
  · rintro ⟨rfl, hb, hc⟩
    rw [List.splitOn_append_cons_self_of_not_mem hb, List.splitOn_eq_singleton hc]

/-! ## Lines -/

omit [DecidableEq α] in
/-- The lines are the pieces, but for the last one if it is empty. -/
theorem bodies_isPrefix : ∀ pieces : List (List α), (linesOfPieces pieces).map Line.body <+: pieces
  | [] => List.nil_prefix
  | [last] => by
    rw [linesOfPieces]
    split
    · exact List.nil_prefix
    · exact List.prefix_rfl
  | piece :: next :: rest => by
    rw [linesOfPieces, List.map_cons, List.prefix_cons_inj]
    exact bodies_isPrefix (next :: rest)

omit [DecidableEq α] in
theorem body_of_mem_linesOfPieces {pieces : List (List α)} {line : Line α}
    (h : line ∈ linesOfPieces pieces) : line.body ∈ pieces :=
  (bodies_isPrefix pieces).subset (List.mem_map_of_mem h)

omit [DecidableEq α] in
theorem getElem?_of_linesOfPieces {pieces : List (List α)} {line : Line α} {i : Nat}
    (h : (linesOfPieces pieces)[i]? = some line) : pieces[i]? = some line.body := by
  obtain ⟨rest, hrest⟩ := bodies_isPrefix pieces
  rw [← hrest, List.getElem?_append_left, List.getElem?_map, h, Option.map_some]
  rw [List.length_map]
  exact (List.getElem?_eq_some_iff.1 h).1

omit [DecidableEq α] in
/-- Pieces with a piece after them are closed lines. -/
theorem linesOfPieces_append {after : List (List α)} (h : after ≠ []) :
    ∀ before : List (List α),
      linesOfPieces (before ++ after) = before.map (⟨·, true⟩) ++ linesOfPieces after
  | [] => rfl
  | piece :: before => by
    obtain ⟨next, rest, hnext⟩ := List.exists_cons_of_ne_nil
      (List.append_ne_nil_of_right_ne_nil before h)
    rw [List.cons_append, hnext, linesOfPieces, ← hnext, linesOfPieces_append h before,
      List.map_cons, List.cons_append]

/-- A text is read line by line across every line end in it. -/
theorem lines_append {newline : α} (s rest : List α) :
    lines newline (s ++ newline :: rest) =
      lines newline (s ++ [newline]) ++ lines newline rest := by
  have hsplit : ∀ rest, lines newline (s ++ newline :: rest) =
      (s.splitOn newline).map (⟨·, true⟩) ++ lines newline rest := fun rest => by
    rw [lines, List.splitOn_append_cons_self, linesOfPieces_append (List.splitOn_ne_nil _ _), lines]
  rw [hsplit rest, hsplit [], lines_nil, List.append_nil]

/-- What holds of a text without a line end, and of a line before a text of which it holds, holds of
all texts. -/
theorem line_induction (newline : α) {P : List α → Prop} (last : ∀ body, newline ∉ body → P body)
    (step : ∀ body rest, newline ∉ body → P rest → P (body ++ newline :: rest)) (s : List α) :
    P s := by
  by_cases h : newline ∈ s
  · obtain ⟨body, rest, hs, hbody⟩ := List.eq_append_cons_of_mem h
    have shorter : rest.length < s.length := by
      rw [hs, List.length_append, List.length_cons]
      omega
    rw [hs]
    exact step body rest hbody (line_induction newline last step rest)
  · exact last s h
termination_by s.length

theorem Line.content_subset (ret : α) (line : Line α) :
    line.content ret ⊆ line.body := by
  rw [Line.content]
  split
  · exact List.dropLast_subset _
  · exact List.Subset.refl _

theorem Line.content_of_not_mem {ret : α} (line : Line α) (h : ret ∉ line.body) :
    line.content ret = line.body := by
  rw [Line.content, if_neg]
  rw [Bool.and_eq_true, decide_eq_true_eq]
  exact fun hret => h (List.mem_of_getLast? hret.2)

/-- A line holds no line end. -/
theorem not_mem_content {newline ret : α} {line : Line α} (h : line ∈ lines newline s) :
    newline ∉ line.content ret := fun hc =>
  not_mem_of_mem_splitOn (body_of_mem_linesOfPieces h) (line.content_subset ret hc)

/-- A line is made of members of the text. -/
theorem mem_of_mem_content {newline ret : α} {line : Line α} (h : line ∈ lines newline s)
    (ha : a ∈ line.content ret) : a ∈ s :=
  mem_of_mem_splitOn (body_of_mem_linesOfPieces h) (line.content_subset ret ha)

/-- A text of rows that are each closed by a line end has the rows as its lines. -/
theorem lines_of_rows {newline : α} :
    ∀ {rows : List (List α)}, (∀ row ∈ rows, newline ∉ row) →
      lines newline (rows.flatMap (· ++ [newline])) = rows.map (⟨·, true⟩)
  | [], _ => by simp
  | row :: rows, h => by
    rw [List.flatMap_cons, List.append_assoc, List.singleton_append,
      lines_append_cons (h row List.mem_cons_self),
      lines_of_rows fun r hr => h r (List.mem_cons_of_mem _ hr), List.map_cons]

end TapeMachine.Text
