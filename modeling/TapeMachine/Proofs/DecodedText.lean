import TapeMachine.Proofs.LineByLine
import TapeMachine.Proofs.Pieces
import TapeMachine.Proofs.TableGrammar
import TapeMachine.Text.Utf8

/-!
# Reading bytes

A list of bytes is cut into lines before anything is decoded, and each line is decoded by itself
when the reader asks for it. For the bytes of a text this comes to the lines of the text
(`Delivery.ofBytes_toUTF8`), because the bytes that end a line are found in no other character
(`Text.mem_utf8EncodeChar_iff`).

Other bytes have a first line that is not UTF-8 (`Text.isValidUTF8_or_badLine`). The reader comes to
it unless it has refused a line before (`Reading.takeAll_interrupted`).
`Table.read_bytes_line_by_line` says what it gives in either case.

Where bytes are shown, in the paths that messages name, those of a text are shown as that text
(`Text.shown_utf8`).
-/

namespace TapeMachine

/-! ## Bytes of characters -/

namespace Text

variable {s : List Char} {bytes : List UInt8}

@[simp] theorem utf8_nil : utf8 [] = [] :=
  rfl

@[simp] theorem utf8_append (s s' : List Char) : utf8 (s ++ s') = utf8 s ++ utf8 s' :=
  List.flatMap_append

@[simp] theorem utf8_cons (c : Char) (s : List Char) :
    utf8 (c :: s) = String.utf8EncodeChar c ++ utf8 s :=
  List.flatMap_cons

@[simp] theorem utf8_singleton (c : Char) : utf8 [c] = String.utf8EncodeChar c :=
  List.flatMap_singleton ..

theorem utf8_newline : String.utf8EncodeChar '\n' = [0x0a] :=
  rfl

theorem utf8_ret : String.utf8EncodeChar '\r' = [0x0d] :=
  rfl

/-- A byte below 128 is that of its own character, and is found in no other. -/
theorem mem_utf8EncodeChar_iff {b : UInt8} {a c : Char} (ascii : b.toNat < 128)
    (hb : a.val.toNat = b.toNat) : b ∈ String.utf8EncodeChar c ↔ c = a := by
  have hchar : c = a ↔ c.val.toNat = b.toNat := by
    rw [← hb, UInt32.toNat_inj, ← Char.ext_iff]
  have hbyte : ∀ n, n < 256 → (b = UInt8.ofNat n ↔ b.toNat = n) := fun n hn => by
    rw [← UInt8.toNat_inj, UInt8.toNat_ofNat_of_lt' hn]
  rw [hchar, String.utf8EncodeChar]
  split_ifs
  · rw [List.mem_singleton, hbyte _ (by omega), eq_comm]
  -- the bytes of all other characters are 128 or more
  all_goals
    simp (disch := omega) only [List.mem_cons, List.not_mem_nil, or_false, hbyte]
    omega

theorem newline_mem_utf8 : 0x0a ∈ utf8 s ↔ '\n' ∈ s := by
  have hchar : ∀ c, 0x0a ∈ String.utf8EncodeChar c ↔ c = '\n' := fun c =>
    mem_utf8EncodeChar_iff (by decide) rfl
  simp only [utf8, List.mem_flatMap, hchar, exists_eq_right]

theorem utf8_eq_nil_iff : utf8 s = [] ↔ s = [] := by
  cases s <;> simp [utf8, String.utf8EncodeChar_ne_nil]

theorem getLast?_utf8_iff : (utf8 s).getLast? = some 0x0d ↔ s.getLast? = some '\r' := by
  rcases List.eq_nil_or_concat s with rfl | ⟨init, c, rfl⟩
  · simp [utf8]
  · have hlast : (utf8 (init.concat c)).getLast? = (String.utf8EncodeChar c).getLast? := by
      rw [List.concat_eq_append, utf8_append, utf8_singleton,
        List.getLast?_append_of_ne_nil _ String.utf8EncodeChar_ne_nil]
    rw [hlast, List.concat_eq_append, List.getLast?_concat, Option.some.injEq]
    constructor
    · intro h
      exact (mem_utf8EncodeChar_iff (by decide) rfl).1 (List.mem_of_getLast? h)
    · rintro rfl
      rfl

/-! ## Decoding -/

theorem toList_toUTF8 (text : String) : text.toUTF8.data.toList = utf8 text.toList := by
  rw [String.toUTF8_eq_toByteArray, ← String.utf8Encode_toList, List.utf8Encode,
    List.toList_data_toByteArray, utf8]

theorem isValidUTF8_iff : bytes.toByteArray.IsValidUTF8 ↔ ∃ s, bytes = utf8 s := by
  constructor
  · rintro ⟨s, hs⟩
    refine ⟨s, ?_⟩
    rw [← List.toList_data_toByteArray (l := bytes), hs, List.utf8Encode,
      List.toList_data_toByteArray, utf8]
  · rintro ⟨s, rfl⟩
    exact ⟨s, rfl⟩

theorem fromUTF8?_utf8 (s : List Char) :
    String.fromUTF8? ⟨(utf8 s).toArray⟩ = some (String.ofList s) := by
  have hbytes : (⟨(utf8 s).toArray⟩ : ByteArray) = s.utf8Encode :=
    ByteArray.ext List.data_toByteArray.symm
  rw [hbytes, String.fromUTF8?, dif_pos ⟨s, rfl⟩]
  rfl

theorem fromUTF8?_eq_none (h : ¬bytes.toByteArray.IsValidUTF8) :
    String.fromUTF8? ⟨bytes.toArray⟩ = none := by
  have hbytes : (⟨bytes.toArray⟩ : ByteArray) = bytes.toByteArray :=
    ByteArray.ext List.data_toByteArray.symm
  rw [hbytes, String.fromUTF8?, dif_neg h]

/-! ## Showing bytes -/

theorem showFrom_length_append (shown rest : List UInt8) :
    showFrom shown.length (shown ++ rest) = showFrom 0 rest := by
  induction shown with
  | nil => rfl
  | cons b shown ih => exact ih

theorem showFrom_utf8 (s : List Char) : showFrom 0 (utf8 s) = s := by
  induction s with
  | nil => rfl
  | cons c s ih =>
    obtain ⟨first, rest, hbytes⟩ :=
      List.exists_cons_of_ne_nil (String.utf8EncodeChar_ne_nil (c := c))
    have hlength : rest.length + 1 = c.utf8Size := by
      rw [← String.length_utf8EncodeChar, hbytes, List.length_cons]
    -- no character has more than the four bytes that are looked at
    have hfour : first :: (rest ++ utf8 s).take 3 =
        String.utf8EncodeChar c ++ (utf8 s).take (3 - rest.length) := by
      have hfits := c.utf8Size_le_four
      rw [hbytes, List.take_append, List.take_of_length_le (by omega), List.cons_append]
    have hdecoded : (first :: (rest ++ utf8 s).take 3).toByteArray.utf8DecodeChar? 0 = some c := by
      rw [hfour, List.toByteArray_append, ByteArray.utf8DecodeChar?_utf8EncodeChar_append]
    rw [utf8_cons, hbytes, List.cons_append, showFrom, hdecoded]
    dsimp only
    rw [← hlength, Nat.add_sub_cancel, showFrom_length_append, ih]

/-- The bytes of a text are shown as that text. -/
theorem shown_utf8 (s : String) : shown (utf8 s.toList) = s := by
  rw [shown, showFrom_utf8, String.ofList_toList]

/-! ## Lines of bytes -/

/-- A line of characters as a line of bytes. -/
def Line.utf8 (line : Line Char) : Line UInt8 :=
  ⟨Text.utf8 line.body, line.terminated⟩

theorem content_utf8 (line : Line Char) :
    line.utf8.content 0x0d = Text.utf8 (line.content '\r') := by
  obtain ⟨body, terminated⟩ := line
  unfold Line.content Line.utf8
  simp only [Bool.and_eq_true, decide_eq_true_eq, getLast?_utf8_iff]
  split_ifs with h
  · obtain ⟨init, rfl⟩ := List.getLast?_eq_some_iff.1 h.2
    simp [utf8_ret]
  · rfl

/-- The bytes of a text are cut where the text is. -/
theorem lines_utf8 (s : List Char) : lines 0x0a (utf8 s) = (lines '\n' s).map Line.utf8 := by
  induction s using line_induction '\n' with
  | last body h =>
    have hbytes : 0x0a ∉ utf8 body := fun hmem => h (newline_mem_utf8.1 hmem)
    by_cases hbody : body = []
    · simp [hbody, utf8]
    · rw [lines_of_not_mem h hbody, lines_of_not_mem hbytes (utf8_eq_nil_iff.not.2 hbody)]
      rfl
  | step body rest h ih =>
    have hbytes : 0x0a ∉ utf8 body := fun hmem => h (newline_mem_utf8.1 hmem)
    rw [utf8_append, utf8_cons, utf8_newline, List.singleton_append, lines_append_cons hbytes,
      lines_append_cons h, ih]
    rfl

/-- The bytes are those of the complete lines of a text, then a line that is not UTF-8, then perhaps
more lines. -/
structure BadLine (bytes : List UInt8) (before : String) (bad after : List UInt8) : Prop where
  split : bytes = before.toUTF8.data.toList ++ (bad ++ after)
  complete : before = "" ∨ ∃ s, before = s ++ "\n"
  newline : 0x0a ∉ bad
  ends : after = [] ∨ ∃ rest, after = 0x0a :: rest
  invalid : ¬bad.toByteArray.IsValidUTF8

/-- A line that is not UTF-8 is the first such line if it is the first line. -/
theorem badLine_first {bad after : List UInt8} (newline : 0x0a ∉ bad)
    (ends : after = [] ∨ ∃ rest, after = 0x0a :: rest) (invalid : ¬bad.toByteArray.IsValidUTF8) :
    BadLine (bad ++ after) "" bad after :=
  ⟨rfl, .inl rfl, newline, ends, invalid⟩

/-- It stays the first if a line of text is put in front. -/
theorem BadLine.cons {bad after : List UInt8} {before : String} (h : BadLine bytes before bad after)
    (line : List Char) :
    BadLine (utf8 line ++ 0x0a :: bytes) (String.ofList line ++ "\n" ++ before) bad after where
  split := by
    rw [h.split, toList_toUTF8, toList_toUTF8]
    simp [utf8_newline]
  complete := by
    obtain rfl | ⟨s, rfl⟩ := h.complete
    · exact .inr ⟨String.ofList line, by simp⟩
    · exact .inr ⟨String.ofList line ++ "\n" ++ s, by simp [String.append_assoc]⟩
  newline := h.newline
  ends := h.ends
  invalid := h.invalid

/-- Bytes are UTF-8, or they have a first line that is not. -/
theorem isValidUTF8_or_badLine (bytes : List UInt8) :
    bytes.toByteArray.IsValidUTF8 ∨ ∃ before bad after, BadLine bytes before bad after := by
  induction bytes using line_induction (0x0a : UInt8) with
  | last body h =>
    by_cases hbody : body.toByteArray.IsValidUTF8
    · exact .inl hbody
    · have hfirst := badLine_first h (.inl rfl) hbody
      rw [List.append_nil] at hfirst
      exact .inr ⟨_, _, _, hfirst⟩
  | step body rest h ih =>
    by_cases hbody : body.toByteArray.IsValidUTF8
    · obtain ⟨line, rfl⟩ := isValidUTF8_iff.1 hbody
      obtain hrest | ⟨before, bad, after, hbad⟩ := ih
      · obtain ⟨s, rfl⟩ := isValidUTF8_iff.1 hrest
        exact .inl (isValidUTF8_iff.2 ⟨line ++ '\n' :: s, by simp [utf8_newline]⟩)
      · exact .inr ⟨_, _, _, hbad.cons line⟩
    · exact .inr ⟨_, _, _, badLine_first h (.inr ⟨rest, rfl⟩) hbody⟩

/-- A line without its return is UTF-8 only if the line is. -/
theorem isValidUTF8_of_content {line : Line UInt8}
    (h : (line.content 0x0d).toByteArray.IsValidUTF8) : line.body.toByteArray.IsValidUTF8 := by
  unfold Line.content at h
  split_ifs at h with hret
  · rw [Bool.and_eq_true, decide_eq_true_eq] at hret
    obtain ⟨init, hinit⟩ := List.getLast?_eq_some_iff.1 hret.2
    rw [hinit, List.dropLast_concat] at h
    obtain ⟨s, rfl⟩ := isValidUTF8_iff.1 h
    exact isValidUTF8_iff.2 ⟨s ++ ['\r'], by simp [hinit, utf8_ret]⟩
  · exact h

end Text

namespace Delivery

open Text

/-- The bytes of a text are delivered as the text. -/
theorem ofBytes_toUTF8 (text : String) : ofBytes text.toUTF8.data.toList = ofText text := by
  have hline : ∀ line : Line Char, ofLine line.utf8 = .ok (String.ofList (line.content '\r')) :=
    fun line => by rw [ofLine, content_utf8, fromUTF8?_utf8]
  rw [ofBytes, ofText, toList_toUTF8, lines_utf8, List.map_map]
  exact List.map_congr_left fun line _ => hline line

theorem ofLine_eq_error {line : Line UInt8} (h : ¬line.body.toByteArray.IsValidUTF8) :
    ofLine line = .error (unreadable notUtf8) := by
  rw [ofLine, fromUTF8?_eq_none (mt isValidUTF8_of_content h)]

/-- In place of the first line that is not UTF-8 comes an error. -/
theorem ofBytes_of_badLine {bytes bad after : List UInt8} {before : String}
    (h : BadLine bytes before bad after) :
    ∃ rest, ofBytes bytes = ofText before ++ .error (unreadable notUtf8) :: rest := by
  have hcut : lines 0x0a bytes =
      lines 0x0a before.toUTF8.data.toList ++ lines 0x0a (bad ++ after) := by
    rw [h.split]
    obtain rfl | ⟨s, rfl⟩ := h.complete
    · simp
    · have hend : (s ++ "\n").toUTF8.data.toList = utf8 s.toList ++ [0x0a] := by
        rw [toList_toUTF8]
        simp [utf8_newline]
      rw [hend, List.append_assoc, List.singleton_append, lines_append]
  obtain ⟨line, rest, hfirst, hline⟩ : ∃ (line : Line UInt8) (rest : List (Line UInt8)),
      lines 0x0a (bad ++ after) = line :: rest ∧ line.body = bad := by
    obtain rfl | ⟨rest, rfl⟩ := h.ends
    · have hne : bad ≠ [] := by
        rintro rfl
        exact h.invalid (isValidUTF8_iff.2 ⟨[], rfl⟩)
      rw [List.append_nil, lines_of_not_mem h.newline hne]
      exact ⟨_, _, rfl, rfl⟩
    · rw [lines_append_cons h.newline]
      exact ⟨_, _, rfl, rfl⟩
  have hinvalid : ¬line.body.toByteArray.IsValidUTF8 := hline ▸ h.invalid
  refine ⟨rest.map ofLine, ?_⟩
  rw [ofBytes, hcut, hfirst, List.map_append, List.map_cons, ofLine_eq_error hinvalid,
    ← ofBytes_toUTF8, ofBytes]

end Delivery

/-! ## The reader -/

namespace Table

/-- A reader that has taken all lines before a delivery that is refused comes to it, unless one of
them is refused. -/
theorem Reading.takeAll_interrupted (e : Error) (rest : List Delivery) (rows : List String)
    (r : Reading) :
    let result := r.takeAll (rows.map .ok ++ .error e :: rest)
    (∃ e', LineError e' ∧ r.takeAll (rows.map .ok) = .error e' ∧ result = .error e') ∨
      (∀ e', LineError e' → r.takeAll (rows.map .ok) ≠ .error e') ∧ result = .error e := by
  induction rows generalizing r with
  | nil =>
    refine .inr ⟨fun e' he' h => ?_, rfl⟩
    rw [List.map_nil, takeAll, finish, complete] at h
    split_ifs at h
    cases h
    cases he'
  | cons row rows ih =>
    rw [List.map_cons, List.cons_append, takeAll_cons, takeAll_cons]
    cases htake : r.take (.ok row) with
    | error e' => exact .inl ⟨e', lineError_of_take htake, rfl, rfl⟩
    | ok r' => exact ih r'

/-- What reading fails with after the lines of the text `before`, if the next line is not UTF-8. -/
inductive BrokenOff (before : String) : Error → Prop
  | refused {e : Error} (line : LineError e) (reading : parse before = .error e) :
      BrokenOff before e
  | undecoded (reading : ∀ e, LineError e → parse before ≠ .error e) :
      BrokenOff before (.fileError "Failed to read program: stream did not contain valid UTF-8")

theorem exists_brokenOff {bytes bad after : List UInt8} {before : String}
    (h : Text.BadLine bytes before bad after) (j : Journal) :
    ∃ e, BrokenOff before e ∧ ((read (Delivery.ofBytes bytes)).run j).1 = .error e := by
  obtain ⟨rest, hrest⟩ := Delivery.ofBytes_of_badLine h
  have hparse : parse before = Reading.start.takeAll ((textLines before).map .ok) := by
    rw [parse, ← takeAll_start, ofText_eq]
  rw [read_result, ← takeAll_start, hrest, ofText_eq]
  obtain ⟨e, he, hbefore, hresult⟩ | ⟨hbefore, hresult⟩ := Reading.start.takeAll_interrupted
    (Delivery.unreadable Delivery.notUtf8) rest (textLines before)
  · exact ⟨e, .refused he (hparse.trans hbefore), hresult⟩
  · exact ⟨_, .undecoded (hparse ▸ hbefore), hresult⟩

/-- Reading bytes line by line is reading the decoded text. The bytes of a text are read as the text
is. All others have a first line that is not UTF-8. If reading the lines before it fails for one of
them, reading the bytes fails for the same; otherwise it fails because the bytes are not UTF-8. So
it gives a program only if all of the bytes are UTF-8. -/
theorem read_bytes_line_by_line (bytes : List UInt8) (j : Journal) :
    let result := ((read (Delivery.ofBytes bytes)).run j).1
    (∀ text : String, bytes = text.toUTF8.data.toList →
      read (Delivery.ofBytes bytes) = read (Delivery.ofText text)) ∧
    (¬bytes.toByteArray.IsValidUTF8 → ∃ before bad after e,
      Text.BadLine bytes before bad after ∧ BrokenOff before e ∧ result = .error e) ∧
    ∀ p, result = .ok p → ∃ text : String, bytes = text.toUTF8.data.toList := by
  intro result
  have hinvalid : ¬bytes.toByteArray.IsValidUTF8 → ∃ before bad after e,
      Text.BadLine bytes before bad after ∧ BrokenOff before e ∧ result = .error e := by
    intro h
    obtain ⟨before, bad, after, hbad⟩ := (Text.isValidUTF8_or_badLine bytes).resolve_left h
    obtain ⟨e, he, hresult⟩ := exists_brokenOff hbad j
    exact ⟨before, bad, after, e, hbad, he, hresult⟩
  refine ⟨fun text htext => ?_, hinvalid, fun p hp => ?_⟩
  · rw [htext, Delivery.ofBytes_toUTF8]
  · by_contra hno
    have h : ¬bytes.toByteArray.IsValidUTF8 := fun hvalid => by
      obtain ⟨s, hs⟩ := Text.isValidUTF8_iff.1 hvalid
      exact hno ⟨String.ofList s, by rw [Text.toList_toUTF8, String.toList_ofList, hs]⟩
    obtain ⟨_, _, _, e, -, -, hresult⟩ := hinvalid h
    rw [hp] at hresult
    cases hresult

/-- A byte that begins no character, after a line that can be read. -/
theorem read_bytes_line_by_line_stray :
    read (Delivery.ofBytes [0x09, 0x51, 0x31, 0x0a]) = read (Delivery.ofText "\tQ1\n") ∧
      ∃ before bad after e, Text.BadLine [0x09, 0x51, 0x31, 0x0a, 0xff] before bad after ∧
        BrokenOff before e ∧
        ((read (Delivery.ofBytes [0x09, 0x51, 0x31, 0x0a, 0xff])).run ⟨.error, #[]⟩).1 =
          .error e := by
  constructor
  · exact (read_bytes_line_by_line [0x09, 0x51, 0x31, 0x0a] ⟨.error, #[]⟩).1 "\tQ1\n" rfl
  · exact (read_bytes_line_by_line [0x09, 0x51, 0x31, 0x0a, 0xff] ⟨.error, #[]⟩).2.1
      (by decide +kernel)

end Table

end TapeMachine
