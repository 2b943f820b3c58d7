import TapeMachine.Proofs.RuleBook
import TapeMachine.Proofs.TableCells

/-!
# The addition program

The program `addition` of the catalogue takes the first one of a sum away, goes right over the
others and writes a one in place of the plus, goes to the end and takes the last one away
(`course`). For `x + 1` and `y + 1` ones this takes `x + y + 5` steps and `x + y + 4` cells.
`addition_computes` says what that comes to for runs under limits.
-/

namespace TapeMachine.Addition

open Machine

/-- The rules of the program. -/
def book : RuleBook where
  symbols := "1+"
  rules :=
    [⟨"Q1", '1', ⟨"Q2", blank, .right⟩⟩, ⟨"Q2", '1', ⟨"Q2", '1', .right⟩⟩,
     ⟨"Q3", '1', ⟨"Q0", blank, .stay⟩⟩, ⟨"Q2", '+', ⟨"Q2", '1', .right⟩⟩,
     ⟨"Q2", blank, ⟨"Q3", blank, .left⟩⟩]
  places := by decide
  running := by decide
  symbol := by decide +kernel
  write := by decide +kernel
  next := by decide
  progress := by decide

theorem read_addition (j : Journal) :
    (Catalogue.addition.program.run j).1 = .ok book.program := by
  rw [CatalogueEntry.program, Table.read_result]
  decide +kernel

/-! ## Tapes -/

/-- The tape at the start: two numbers with a plus between them, from cell `c` on. -/
def terms (c : Int) (x y : Nat) : Tape :=
  .ofString (String.ofList (numeral x ++ '+' :: numeral y)) c

/-- The tape without its first one. -/
def opened (c : Int) (x y : Nat) (i : Int) : Option Char :=
  if i = c then some blank
  else if i = c + x + 1 then some '+'
  else if c < i ∧ i ≤ c + x + y + 2 then some '1'
  else none

/-- The tape without the plus: a blank in cell `c`, `n` ones, and blanks up to cell `c + w`. -/
def joined (c : Int) (n w : Nat) (i : Int) : Option Char :=
  if c < i ∧ i ≤ c + n then some '1'
  else if c ≤ i ∧ i ≤ c + w then some blank
  else none

section

variable {c i : Int} {x y n w : Nat}

theorem getElem?_terms : (terms c x y)[i]? =
    if i = c + x + 1 then some '+' else if c ≤ i ∧ i ≤ c + x + y + 2 then some '1' else none := by
  have hsymbols : ∀ a ∈ numeral x ++ '+' :: numeral y, a ≠ blank ∧ a ≠ blankMark := fun a ha => by
    rcases List.mem_append.1 ha with ha | ha
    · exact numeral_ne_blank a ha
    · rcases List.mem_cons.1 ha with rfl | ha
      · decide
      · exact numeral_ne_blank a ha
  rw [terms, Tape.getElem?_ofString hsymbols, List.getElem?_append, length_numeral,
    List.getElem?_cons, getElem?_numeral, getElem?_numeral]
  split_ifs <;> first | rfl | omega

theorem size_terms : (terms c x y).size = x + y + 3 := by
  refine Tape.size_eq_of_interval c (c + x + y + 2) (by omega) fun i => ?_
  rw [getElem?_terms]
  split_ifs <;> simp <;> omega

theorem size_of_joined {t : Tape} (hw : n ≤ w) (ht : ∀ i, t[i]? = joined c n w i) :
    t.size = w + 1 := by
  refine Tape.size_eq_of_interval c (c + w) (by omega) fun i => ?_
  rw [ht, joined]
  split_ifs <;> simp <;> omega

/-- Taking the first one away. -/
theorem update_terms :
    Function.update (fun i => (terms c x y)[i]?) c (some blank) = opened c x y := by
  ext1 i
  rw [Function.update_apply, getElem?_terms, opened]
  split_ifs <;> first | rfl | omega

/-- Writing a one in place of the plus. -/
theorem update_opened :
    Function.update (opened c x y) (c + x + 1) (some '1') = joined c (x + y + 2) (x + y + 2) := by
  ext1 i
  rw [Function.update_apply, opened, joined]
  split_ifs <;> first | rfl | omega

/-- Writing a blank at the end. -/
theorem update_joined_blank (cell : i = c + n + 1) :
    Function.update (joined c n n) i (some blank) = joined c n (n + 1) := by
  ext1 k
  rw [Function.update_apply, joined, joined]
  split_ifs <;> first | rfl | omega

/-- Taking the last one away. -/
theorem update_joined_erase (cell : i = c + n + 1) (hw : n + 1 ≤ w) :
    Function.update (joined c (n + 1) w) i (some blank) = joined c n w := by
  ext1 k
  rw [Function.update_apply, joined, joined]
  split_ifs <;> first | rfl | omega

/-! ## The way -/

/-- From the ones of two numbers to those of their sum. -/
theorem course {m : Machine} (obeys : book.Obeys m) (left : Addressable c)
    (right : Addressable (c + x + y + 3)) :
    m.Leads ⟨"Q1", c, fun i => (terms c x y)[i]?⟩
      ⟨"Q0", c + x + y + 2, joined c (x + y + 1) (x + y + 3)⟩ (x + y + 5) := by
  have range : ∀ {i}, c ≤ i → i ≤ c + x + y + 3 → Addressable i := left.between right
  have opening : m.Leads ⟨"Q1", c, fun i => (terms c x y)[i]?⟩ ⟨"Q2", c + 1, opened c x y⟩ 1 :=
    .one (obeys ⟨"Q1", '1', ⟨"Q2", blank, .right⟩⟩ (by decide))
      (by rw [getElem?_terms, if_neg (by omega), if_pos (by omega)]; rfl) rfl
      (range (by omega) (by omega)) update_terms
  have first : m.Leads ⟨"Q2", c + 1, opened c x y⟩ ⟨"Q2", c + x + 1, opened c x y⟩ x := by
    refine .sweep (d := .right) (by simp only [Direction.offset]; omega)
      (range (by omega) (by omega)) fun k hk => ⟨'1', ?_, ?_⟩
    · simp only [Direction.offset]
      rw [opened, if_neg (by omega), if_neg (by omega), if_pos (by omega)]
    · exact obeys ⟨"Q2", '1', ⟨"Q2", '1', .right⟩⟩ (by decide)
  have join : m.Leads ⟨"Q2", c + x + 1, opened c x y⟩
      ⟨"Q2", c + x + 2, joined c (x + y + 2) (x + y + 2)⟩ 1 :=
    .one (obeys ⟨"Q2", '+', ⟨"Q2", '1', .right⟩⟩ (by decide))
      (by rw [opened, if_neg (by omega), if_pos rfl]; rfl) (by simp only [Direction.offset]; omega)
      (range (by omega) (by omega)) update_opened
  have second : m.Leads ⟨"Q2", c + x + 2, joined c (x + y + 2) (x + y + 2)⟩
      ⟨"Q2", c + x + y + 3, joined c (x + y + 2) (x + y + 2)⟩ (y + 1) := by
    refine .sweep (d := .right) (by simp only [Direction.offset]; omega)
      (range (by omega) (by omega)) fun k hk => ⟨'1', ?_, ?_⟩
    · simp only [Direction.offset]
      rw [joined, if_pos (by omega)]
    · exact obeys ⟨"Q2", '1', ⟨"Q2", '1', .right⟩⟩ (by decide)
  have turn : m.Leads ⟨"Q2", c + x + y + 3, joined c (x + y + 2) (x + y + 2)⟩
      ⟨"Q3", c + x + y + 2, joined c (x + y + 2) (x + y + 3)⟩ 1 :=
    .one (obeys ⟨"Q2", blank, ⟨"Q3", blank, .left⟩⟩ (by decide))
      (by rw [joined, if_neg (by omega), if_neg (by omega)]; rfl)
      (by simp only [Direction.offset]; omega) (range (by omega) (by omega))
      (update_joined_blank (by omega))
  have close : m.Leads ⟨"Q3", c + x + y + 2, joined c (x + y + 2) (x + y + 3)⟩
      ⟨"Q0", c + x + y + 2, joined c (x + y + 1) (x + y + 3)⟩ 1 :=
    .one (obeys ⟨"Q3", '1', ⟨"Q0", blank, .stay⟩⟩ (by decide))
      (by rw [joined, if_pos (by omega)]; rfl) (Int.add_zero _) (range (by omega) (by omega))
      (update_joined_erase (by omega) (by omega))
  have steps : x + y + 5 = 1 + x + 1 + (y + 1) + 1 + 1 := by omega
  rw [steps]
  exact ((((opening.trans first).trans join).trans second).trans turn).trans close

end

/-! ## Runs -/

theorem leads_joined (maxSteps : UInt64) {maxTapeLength : UInt64} (room : maxTapeLength ≠ 0)
    {x y : Nat} {c : Int64} (upper : c.toInt + x + y + 3 ≤ Int64.maxValue.toInt) :
    (book.machine maxTapeLength maxSteps room).Leads
      ((book.machine maxTapeLength maxSteps room).start c (terms c.toInt x y)).view
      ⟨"Q0", c.toInt + x + y + 2, joined c.toInt (x + y + 1) (x + y + 3)⟩ (x + y + 5) := by
  have last : c.toInt ≤ c.toInt + x + y + 3 := by omega
  have right : Addressable (c.toInt + x + y + 3) := ⟨(addressable_toInt c).1.trans last, upper⟩
  exact course (book.obeys_machine maxTapeLength maxSteps room) (addressable_toInt c) right

/-- The program adds, and succeeds exactly within its limits. From `x + 1` ones, a plus and `y + 1`
ones, with the carriage on the leftmost, its machine comes to its end if the limits are above
`x + y + 4` cells and `x + y + 5` steps. Then `x + y + 1` ones follow a blank where the carriage
began, and two blanks follow the ones. Under the limits of the catalogue this holds for sums up to
`995`; the tape is too short for all others. -/
theorem addition_computes (j : Journal) :
    (∀ maxTapeLength maxSteps : UInt64,
      let built :=
        ((Catalogue.addition.program >>= build (book.config maxTapeLength maxSteps)).run j).1
      (maxTapeLength = 0 → built = .error (.invalidMaxTapeLength 0)) ∧
      (maxTapeLength ≠ 0 → ∃ m, built = .ok m ∧
        ∀ (x y : Nat) (c : Int64), c.toInt + x + y + 3 ≤ Int64.maxValue.toInt →
          ((∃ r, Yields (m.exec false c (terms c.toInt x y)) (.ok r)) ↔
            x + y + 4 < maxTapeLength.toNat ∧ (maxSteps = 0 ∨ x + y + 5 < maxSteps.toNat)) ∧
          ∀ r, Yields (m.exec false c (terms c.toInt x y)) (.ok r) →
            ∀ i, r[i]? = joined c.toInt (x + y + 1) (x + y + 3) i)) ∧
    ∃ m, (Catalogue.addition.machine.run j).1 = .ok m ∧
      ∀ (x y : Nat) (c : Int64), c.toInt + x + y + 3 ≤ Int64.maxValue.toInt →
        ((∃ r, Yields (m.exec false c (terms c.toInt x y)) (.ok r)) ↔ x + y ≤ 995) ∧
        (995 < x + y → ∃ cells carriage,
          Yields (m.exec false c (terms c.toInt x y)) (.error (.tapeOver cells carriage))) := by
  constructor
  · intro maxTapeLength maxSteps built
    constructor
    · rintro rfl
      exact RuleBook.result_eq_error maxSteps (read_addition j)
    · intro room
      refine ⟨_, RuleBook.result_eq_machine maxSteps (read_addition j) room,
        fun x y c upper => ?_⟩
      have leads := leads_joined maxSteps room upper
      exact ⟨leads.exists_exec_ok_iff rfl (Nat.succ_ne_zero _) fun _ => size_of_joined (by omega),
        fun r => leads.getElem?_of_exec_ok rfl⟩
  · have room : (1000 : UInt64) ≠ 0 := by decide
    refine ⟨_, RuleBook.result_eq_machine 10000 (read_addition j) room, fun x y c upper => ?_⟩
    have leads := leads_joined 10000 room upper
    constructor
    · have within : x + y + 4 < (1000 : UInt64).toNat ∧
          ((10000 : UInt64) = 0 ∨ x + y + 5 < (10000 : UInt64).toNat) ↔ x + y ≤ 995 := by
        have cells : (1000 : UInt64).toNat = 1000 := rfl
        have steps : (10000 : UInt64).toNat = 10000 := rfl
        rw [cells, steps, or_iff_right (by decide)]
        omega
      rw [← within]
      exact leads.exists_exec_ok_iff rfl (Nat.succ_ne_zero _) fun _ => size_of_joined (by omega)
    · intro hxy
      refine leads.exec_tapeOver (fun t ht => ?_) ?_
      · rw [size_of_joined (by omega) ht]
        change 1000 ≤ x + y + 3 + 1
        omega
      -- from a sum of 997 on the terms fill the tape, and 996 does not take too many steps
      · rw [size_terms]
        change 1000 ≤ x + y + 3 ∨ _ ∨ x + y + 4 < 10000
        omega

theorem addition_computes_three :
    (∃ m, ((Catalogue.addition.program >>= build (book.config 8 9)).run ⟨.error, #[]⟩).1 = .ok m ∧
      ∃ r, Yields (m.exec false 0 (terms 0 2 1)) (.ok r) ∧ r[(4 : Int)]? = some '1' ∧
        r[(5 : Int)]? = some blank) ∧
    ∃ m, (Catalogue.addition.machine.run ⟨.error, #[]⟩).1 = .ok m ∧ ∃ cells carriage,
      Yields (m.exec false 0 (terms 0 500 496)) (.error (.tapeOver cells carriage)) := by
  obtain ⟨within, m, built, runs⟩ := addition_computes ⟨.error, #[]⟩
  constructor
  · obtain ⟨m, built, runs⟩ := (within 8 9).2 (by decide)
    obtain ⟨succeeds, content⟩ := runs 2 1 0 (by decide)
    obtain ⟨r, hr⟩ := succeeds.2 ⟨by decide, .inr (by decide)⟩
    exact ⟨m, built, r, hr, content r hr _, content r hr _⟩
  · exact ⟨m, built, (runs 500 496 0 (by decide)).2 (by decide)⟩

end TapeMachine.Addition
