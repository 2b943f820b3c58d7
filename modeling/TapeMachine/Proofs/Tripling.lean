import Mathlib.Tactic.Ring
import TapeMachine.Proofs.RuleBook
import TapeMachine.Proofs.TableCells

/-!
# The tripling program

The program `triple` of the catalogue marks the first of its ones and goes to the end of the others.
Then it takes them away from the right, one a round, and for each writes three to the left of the
mark (`round`). When none is left, it turns the mark into a one.

Between rounds the tape is a `strip`: `a` ones, the mark, `b` ones, and blanks up to where the
carriage has been. `rounds` puts the rounds together, and `course` adds what comes before and after
them. The steps add up to `4 * n ^ 2 + 6 * n + 3` for `n + 1` ones, and the cells to `4 * n + 2`.
`triple_computes` says what this comes to for runs under limits.
-/

namespace TapeMachine.Tripling

open Machine

/-- The rules of the program. -/
def book : RuleBook where
  symbols := "1*"
  rules :=
    [⟨"Q1", '1', ⟨"Q2", '*', .right⟩⟩, ⟨"Q2", '1', ⟨"Q2", '1', .right⟩⟩,
     ⟨"Q3", '1', ⟨"Q4", blank, .left⟩⟩, ⟨"Q4", '1', ⟨"Q4", '1', .left⟩⟩,
     ⟨"Q7", '1', ⟨"Q7", '1', .right⟩⟩,
     ⟨"Q3", '*', ⟨"Q0", '1', .stay⟩⟩, ⟨"Q4", '*', ⟨"Q4", '*', .left⟩⟩,
     ⟨"Q7", '*', ⟨"Q7", '*', .right⟩⟩,
     ⟨"Q2", blank, ⟨"Q3", blank, .left⟩⟩, ⟨"Q4", blank, ⟨"Q5", '1', .left⟩⟩,
     ⟨"Q5", blank, ⟨"Q6", '1', .left⟩⟩, ⟨"Q6", blank, ⟨"Q7", '1', .right⟩⟩,
     ⟨"Q7", blank, ⟨"Q3", blank, .left⟩⟩]
  places := by decide
  running := by decide
  symbol := by decide +kernel
  write := by decide +kernel
  next := by decide
  progress := by decide

theorem read_triple (j : Journal) : (Catalogue.triple.program.run j).1 = .ok book.program := by
  rw [CatalogueEntry.program, Table.read_result]
  decide +kernel

/-! ## Tapes -/

/-- The tape between rounds: `a` ones, the mark in cell `c`, `b` ones, and blanks up to cell
`c + w`. -/
def strip (c : Int) (a b w : Nat) (i : Int) : Option Char :=
  if c - a ≤ i ∧ i < c then some '1'
  else if i = c then some '*'
  else if c < i ∧ i ≤ c + b then some '1'
  else if c + b < i ∧ i ≤ c + w then some blank
  else none

/-- The tape at the end: ones up to cell `c`, and blanks up to cell `c + w`. -/
def result (c : Int) (a w : Nat) (i : Int) : Option Char :=
  if c - a ≤ i ∧ i ≤ c then some '1'
  else if c < i ∧ i ≤ c + w then some blank
  else none

section

variable {c i : Int} {a b w n : Nat}

theorem strip_eq_or (lower : c - a ≤ i) (upper : i ≤ c + b) :
    strip c a b w i = some '1' ∨ strip c a b w i = some '*' := by
  unfold strip
  split_ifs <;> first | exact .inl rfl | exact .inr rfl | omega

theorem strip_one (lower : c < i) (upper : i ≤ c + b) : strip c a b w i = some '1' := by
  unfold strip
  split_ifs <;> first | rfl | omega

theorem strip_mark : strip c a b w c = some '*' := by
  unfold strip
  split_ifs <;> first | rfl | omega

/-- Right of the ones the tape reads as blank. -/
theorem strip_blank (lower : c < i) (h : c + b < i) : (strip c a b w i).getD blank = blank := by
  unfold strip
  split_ifs <;> first | rfl | omega

theorem strip_left (h : i < c - a) : strip c a b w i = none := by
  unfold strip
  split_ifs <;> first | rfl | omega

/-- Marking the first one. -/
theorem update_number :
    Function.update (fun i => (number c n)[i]?) c (some '*') = strip c 0 n n := by
  ext1 i
  rw [Function.update_apply, getElem?_number, strip]
  split_ifs <;> first | rfl | omega

/-- Writing a blank on the right. -/
theorem update_strip_blank (hw : b ≤ w) :
    Function.update (strip c a b w) (c + b + 1) (some blank) = strip c a b (max w (b + 1)) := by
  ext1 i
  rw [Function.update_apply, strip, strip]
  split_ifs <;> first | rfl | omega

/-- Taking away the last one. -/
theorem update_strip_erase (hw : b + 1 ≤ w) :
    Function.update (strip c a (b + 1) w) (c + b + 1) (some blank) = strip c a b w := by
  ext1 i
  rw [Function.update_apply, strip, strip]
  split_ifs <;> first | rfl | omega

/-- Writing a one on the left. -/
theorem update_strip_grow :
    Function.update (strip c a b w) (c - a - 1) (some '1') = strip c (a + 1) b w := by
  ext1 i
  rw [Function.update_apply, strip, strip]
  split_ifs <;> first | rfl | omega

theorem update_strip_finish :
    Function.update (strip c a 0 w) c (some '1') = result c a w := by
  ext1 i
  rw [Function.update_apply, strip, result]
  split_ifs <;> first | rfl | omega

end

/-! ## Rounds -/

section

variable {m : Machine} {c : Int} {a b w : Nat}
  (obeys : book.Obeys m)

include obeys

/-- A state that leaves ones and the mark as they are carries the carriage over them. -/
theorem sweep_strip (q : String) (d : Direction) {i j : Int} {n : Nat}
    (hone : ⟨q, '1', ⟨q, '1', d⟩⟩ ∈ book.rules) (hmark : ⟨q, '*', ⟨q, '*', d⟩⟩ ∈ book.rules)
    (stop : i + n * d.offset = j) (range : Addressable j)
    (cells : ∀ k < n, c - a ≤ i + k * d.offset ∧ i + k * d.offset ≤ c + b) :
    m.Leads ⟨q, i, strip c a b w⟩ ⟨q, j, strip c a b w⟩ n := by
  refine .sweep stop range fun k hk => ?_
  obtain ⟨lower, upper⟩ := cells k hk
  rcases strip_eq_or (w := w) lower upper with h | h
  · exact ⟨'1', h, obeys _ hone⟩
  · exact ⟨'*', h, obeys _ hmark⟩

/-- Left of the strip a one is written. -/
theorem write_one (q q' : String) (d : Direction) {i j : Int}
    (rule : ⟨q, blank, ⟨q', '1', d⟩⟩ ∈ book.rules) (cell : i = c - a - 1) (stop : i + d.offset = j)
    (range : Addressable j) :
    m.Leads ⟨q, i, strip c a b w⟩ ⟨q', j, strip c (a + 1) b w⟩ 1 := by
  have read : (strip c a b w i).getD blank = blank := by rw [strip_left (by omega)]; rfl
  exact .one (obeys _ rule) read stop range (by rw [cell, update_strip_grow])

/-- Right of the ones a blank is written, and the carriage turns back. -/
theorem turn_back (q : String) {w' : Nat} (rule : ⟨q, blank, ⟨"Q3", blank, .left⟩⟩ ∈ book.rules)
    (hw : b ≤ w) (grown : max w (b + 1) = w') (range : Addressable (c + b)) :
    m.Leads ⟨q, c + b + 1, strip c a b w⟩ ⟨"Q3", c + b, strip c a b w'⟩ 1 :=
  .one (obeys _ rule) (strip_blank (by omega) (by omega)) (by simp only [Direction.offset]; omega)
    range (by rw [update_strip_blank hw, grown])

/-- A round takes a one away on the right and writes three on the left. -/
theorem round (hw : b + 1 ≤ w) (lower : Addressable (c - a - 3)) (upper : Addressable (c + b + 1)) :
    m.Leads ⟨"Q3", c + b + 1, strip c a (b + 1) w⟩ ⟨"Q3", c + b, strip c (a + 3) b w⟩
      (2 * (a + b) + 9) := by
  have range : ∀ {i}, c - a - 3 ≤ i → i ≤ c + b + 1 → Addressable i := lower.between upper
  have take : m.Leads ⟨"Q3", c + b + 1, strip c a (b + 1) w⟩ ⟨"Q4", c + b, strip c a b w⟩ 1 :=
    .one (obeys ⟨"Q3", '1', ⟨"Q4", blank, .left⟩⟩ (by decide))
      (by rw [strip_one (by omega) (by omega)]; rfl) (by simp only [Direction.offset]; omega)
      (range (by omega) (by omega)) (update_strip_erase hw)
  have back : m.Leads ⟨"Q4", c + b, strip c a b w⟩ ⟨"Q4", c - a - 1, strip c a b w⟩ (a + b + 1) :=
    sweep_strip obeys "Q4" .left (by decide) (by decide) (by simp only [Direction.offset]; omega)
      (range (by omega) (by omega)) fun k hk => by simp only [Direction.offset]; omega
  have first : m.Leads ⟨"Q4", c - a - 1, strip c a b w⟩ ⟨"Q5", c - a - 2, strip c (a + 1) b w⟩ 1 :=
    write_one obeys "Q4" "Q5" .left (by decide) rfl (by simp only [Direction.offset]; omega)
      (range (by omega) (by omega))
  have second : m.Leads ⟨"Q5", c - a - 2, strip c (a + 1) b w⟩
      ⟨"Q6", c - a - 3, strip c (a + 2) b w⟩ 1 :=
    write_one obeys "Q5" "Q6" .left (by decide) (by omega) (by simp only [Direction.offset]; omega)
      (range (by omega) (by omega))
  have third : m.Leads ⟨"Q6", c - a - 3, strip c (a + 2) b w⟩
      ⟨"Q7", c - a - 2, strip c (a + 3) b w⟩ 1 :=
    write_one obeys "Q6" "Q7" .right (by decide) (by omega) (by simp only [Direction.offset]; omega)
      (range (by omega) (by omega))
  have forth : m.Leads ⟨"Q7", c - a - 2, strip c (a + 3) b w⟩
      ⟨"Q7", c + b + 1, strip c (a + 3) b w⟩ (a + b + 3) :=
    sweep_strip obeys "Q7" .right (by decide) (by decide) (by simp only [Direction.offset]; omega)
      (range (by omega) (by omega)) fun k hk => by simp only [Direction.offset]; omega
  have turn : m.Leads ⟨"Q7", c + b + 1, strip c (a + 3) b w⟩ ⟨"Q3", c + b, strip c (a + 3) b w⟩ 1 :=
    turn_back obeys "Q7" (by decide) (by omega) (by omega) (range (by omega) (by omega))
  have steps : 2 * (a + b) + 9 = 1 + (a + b + 1) + 1 + 1 + 1 + (a + b + 3) + 1 := by omega
  rw [steps]
  exact (((((take.trans back).trans first).trans second).trans third).trans forth).trans turn

/-- The rounds take away all ones on the right. -/
theorem rounds : ∀ {a b : Nat}, b ≤ w → Addressable (c - a - 3 * b) → Addressable (c + b) →
    m.Leads ⟨"Q3", c + b, strip c a b w⟩ ⟨"Q3", c, strip c (a + 3 * b) 0 w⟩
      (4 * b ^ 2 + 2 * a * b + 5 * b)
  | a, 0, _, _, _ => by
    rw [Int.natCast_zero, Int.add_zero]
    exact .refl _
  | a, b + 1, hw, lower, upper => by
    have range : ∀ {i}, c - a - 3 * (b + 1) ≤ i → i ≤ c + (b + 1) → Addressable i :=
      lower.between upper
    have last : m.Leads ⟨"Q3", c + b + 1, strip c a (b + 1) w⟩ ⟨"Q3", c + b, strip c (a + 3) b w⟩
        (2 * (a + b) + 9) :=
      round obeys hw (range (by omega) (by omega)) (range (by omega) (by omega))
    have others : m.Leads ⟨"Q3", c + b, strip c (a + 3) b w⟩
        ⟨"Q3", c, strip c (a + 3 + 3 * b) 0 w⟩ (4 * b ^ 2 + 2 * (a + 3) * b + 5 * b) :=
      rounds (by omega) (range (by omega) (by omega)) (range (by omega) (by omega))
    have cell : c + (b + 1 : Nat) = c + b + 1 := by omega
    have written : a + 3 * (b + 1) = a + 3 + 3 * b := by omega
    have steps : 4 * (b + 1) ^ 2 + 2 * a * (b + 1) + 5 * (b + 1) =
        2 * (a + b) + 9 + (4 * b ^ 2 + 2 * (a + 3) * b + 5 * b) := by ring
    rw [cell, written, steps]
    exact last.trans others

/-- From the ones of a number to those of its triple. -/
theorem course {n : Nat} (lower : Addressable (c - 3 * n)) (upper : Addressable (c + n + 1)) :
    m.Leads ⟨"Q1", c, fun i => (number c n)[i]?⟩ ⟨"Q0", c, result c (3 * n) (n + 1)⟩
      (4 * n ^ 2 + 6 * n + 3) := by
  have range : ∀ {i}, c - 3 * n ≤ i → i ≤ c + n + 1 → Addressable i := lower.between upper
  have mark : m.Leads ⟨"Q1", c, fun i => (number c n)[i]?⟩ ⟨"Q2", c + 1, strip c 0 n n⟩ 1 :=
    .one (obeys ⟨"Q1", '1', ⟨"Q2", '*', .right⟩⟩ (by decide))
      (by rw [getElem?_number, if_pos ⟨by omega, by omega⟩]; rfl) rfl (range (by omega) (by omega))
      update_number
  have forth : m.Leads ⟨"Q2", c + 1, strip c 0 n n⟩ ⟨"Q2", c + n + 1, strip c 0 n n⟩ n :=
    .sweep (by simp only [Direction.offset]; omega) (range (by omega) (by omega)) fun k hk =>
      ⟨'1', strip_one (by simp only [Direction.offset]; omega)
        (by simp only [Direction.offset]; omega),
        obeys ⟨"Q2", '1', ⟨"Q2", '1', .right⟩⟩ (by decide)⟩
  have turn : m.Leads ⟨"Q2", c + n + 1, strip c 0 n n⟩ ⟨"Q3", c + n, strip c 0 n (n + 1)⟩ 1 :=
    turn_back obeys "Q2" (by decide) le_rfl (by omega) (range (by omega) (by omega))
  have work : m.Leads ⟨"Q3", c + n, strip c 0 n (n + 1)⟩ ⟨"Q3", c, strip c (3 * n) 0 (n + 1)⟩
      (4 * n ^ 2 + 5 * n) := by
    have h := rounds obeys (c := c) (a := 0) (b := n) (Nat.le_succ n)
      (range (by omega) (by omega)) (range (by omega) (by omega))
    simpa only [Nat.zero_add, Nat.mul_zero, Nat.zero_mul, Nat.add_zero] using h
  have finish : m.Leads ⟨"Q3", c, strip c (3 * n) 0 (n + 1)⟩
      ⟨"Q0", c, result c (3 * n) (n + 1)⟩ 1 :=
    .one (obeys ⟨"Q3", '*', ⟨"Q0", '1', .stay⟩⟩ (by decide)) (by rw [strip_mark]; rfl)
      (Int.add_zero c) (range (by omega) (by omega)) update_strip_finish
  have steps : 4 * n ^ 2 + 6 * n + 3 = 1 + n + 1 + (4 * n ^ 2 + 5 * n) + 1 := by omega
  rw [steps]
  exact (((mark.trans forth).trans turn).trans work).trans finish

end

/-! ## Runs -/

/-- The cells occupied at the end. -/
theorem size_of_result {c : Int} {n : Nat} {t : Tape}
    (ht : ∀ i, t[i]? = result c (3 * n) (n + 1) i) : t.size = 4 * n + 2 := by
  refine Tape.size_eq_of_interval (c - 3 * n) (c + n + 1) (by omega) fun i => ?_
  rw [ht, result]
  split_ifs <;> simp <;> omega

theorem leads_result (maxSteps : UInt64) {maxTapeLength : UInt64} (room : maxTapeLength ≠ 0)
    {n : Nat} {c : Int64} (lower : Int64.minValue.toInt ≤ c.toInt - 3 * n)
    (upper : c.toInt + n + 1 ≤ Int64.maxValue.toInt) :
    (book.machine maxTapeLength maxSteps room).Leads
      ((book.machine maxTapeLength maxSteps room).start c (number c.toInt n)).view
      ⟨"Q0", c.toInt, result c.toInt (3 * n) (n + 1)⟩ (4 * n ^ 2 + 6 * n + 3) := by
  have first : c.toInt - 3 * n ≤ c.toInt := by omega
  have last : c.toInt ≤ c.toInt + n + 1 := by omega
  have left : Addressable (c.toInt - 3 * n) := ⟨lower, first.trans (addressable_toInt c).2⟩
  have right : Addressable (c.toInt + n + 1) := ⟨(addressable_toInt c).1.trans last, upper⟩
  exact course (book.obeys_machine maxTapeLength maxSteps room) left right

/-- The numbers whose triples the limits of the catalogue leave room and time for. -/
theorem within_limits_iff {n : Nat} :
    4 * n + 2 < (10000 : UInt64).toNat ∧
      ((100000 : UInt64) = 0 ∨ 4 * n ^ 2 + 6 * n + 3 < (100000 : UInt64).toNat) ↔ n ≤ 157 := by
  have cells : (10000 : UInt64).toNat = 10000 := rfl
  have steps : (100000 : UInt64).toNat = 100000 := rfl
  rw [cells, steps, or_iff_right (by decide)]
  constructor
  · rintro ⟨-, h⟩
    by_contra! hn
    have square : 158 ^ 2 ≤ n ^ 2 := Nat.pow_le_pow_left hn 2
    omega
  · intro hn
    have square : n ^ 2 ≤ 157 ^ 2 := Nat.pow_le_pow_left hn 2
    omega

/-- The program triples, and succeeds exactly within its limits. From `n + 1` ones with the carriage
on the leftmost, its machine comes to its end if the limits are above the `4 * n + 2` cells and the
`4 * n ^ 2 + 6 * n + 3` steps that this takes. Then `3 * n + 1` ones stand where the carriage began
and to the left of it, and blanks where it has been on the right. -/
theorem triple_computes (j : Journal) :
    (∀ maxTapeLength maxSteps : UInt64, maxTapeLength ≠ 0 →
      ∃ m, ((Catalogue.triple.program >>= build (book.config maxTapeLength maxSteps)).run j).1 =
          .ok m ∧
        ∀ (n : Nat) (c : Int64), Int64.minValue.toInt ≤ c.toInt - 3 * n →
          c.toInt + n + 1 ≤ Int64.maxValue.toInt →
          ((∃ r, Yields (m.exec false c (number c.toInt n)) (.ok r)) ↔
            4 * n + 2 < maxTapeLength.toNat ∧
              (maxSteps = 0 ∨ 4 * n ^ 2 + 6 * n + 3 < maxSteps.toNat)) ∧
          ∀ r, Yields (m.exec false c (number c.toInt n)) (.ok r) →
            ∀ i, r[i]? = result c.toInt (3 * n) (n + 1) i) ∧
    ∃ m, (Catalogue.triple.machine.run j).1 = .ok m ∧
      ∀ (n : Nat) (c : Int64), Int64.minValue.toInt ≤ c.toInt - 3 * n →
        c.toInt + n + 1 ≤ Int64.maxValue.toInt →
        ((∃ r, Yields (m.exec false c (number c.toInt n)) (.ok r)) ↔ n ≤ 157) := by
  constructor
  · intro maxTapeLength maxSteps room
    refine ⟨_, RuleBook.result_eq_machine maxSteps (read_triple j) room, fun n c lower upper => ?_⟩
    have leads := leads_result maxSteps room lower upper
    exact ⟨leads.exists_exec_ok_iff rfl (Nat.succ_ne_zero _) fun _ => size_of_result,
      fun r => leads.getElem?_of_exec_ok rfl⟩
  · have room : (10000 : UInt64) ≠ 0 := by decide
    refine ⟨_, RuleBook.result_eq_machine 100000 (read_triple j) room, fun n c lower upper => ?_⟩
    rw [← within_limits_iff]
    exact (leads_result 100000 room lower upper).exists_exec_ok_iff rfl (Nat.succ_ne_zero _)
      fun _ => size_of_result

theorem triple_computes_two :
    ∃ m, ((Catalogue.triple.program >>= build (book.config 11 32)).run ⟨.error, #[]⟩).1 = .ok m ∧
      ∃ r, Yields (m.exec false 0 (number 0 2)) (.ok r) ∧ r[(-6 : Int)]? = some '1' ∧
        r[(1 : Int)]? = some blank := by
  obtain ⟨m, built, runs⟩ := (triple_computes ⟨.error, #[]⟩).1 11 32 (by decide)
  obtain ⟨succeeds, content⟩ := runs 2 0 (by decide) (by decide)
  obtain ⟨r, hr⟩ := succeeds.2 ⟨by decide, .inr (by decide)⟩
  exact ⟨m, built, r, hr, content r hr _, content r hr _⟩

end TapeMachine.Tripling
