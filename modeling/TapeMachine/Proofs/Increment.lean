import TapeMachine.Proofs.RuleBook
import TapeMachine.Proofs.TableCells

/-!
# The increment program

The program `increment` of the catalogue runs left over the ones of a number, from any of them, and
writes one more (`course`). From the `k`-th of `n + 1` ones, counted from `0`, this takes `k + 2`
steps and `n + 2` cells. `increment_computes` says what that comes to for runs under limits.
-/

namespace TapeMachine.Increment

open Machine

/-- The rules of the program. -/
def book : RuleBook where
  symbols := "1"
  rules := [⟨"Q1", '1', ⟨"Q1", '1', .left⟩⟩, ⟨"Q1", blank, ⟨"Q0", '1', .stay⟩⟩]
  places := by decide
  running := by decide
  symbol := by decide +kernel
  write := by decide +kernel
  next := by decide
  progress := by decide

theorem read_increment (j : Journal) :
    (Catalogue.increment.program.run j).1 = .ok book.program := by
  rw [CatalogueEntry.program, Table.read_result]
  decide +kernel

/-- What is on the cells in the end: ones from the cell left of `c` on. -/
def result (c : Int) (n : Nat) (i : Int) : Option Char :=
  if c - 1 ≤ i ∧ i ≤ c + n then some '1' else none

section

variable {c i : Int} {n : Nat}

theorem size_of_result {t : Tape} (ht : ∀ i, t[i]? = result c n i) : t.size = n + 2 := by
  refine Tape.size_eq_of_interval (c - 1) (c + n) (by omega) fun i => ?_
  rw [ht, result]
  split_ifs <;> simp <;> omega

theorem update_number :
    Function.update (fun i => (number c n)[i]?) (c - 1) (some '1') = result c n := by
  ext1 i
  rw [Function.update_apply, getElem?_number, result]
  split_ifs <;> first | rfl | omega

/-- From any one of a number to the one that is added to it. -/
theorem course {m : Machine} (obeys : book.Obeys m) {k : Nat} (hk : k ≤ n)
    (range : Addressable (c - 1)) :
    m.Leads ⟨"Q1", c + k, fun i => (number c n)[i]?⟩ ⟨"Q0", c - 1, result c n⟩ (k + 2) := by
  have back : m.Leads ⟨"Q1", c + k, fun i => (number c n)[i]?⟩
      ⟨"Q1", c - 1, fun i => (number c n)[i]?⟩ (k + 1) := by
    refine .sweep (d := .left) (by simp only [Direction.offset]; omega) range fun i hi =>
      ⟨'1', ?_, ?_⟩
    · simp only [Direction.offset]
      rw [getElem?_number, if_pos (by omega)]
    · exact obeys ⟨"Q1", '1', ⟨"Q1", '1', .left⟩⟩ (by decide)
  have add : m.Leads ⟨"Q1", c - 1, fun i => (number c n)[i]?⟩ ⟨"Q0", c - 1, result c n⟩ 1 :=
    .one (obeys ⟨"Q1", blank, ⟨"Q0", '1', .stay⟩⟩ (by decide))
      (by rw [getElem?_number, if_neg (by omega)]; rfl) (Int.add_zero _) range update_number
  exact back.trans add

end

/-! ## Runs -/

theorem leads_result (maxSteps : UInt64) {maxTapeLength : UInt64} (room : maxTapeLength ≠ 0)
    {n k : Nat} {c start : Int64} (one : k ≤ n) (cell : start.toInt = c.toInt + k)
    (lower : Int64.minValue.toInt < c.toInt) :
    (book.machine maxTapeLength maxSteps room).Leads
      ((book.machine maxTapeLength maxSteps room).start start (number c.toInt n)).view
      ⟨"Q0", c.toInt - 1, result c.toInt n⟩ (k + 2) := by
  have left : c.toInt - 1 ≤ c.toInt := Int.sub_le_self _ Int.one_nonneg
  have range : Addressable (c.toInt - 1) :=
    ⟨Int.le_sub_one_of_lt lower, left.trans (addressable_toInt c).2⟩
  have leads := course (book.obeys_machine maxTapeLength maxSteps room) one range
  rwa [← cell] at leads

/-- The program adds one from any cell of a number, and succeeds exactly within its limits. From the
`k`-th of `n + 1` ones, counted from `0`, its machine comes to its end if the limits are above
`n + 2` cells and `k + 2` steps. Then there is another one to the left of the others. Under the
limits of the catalogue this holds for the numbers up to `997`; the tape is too short for all
others. -/
theorem increment_computes (j : Journal) :
    (∀ maxTapeLength maxSteps : UInt64,
      let built :=
        ((Catalogue.increment.program >>= build (book.config maxTapeLength maxSteps)).run j).1
      (maxTapeLength = 0 → built = .error (.invalidMaxTapeLength 0)) ∧
      (maxTapeLength ≠ 0 → ∃ m, built = .ok m ∧
        ∀ (n k : Nat) (c start : Int64), k ≤ n → start.toInt = c.toInt + k →
          Int64.minValue.toInt < c.toInt →
          ((∃ r, Yields (m.exec false start (number c.toInt n)) (.ok r)) ↔
            n + 2 < maxTapeLength.toNat ∧ (maxSteps = 0 ∨ k + 2 < maxSteps.toNat)) ∧
          ∀ r, Yields (m.exec false start (number c.toInt n)) (.ok r) →
            ∀ i, r[i]? = result c.toInt n i)) ∧
    ∃ m, (Catalogue.increment.machine.run j).1 = .ok m ∧
      ∀ (n k : Nat) (c start : Int64), k ≤ n → start.toInt = c.toInt + k →
        Int64.minValue.toInt < c.toInt →
        ((∃ r, Yields (m.exec false start (number c.toInt n)) (.ok r)) ↔ n ≤ 997) ∧
        (997 < n → ∃ cells carriage,
          Yields (m.exec false start (number c.toInt n)) (.error (.tapeOver cells carriage))) := by
  constructor
  · intro maxTapeLength maxSteps built
    constructor
    · rintro rfl
      exact RuleBook.result_eq_error maxSteps (read_increment j)
    · intro room
      refine ⟨_, RuleBook.result_eq_machine maxSteps (read_increment j) room,
        fun n k c start one cell lower => ?_⟩
      have leads := leads_result maxSteps room one cell lower
      exact ⟨leads.exists_exec_ok_iff rfl (Nat.succ_ne_zero _) fun _ => size_of_result,
        fun r => leads.getElem?_of_exec_ok rfl⟩
  · have room : (1000 : UInt64) ≠ 0 := by decide
    have limit : (1000 : UInt64).toNat = 1000 := rfl
    refine ⟨_, RuleBook.result_eq_machine 1000 (read_increment j) room,
      fun n k c start one cell lower => ?_⟩
    have leads := leads_result 1000 room one cell lower
    constructor
    · have within : n + 2 < (1000 : UInt64).toNat ∧
          ((1000 : UInt64) = 0 ∨ k + 2 < (1000 : UInt64).toNat) ↔ n ≤ 997 := by
        rw [limit, or_iff_right room]
        omega
      rw [← within]
      exact leads.exists_exec_ok_iff rfl (Nat.succ_ne_zero _) fun _ => size_of_result
    · intro hn
      refine leads.exec_tapeOver (fun t ht => ?_) ?_
      · rw [size_of_result ht]
        change 1000 ≤ n + 2
        omega
      -- from 999 on the number fills the tape, and 998 does not take too many steps
      · rw [size_number]
        change 1000 ≤ n + 1 ∨ _ ∨ k + 1 < 1000
        omega

theorem increment_computes_two :
    (∃ m, ((Catalogue.increment.program >>= build (book.config 5 4)).run ⟨.error, #[]⟩).1 = .ok m ∧
      ∃ r, Yields (m.exec false 1 (number 0 2)) (.ok r) ∧ r[(-1 : Int)]? = some '1') ∧
    ∃ m, (Catalogue.increment.machine.run ⟨.error, #[]⟩).1 = .ok m ∧ ∃ cells carriage,
      Yields (m.exec false 0 (number 0 998)) (.error (.tapeOver cells carriage)) := by
  obtain ⟨within, m, built, runs⟩ := increment_computes ⟨.error, #[]⟩
  constructor
  · obtain ⟨m, built, runs⟩ := (within 5 4).2 (by decide)
    obtain ⟨succeeds, content⟩ := runs 2 1 0 1 (by decide) (by decide) (by decide)
    obtain ⟨r, hr⟩ := succeeds.2 ⟨by decide, .inr (by decide)⟩
    exact ⟨m, built, r, hr, content r hr _⟩
  · exact ⟨m, built, (runs 998 0 0 0 (by decide) (by decide) (by decide)).2 (by decide)⟩

end TapeMachine.Increment
