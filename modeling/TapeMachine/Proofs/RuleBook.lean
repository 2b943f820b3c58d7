import TapeMachine.Catalogue
import TapeMachine.Proofs.Accounting
import TapeMachine.Proofs.Construction

/-!
# Rule books

The programs of the catalogue take a machine from `Q1` to `Q0` by a few rules. A `RuleBook` lists
such rules, and nothing is wrong with them: no two are in one place, and each leads on within the
symbols and the states of the book. So a machine can be made of a book under all limits that leave
room on the tape (`RuleBook.result_eq_machine`), and it goes by every rule of the book
(`RuleBook.obeys_machine`).

The programs compute on numbers in unary (`numeral`), which stand on the tape from some cell on
(`number`).
-/

namespace TapeMachine

open Machine

/-- The rules of a program from `Q1` to `Q0`. -/
structure RuleBook where
  /-- The symbols of the tape. The blank need not be among them. -/
  symbols : String
  /-- The rules, in some order. -/
  rules : List Entry
  /-- The rules are in different places. -/
  places : rules.Pairwise fun a b => ¬(b.state = a.state ∧ b.symbol = a.symbol)
  /-- No rule leads on from the end. -/
  running : ∀ e ∈ rules, e.state ≠ "Q0"
  /-- The rules are for symbols of the tape. -/
  symbol : ∀ e ∈ rules, e.symbol ∈ Alphabet.ofString symbols
  /-- The rules write symbols of the tape. -/
  write : ∀ e ∈ rules, e.transition.write ∈ Alphabet.ofString symbols
  /-- The rules lead to the end or to a state that has rules. -/
  next : ∀ e ∈ rules, e.transition.next = "Q0" ∨ ∃ e' ∈ rules, e'.state = e.transition.next
  /-- No rule leaves everything as it is. -/
  progress : ∀ e ∈ rules, ¬(e.transition.direction = .stay ∧ e.transition.next = e.state ∧
    e.transition.write = e.symbol)

namespace RuleBook

variable (b : RuleBook) (maxTapeLength maxSteps : UInt64)

/-- The machine goes by the rules of the book. -/
def Obeys (m : Machine) : Prop :=
  ∀ e ∈ b.rules, m.Rule e.state e.symbol e.transition

/-- The program of the rules. -/
def program : Program :=
  .ofEntries b.rules

/-- The configuration of the program under some limits. -/
def config : Config :=
  { alphabet := b.symbols, startState := "Q1", terminalState := "Q0", maxTapeLength, maxSteps }

theorem flaw?_eq_none {maxTapeLength : UInt64} (room : maxTapeLength ≠ 0) :
    flaw? (.ofString b.symbols) "Q1" "Q0" b.program maxTapeLength = none := by
  refine flaw?_eq_none_iff.2 ⟨by decide, by decide, room, fun e he => ?_⟩
  have rule : e ∈ b.rules := (Program.mem_entries_ofEntries b.places).1 he
  exact ⟨b.write e rule, (b.next e rule).imp_right Program.containsState_ofEntries.2⟩

/-- The machine of the program under some limits. -/
def machine (room : maxTapeLength ≠ 0) : Machine where
  alphabet := .ofString b.symbols
  startState := "Q1"
  terminalState := "Q0"
  program := b.program
  maxTapeLength
  maxSteps
  blank_mem := Alphabet.mem_ofString.2 (.inl rfl)
  flawless := b.flaw?_eq_none room

theorem obeys_machine (room : maxTapeLength ≠ 0) :
    b.Obeys (b.machine maxTapeLength maxSteps room) := fun e he =>
  ⟨b.running e he, b.symbol e he,
    Program.mem_entries_iff.1 ((Program.mem_entries_ofEntries b.places).2 he), b.progress e he⟩

variable {b maxTapeLength} {work : Logged Program} {j : Journal}

/-- The machine is built wherever the program of the book is read. -/
theorem result_eq_machine (reads : (work.run j).1 = .ok b.program) (room : maxTapeLength ≠ 0) :
    ((work >>= build (b.config maxTapeLength maxSteps)).run j).1 =
      .ok (b.machine maxTapeLength maxSteps room) := by
  rw [build_result, reads]
  change ofConfig (b.config maxTapeLength maxSteps) b.program = _
  unfold ofConfig
  split
  next e he => cases he.symm.trans (b.flaw?_eq_none room)
  next => rfl

/-- Without room on the tape nothing is built. -/
theorem result_eq_error (reads : (work.run j).1 = .ok b.program) :
    ((work >>= build (b.config 0 maxSteps)).run j).1 = .error (.invalidMaxTapeLength 0) := by
  have flaw : FirstFlaw (b.config 0 maxSteps) b.program (.invalidMaxTapeLength 0) :=
    .noRoom (by simp [config]) (by simp [config]) rfl
  rw [build_result, reads]
  exact ofConfig_eq_error_iff.2 (flaw?_eq_some_iff.2 flaw)

end RuleBook

/-! ## Numbers -/

/-- A number in unary. -/
def numeral (n : Nat) : List Char :=
  List.replicate (n + 1) '1'

@[simp] theorem length_numeral (n : Nat) : (numeral n).length = n + 1 :=
  List.length_replicate

theorem numeral_ne_blank {n : Nat} (c : Char) (h : c ∈ numeral n) : c ≠ blank ∧ c ≠ blankMark := by
  rw [List.eq_of_mem_replicate h]
  decide

theorem getElem?_numeral {n i : Nat} : (numeral n)[i]? = if i ≤ n then some '1' else none := by
  rw [numeral, List.getElem?_replicate]
  exact if_congr Nat.lt_succ_iff rfl rfl

/-- The number `n` on the tape, from cell `c` on. -/
def number (c : Int) (n : Nat) : Tape :=
  .ofString (String.ofList (numeral n)) c

theorem getElem?_number {c i : Int} {n : Nat} :
    (number c n)[i]? = if c ≤ i ∧ i ≤ c + n then some '1' else none := by
  rw [number, Tape.getElem?_ofString numeral_ne_blank, getElem?_numeral]
  split_ifs <;> first | rfl | omega

theorem size_number {c : Int} {n : Nat} : (number c n).size = n + 1 := by
  refine Tape.size_eq_of_interval c (c + n) (by omega) fun i => ?_
  rw [getElem?_number]
  split_ifs <;> simp <;> omega

end TapeMachine
