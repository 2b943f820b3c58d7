import Mathlib.Data.Finset.Card
import Mathlib.Data.Finset.Dedup
import Mathlib.Data.Finset.Insert
import Mathlib.Data.Int.Interval
import TapeMachine.Tape.Basic

/-!
# The occupied cells of a tape

The tape limit of a machine counts occupied cells. `Tape.cells` is the finite set of them; its
number of members is the size of the tape (`Tape.card_cells`), and writing adds one cell to it
(`Tape.cells_insert`). A text that is laid out occupies the cells of its characters other than
blanks and their marks (`Tape.getElem?_layOut`); if there are none of those in it, its cells hold
its characters (`Tape.getElem?_ofString`).
-/

namespace TapeMachine.Tape

variable (t : Tape)

/-- The occupied cells. -/
def cells : Finset Int :=
  t.keys.toFinset

@[simp] theorem mem_cells {i : Int} : i ∈ t.cells ↔ i ∈ t := by
  simp [cells]

/-- The size of a tape is the number of its occupied cells. -/
theorem card_cells : t.cells.card = t.size := by
  rw [cells, List.toFinset_card_of_nodup Std.ExtTreeMap.nodup_keys, Std.ExtTreeMap.length_keys]

@[simp] theorem cells_insert (i : Int) (c : Char) : cells (t.insert i c) = insert i t.cells := by
  ext j
  rw [mem_cells, Std.ExtTreeMap.mem_insert, Std.LawfulEqCmp.compare_eq_iff_eq, Finset.mem_insert,
    mem_cells, eq_comm]

/-- A tape that occupies the cells of an interval has as many as there are in it. -/
theorem size_eq_of_interval {t : Tape} (i j : Int) {n : Nat} (length : i + n = j + 1)
    (h : ∀ k, t[k]?.isSome = true ↔ i ≤ k ∧ k ≤ j) : t.size = n := by
  have hcells : t.cells = Finset.Icc i j := by
    ext k
    rw [mem_cells, Std.ExtTreeMap.mem_iff_isSome_getElem?, h, Finset.mem_Icc]
  rw [← card_cells, hcells, Int.card_Icc]
  omega

/-- After a text has been laid out, a cell holds its character of the text, unless that leaves the
cell as it is. -/
theorem getElem?_layOut (s : List Char) (i j : Int) :
    (layOut t i s)[j]? = ((if i ≤ j then s[(j - i).toNat]? else none).filter
      fun c => c ≠ blank ∧ c ≠ blankMark).or t[j]? := by
  induction s generalizing t i with
  | nil => simp [layOut]
  | cons c rest ih =>
    have hother : i ≠ j →
        (if c = blank ∨ c = blankMark then t else t.insert i c)[j]? = t[j]? := fun hne => by
      split
      · rfl
      · rw [Std.ExtTreeMap.getElem?_insert, if_neg (by simpa using hne)]
    rw [layOut, ih]
    rcases Int.lt_trichotomy i j with hlt | rfl | hgt
    · have hnat : (j - i).toNat = (j - (i + 1)).toNat + 1 := by omega
      rw [hother hlt.ne, if_pos (Int.add_one_le_of_lt hlt), if_pos hlt.le, hnat,
        List.getElem?_cons_succ]
    · rw [if_neg (by omega), if_pos le_rfl, Int.sub_self, Int.toNat_zero, List.getElem?_cons_zero]
      rw [Option.filter_some]
      by_cases hc : c = blank ∨ c = blankMark
      · have hno : ¬(c ≠ blank ∧ c ≠ blankMark) := fun h => hc.elim h.1 h.2
        simp [hc, hno]
      · rw [if_neg hc]
        simp [not_or.1 hc]
    · rw [hother hgt.ne', if_neg (by omega), if_neg (by omega)]

/-- A text without blanks puts its characters into the cells from the first on. -/
theorem getElem?_ofString {s : List Char} (h : ∀ c ∈ s, c ≠ blank ∧ c ≠ blankMark) (i j : Int) :
    (ofString (String.ofList s) i)[j]? = if i ≤ j then s[(j - i).toNat]? else none := by
  rw [ofString, getElem?_layOut, String.toList_ofList, Std.ExtTreeMap.getElem?_empty,
    Option.or_none]
  by_cases hij : i ≤ j
  · rw [if_pos hij]
    cases hc : s[(j - i).toNat]? with
    | none => exact Option.filter_none _
    | some c => exact Option.filter_some_pos (decide_eq_true (h c (List.mem_of_getElem? hc)))
  · rw [if_neg hij, Option.filter_none]

end TapeMachine.Tape
