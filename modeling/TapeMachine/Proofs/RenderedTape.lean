import Mathlib.Data.List.SplitBy
import TapeMachine.Tape.Render

/-!
# What a shown tape shows

`Tape.render` goes from one occupied cell to the next. `Tape.stretch` is the stretch that it shows,
cell by cell: every cell from the first occupied one to the last. Of a stretch the unoccupied cells
that stand together are a run; `Tape.spell` writes a run of more than sixteen as a mark and every
other cell as what it reads. Both come to the same text (`Tape.render_eq_dense`).

A tape need not come in order. `Tape.renderListing?` is given the occupied cells in any order,
numbered by words, sorts them and counts the cells between two neighbours in words. It never counts
below zero, and its text is that of `Tape.render`.
-/

namespace TapeMachine.Tape

/-! ## The stretch cell by cell -/

/-- The cells from the first occupied one to the last, with what they hold. -/
def stretch (t : Tape) : List (Option Char) :=
  match t.minKey?, t.maxKey? with
  | some first, some last => (List.range (last - first + 1).toNat).map fun n : Nat => t[first + n]?
  | _, _ => []

/-- How a run of cells is written: as what the cells read, or as a mark if it is too long. -/
def spell (run : List (Option Char)) : List Char :=
  if 16 < run.length then ['…'] else run.map (·.getD ' ')

/-- A stretch as a text. Unoccupied cells that stand together are one run, and each occupied cell is
one of its own. -/
def dense (cells : List (Option Char)) : List Char :=
  (cells.splitBy fun a b => a.isNone && b.isNone).flatMap spell

theorem dense_some_cons (c : Char) (cells : List (Option Char)) :
    dense (some c :: cells) = c :: dense cells := by
  have hsplit := List.splitBy_append (r := fun a b : Option Char => a.isNone && b.isNone)
    (l := [some c]) (m := cells) (by simp)
  rw [List.singleton_append] at hsplit
  rw [dense, hsplit, List.flatMap_append]
  rfl

/-- A run of unoccupied cells before an occupied one. -/
theorem dense_replicate_append (n : Nat) (c : Char) (cells : List (Option Char)) :
    dense (List.replicate n none ++ some c :: cells) = gap n ++ dense (some c :: cells) := by
  rcases Nat.eq_zero_or_pos n with rfl | hn
  · simp [gap, longestGap]
  · have hrun : (List.replicate n (none : Option Char)).splitBy (fun a b => a.isNone && b.isNone) =
        [List.replicate n none] :=
      List.splitBy_of_isChain (by simp [hn.ne']) (List.isChain_replicate_of_rel n rfl)
    have hspell : spell (List.replicate n none) = gap n := by
      rw [spell, List.length_replicate, List.map_replicate]
      rfl
    rw [dense, List.splitBy_append_cons _ (by simp), hrun, List.flatMap_append, ← dense,
      List.flatMap_singleton, hspell]

/-! ## The occupied cells and what lies between them -/

/-- Occupied cells in ascending order, with the unoccupied ones between them. -/
def spread : List (Int × Char) → List (Option Char)
  | [] => []
  | [a] => [some a.2]
  | a :: b :: rest =>
    some a.2 :: (List.replicate (b.1 - a.1 - 1).toNat none ++ spread (b :: rest))

theorem exists_spread_cons (a : Int × Char) (rest : List (Int × Char)) :
    ∃ cells, spread (a :: rest) = some a.2 :: cells := by
  cases rest with
  | nil => exact ⟨_, rfl⟩
  | cons b rest => exact ⟨_, rfl⟩

@[simp] theorem renderCells_singleton (a : Int × Char) : renderCells [a] = [a.2] :=
  rfl

theorem renderCells_cons_cons (a b : Int × Char) (rest : List (Int × Char)) :
    renderCells (a :: b :: rest) =
      a.2 :: (gap (b.1 - a.1 - 1).toNat ++ renderCells (b :: rest)) := by
  simp [renderCells, afterCell]

theorem dense_spread : ∀ cells : List (Int × Char), dense (spread cells) = renderCells cells
  | [] => rfl
  | [a] => by rw [spread, dense_some_cons]; rfl
  | a :: b :: rest => by
    obtain ⟨cells, hcells⟩ := exists_spread_cons b rest
    rw [spread, dense_some_cons, hcells, dense_replicate_append, ← hcells,
      dense_spread (b :: rest), renderCells_cons_cons]

/-- Between two neighbours there is no occupied cell. -/
theorem map_range_between {f : Int → Option Char} {a : Int × Char} {k : Nat} (ha : f a.1 = some a.2)
    (hnone : ∀ i, a.1 < i → i < a.1 + k + 1 → f i = none) :
    (List.range (k + 1)).map (fun n : Nat => f (a.1 + n)) = some a.2 :: List.replicate k none := by
  rw [List.range_succ_eq_map, List.map_cons, List.map_map, Int.natCast_zero, Int.add_zero, ha]
  refine congrArg (some a.2 :: ·) (List.eq_replicate_iff.2 ⟨by simp, fun cell hcell => ?_⟩)
  obtain ⟨n, hn, rfl⟩ := List.mem_map.1 hcell
  have hlt := List.mem_range.1 hn
  exact hnone _ (by simp only [Nat.succ_eq_add_one]; omega)
    (by simp only [Nat.succ_eq_add_one]; omega)

/-- Between two neighbours of an ascending list nothing is looked up. -/
theorem eq_none_of_between {f : Int → Option Char} {a b : Int × Char} {rest : List (Int × Char)}
    (hordered : (b :: rest).Pairwise (·.1 < ·.1))
    (hf : ∀ i, a.1 ≤ i → ∀ c, f i = some c ↔ (i, c) ∈ a :: b :: rest) {i : Int} (hai : a.1 < i)
    (hib : i < b.1) : f i = none := by
  rw [Option.eq_none_iff_forall_ne_some]
  intro c hc
  have hmem := (hf i (Int.le_of_lt hai) c).1 hc
  simp only [List.mem_cons] at hmem
  rcases hmem with rfl | rfl | hmem
  · exact Int.lt_irrefl _ hai
  · exact Int.lt_irrefl _ hib
  · exact Int.lt_irrefl _ (Int.lt_trans hib ((List.pairwise_cons.1 hordered).1 _ hmem))

/-- The last cell of an ascending list is not before its first. -/
theorem le_of_getLast?_eq {a : Int × Char} {rest : List (Int × Char)} {last : Int}
    (hordered : (a :: rest).Pairwise (·.1 < ·.1))
    (hlast : ((a :: rest).map Prod.fst).getLast? = some last) : a.1 ≤ last := by
  obtain ⟨cell, hcell, rfl⟩ := List.mem_map.1 (List.mem_of_getLast? hlast)
  rcases List.mem_cons.1 hcell with rfl | hcell
  · exact Int.le_refl _
  · exact Int.le_of_lt ((List.pairwise_cons.1 hordered).1 _ hcell)

/-- Looked up one by one, the cells of a stretch are the occupied ones and those between them. -/
theorem map_range_eq_spread {f : Int → Option Char} {last : Int} :
    ∀ {a : Int × Char} {rest : List (Int × Char)}, (a :: rest).Pairwise (·.1 < ·.1) →
      ((a :: rest).map Prod.fst).getLast? = some last →
      (∀ i, a.1 ≤ i → ∀ c, f i = some c ↔ (i, c) ∈ a :: rest) →
      (List.range (last - a.1 + 1).toNat).map (fun n : Nat => f (a.1 + n)) = spread (a :: rest)
  | a, [], _, hlast, hf => by
    have ha := (hf a.1 (Int.le_refl _) a.2).2 (by simp)
    obtain rfl : a.1 = last := by simpa using hlast
    simp [spread, ha]
  | a, b :: rest, hordered, hlast, hf => by
    obtain ⟨hfirst, hrest⟩ := List.pairwise_cons.1 hordered
    have hab : a.1 < b.1 := hfirst b (by simp)
    have ha : f a.1 = some a.2 := (hf a.1 (Int.le_refl _) a.2).2 (by simp)
    rw [List.map_cons, List.map_cons, List.getLast?_cons_cons, ← List.map_cons] at hlast
    have hle := le_of_getLast?_eq hrest hlast
    have ih := map_range_eq_spread (f := f) hrest hlast fun i hi c => by
      rw [hf i (by omega) c, List.mem_cons, or_iff_right]
      rintro rfl
      exact absurd hab (Int.not_lt.2 hi)
    -- the range falls into the cells before `b` and those from `b` on
    have hcount : (last - a.1 + 1).toNat =
        (b.1 - a.1 - 1).toNat + 1 + (last - b.1 + 1).toNat := by omega
    have hshift : ∀ n : Nat, a.1 + ((b.1 - a.1 - 1).toNat + 1 + n : Nat) = b.1 + n := by omega
    have hbefore := map_range_between (k := (b.1 - a.1 - 1).toNat) ha fun i hai hi =>
      eq_none_of_between hrest hf hai (by omega)
    rw [hcount, List.range_add, List.map_append, List.map_map, hbefore, spread, List.cons_append,
      ← ih]
    simp only [Function.comp_def, hshift]

/-- The occupied cells of a tape are listed in ascending order. -/
theorem pairwise_toList (t : Tape) : t.toList.Pairwise (·.1 < ·.1) :=
  Std.ExtTreeMap.ordered_keys_toList.imp Int.compare_eq_lt.1

theorem stretch_eq_spread (t : Tape) : t.stretch = spread t.toList := by
  have hkeys : t.toList.map Prod.fst = t.keys := Std.ExtTreeMap.map_fst_toList_eq_keys
  have hordered := pairwise_toList t
  have hmem : ∀ i c, t[i]? = some c ↔ (i, c) ∈ t.toList := fun i c =>
    Std.ExtTreeMap.mem_toList_iff_getElem?_eq_some.symm
  rw [stretch, Std.ExtTreeMap.minKey?_eq_head?_keys, Std.ExtTreeMap.maxKey?_eq_getLast?_keys,
    ← hkeys]
  generalize t.toList = cells at hordered hmem
  cases cells with
  | nil => rfl
  | cons a rest =>
    have hlast := List.getLast?_eq_some_getLast (l := (a :: rest).map Prod.fst) (by simp)
    rw [hlast]
    exact map_range_eq_spread hordered hlast fun i _ => hmem i

/-! ## Cells in any order, numbered by words -/

/-- How far two cells are apart. -/
def distance (i j : Int64) : UInt64 :=
  if i < j then j.toUInt64 - i.toUInt64 else i.toUInt64 - j.toUInt64

/-- How many cells lie between two. There is no count below zero. -/
def between? (i j : Int64) : Option UInt64 :=
  if distance i j = 0 then none else some (distance i j - 1)

/-- The text of the cells that follow the occupied cell `i`. -/
def renderAfter? (i : Int64) : List (Int64 × Char) → Option (List Char)
  | [] => some []
  | (j, c) :: rest => do
    let n ← between? i j
    let after ← renderAfter? j rest
    return gap n.toNat ++ c :: after

/-- The text of occupied cells in ascending order. -/
def renderSorted? : List (Int64 × Char) → Option (List Char)
  | [] => some []
  | (i, c) :: rest => (renderAfter? i rest).map (c :: ·)

/-- The text of occupied cells that are listed in any order, each once. -/
def renderListing? (cells : List (Int64 × Char)) : Option String :=
  (renderSorted? (cells.mergeSort fun a b => a.1 ≤ b.1)).map String.ofList

/-- The cell that a word numbers. -/
def ofWord (a : Int64 × Char) : Int × Char :=
  (a.1.toInt, a.2)

/-- The words of the upper half number the cells below zero. -/
theorem toInt_eq_cond (i : Int64) : i.toInt = if 2 * i.toUInt64.toNat < UInt64.size then
    (i.toUInt64.toNat : Int) else i.toUInt64.toNat - UInt64.size :=
  BitVec.toInt_eq_toNat_cond _

theorem toNat_sub_toUInt64 {i j : Int64} (h : i.toInt ≤ j.toInt) :
    ((j.toUInt64 - i.toUInt64).toNat : Int) = j.toInt - i.toInt := by
  have hi := toInt_eq_cond i
  have hj := toInt_eq_cond j
  have hi' := i.toUInt64.toNat_lt
  have hj' := j.toUInt64.toNat_lt
  simp only [UInt64.size] at hi hj
  rw [UInt64.toNat_sub]
  split_ifs at hi hj <;> omega

/-- Distances fit into a word. -/
theorem toNat_distance (i j : Int64) : (distance i j).toNat = (j.toInt - i.toInt).natAbs := by
  unfold distance
  split
  next h =>
    have hsub := toNat_sub_toUInt64 (Int.le_of_lt (Int64.lt_iff_toInt_lt.1 h))
    omega
  next h =>
    have hsub := toNat_sub_toUInt64 (Int64.le_iff_toInt_le.1 (Int64.not_lt.1 h))
    omega

/-- Between two different cells the count neither falls below zero nor wraps. -/
theorem exists_between? {i j : Int64} (h : i ≠ j) :
    ∃ n, between? i j = some n ∧ n.toNat + 1 = (j.toInt - i.toInt).natAbs := by
  have hdistance := toNat_distance i j
  have hne : (j.toInt - i.toInt).natAbs ≠ 0 := fun hzero =>
    h (Int64.toInt_inj.1 (by omega))
  have hpos : 1 ≤ distance i j := by
    rw [UInt64.le_iff_toNat_le, hdistance]
    exact Nat.one_le_iff_ne_zero.2 hne
  refine ⟨distance i j - 1, if_neg ?_, ?_⟩
  · rintro hzero
    rw [hzero] at hpos
    exact absurd hpos (by decide)
  · rw [UInt64.toNat_sub_of_le _ _ hpos, hdistance]
    exact Nat.succ_pred hne

/-- Sorted cells come to the text of the tape's own. -/
theorem renderSorted?_eq : ∀ {cells : List (Int64 × Char)}, cells.Pairwise (·.1 < ·.1) →
    renderSorted? cells = some (renderCells (cells.map ofWord))
  | [], _ => rfl
  | [a], _ => rfl
  | a :: b :: rest, h => by
    obtain ⟨hfirst, hrest⟩ := List.pairwise_cons.1 h
    have hab : a.1.toInt < b.1.toInt := Int64.lt_iff_toInt_lt.1 (hfirst b (by simp))
    obtain ⟨n, hn, hcount⟩ := exists_between? (i := a.1) (j := b.1) (by
      intro heq
      rw [heq] at hab
      exact Int.lt_irrefl _ hab)
    obtain ⟨after, hafter, hcells⟩ := Option.map_eq_some_iff.1 (renderSorted?_eq hrest)
    have hgap : n.toNat = ((ofWord b).1 - (ofWord a).1 - 1).toNat := by
      simp only [ofWord]
      omega
    rw [List.map_cons, List.map_cons, renderCells_cons_cons, ← List.map_cons, ← hcells, ← hgap]
    simp [renderSorted?, renderAfter?, hn, hafter, ofWord]

/-- In whatever order the cells of a tape are listed, sorting brings them into the tape's own. -/
theorem map_mergeSort_eq {t : Tape} {cells : List (Int64 × Char)}
    (h : (cells.map ofWord).Perm t.toList) :
    (cells.mergeSort fun a b => a.1 ≤ b.1).map ofWord = t.toList := by
  have hperm := ((cells.mergeSort_perm fun a b => a.1 ≤ b.1).map ofWord).trans h
  have hsorted : ((cells.mergeSort fun a b => a.1 ≤ b.1).map ofWord).Pairwise (·.1 ≤ ·.1) := by
    rw [List.pairwise_map]
    refine (List.pairwise_mergeSort ?_ ?_ cells).imp fun {a b} hab => ?_
    · intro a b c hab hbc
      simp only [decide_eq_true_eq] at *
      exact Int64.le_trans hab hbc
    · intro a b
      simpa using Int64.le_total a.1 b.1
    · exact Int64.le_iff_toInt_le.1 (of_decide_eq_true hab)
  have hordered : t.toList.Pairwise (·.1 ≤ ·.1) :=
    (pairwise_toList t).imp Int.le_of_lt
  refine hperm.eq_of_pairwise (fun a b ha hb hab hba => ?_) hsorted hordered
  -- cells with the same number are one cell of the tape
  have hkey : a.1 = b.1 := Int.le_antisymm hab hba
  have ha' := Std.ExtTreeMap.mem_toList_iff_getElem?_eq_some.1 (hperm.mem_iff.1 ha)
  have hb' := Std.ExtTreeMap.mem_toList_iff_getElem?_eq_some.1 hb
  rw [hkey, hb', Option.some.injEq] at ha'
  exact Prod.ext hkey ha'.symm

/-! ## The text of a tape -/

theorem length_gap_le (n : Nat) : (gap n).length ≤ longestGap := by
  unfold gap
  split
  · simp [longestGap]
  · simpa using Nat.le_of_not_lt ‹_›

theorem length_renderCells_le : ∀ cells : List (Int × Char),
    (renderCells cells).length ≤ (longestGap + 1) * cells.length
  | [] => by simp [renderCells]
  | [a] => by simp
  | a :: b :: rest => by
    have hgap := length_gap_le (b.1 - a.1 - 1).toNat
    have ih := length_renderCells_le (b :: rest)
    rw [renderCells_cons_cons]
    simp only [List.length_cons, List.length_append, Nat.mul_add, longestGap] at *
    omega

/-- A tape is shown as its stretch cell by cell, with a mark for each run of more than sixteen
unoccupied cells; so there are at most seventeen characters to an occupied cell. The same text comes
of the occupied cells listed in any order and numbered by words, where the count of the cells
between two neither falls below zero nor wraps. -/
theorem render_eq_dense (t : Tape) :
    t.render = String.ofList (dense t.stretch) ∧
    (∀ cells : List (Int64 × Char), (cells.map ofWord).Perm t.toList →
      renderListing? cells = some t.render) ∧
    (∀ i j : Int64, i ≠ j →
      ∃ n, between? i j = some n ∧ n.toNat + 1 = (j.toInt - i.toInt).natAbs) ∧
    t.render.length ≤ 17 * t.size := by
  refine ⟨?_, fun cells h => ?_, fun i j => exists_between?, ?_⟩
  · rw [stretch_eq_spread, dense_spread, render]
  · have hcells := map_mergeSort_eq h
    have hordered := pairwise_toList t
    rw [← hcells, List.pairwise_map] at hordered
    have hwords := hordered.imp fun hab => Int64.lt_iff_toInt_lt.2 hab
    rw [renderListing?, renderSorted?_eq hwords, hcells, Option.map_some, render]
  · rw [render, String.length_ofList, ← Std.ExtTreeMap.length_toList]
    exact length_renderCells_le t.toList

/-- The first and the last cell there are. -/
example : renderListing? [(Int64.maxValue, '1'), (Int64.minValue, '+')] = some "+…1" := by
  cbv

end TapeMachine.Tape
