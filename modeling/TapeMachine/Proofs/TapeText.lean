import Mathlib.Data.List.DropRight
import TapeMachine.Proofs.OccupiedCells
import TapeMachine.Proofs.RenderedTape

/-!
# Tapes as texts

`Tape.ofString` lays a text out on a tape and `Tape.render` shows a tape as a text. Both go by way
of the cells from some place on, occupied or not (`Tape.Carries`): a text puts its characters there,
and a tape carries its stretch.

The blanks at either end of a text are not in the stretch of its tape (`Carries.stretch_eq_trim`),
and long runs of the others are shown as a mark (`Tape.dense_map_cellOf`). A tape without written
blanks comes back from its text if no run is that long. `Tape.text_in_and_out` says both.
-/

namespace TapeMachine

/-! ## Lists without their ends -/

section

variable {α β : Type}

/-- A list less the members with a property that stand at either end. -/
def trim (p : α → Bool) (l : List α) : List α :=
  (l.dropWhile p).rdropWhile p

theorem trim_map (p : β → Bool) (f : α → β) (l : List α) :
    trim p (l.map f) = (trim (p ∘ f) l).map f := by
  simp only [trim, List.rdropWhile, List.dropWhile_map, ← List.map_reverse]

/-- What is taken away has the property. -/
theorem exists_trim (p : α → Bool) (l : List α) :
    ∃ before after, l = before ++ (trim p l ++ after) ∧ (∀ a ∈ before, p a = true) ∧
      ∀ a ∈ after, p a = true := by
  refine ⟨l.takeWhile p, (l.dropWhile p).rtakeWhile p, ?_, fun a => List.mem_takeWhile_imp,
    fun a => List.mem_rtakeWhile_imp⟩
  rw [trim, List.rdropWhile_append_rtakeWhile, List.takeWhile_append_dropWhile]

/-- What is left begins and ends without the property. -/
theorem trim_ends {p : α → Bool} {l : List α} (h : trim p l ≠ []) :
    p ((trim p l).head h) = false ∧ p ((trim p l).getLast h) = false := by
  constructor
  · have hhead : (trim p l).head h = (l.dropWhile p).head _ :=
      (List.rdropWhile_prefix p (l.dropWhile p)).head h
    rw [hhead]
    exact List.head_dropWhile_not p _
  · exact Bool.eq_false_iff.2 (List.rdropWhile_last_not p _ h)

/-- Splitting after a map is splitting before it. -/
theorem splitBy_map (r : β → β → Bool) (f : α → β) (l : List α) :
    (l.map f).splitBy r = (l.splitBy fun a b => r (f a) (f b)).map (List.map f) := by
  rw [List.splitBy_eq_iff]
  refine ⟨?_, ?_, ?_, ?_⟩
  · rw [← List.map_flatten, List.flatten_splitBy]
  · intro hnil
    obtain ⟨run, hrun, hempty⟩ := List.mem_map.1 hnil
    exact List.ne_nil_of_mem_splitBy hrun (List.map_eq_nil_iff.1 hempty)
  · rintro _ hmem
    obtain ⟨run, hrun, rfl⟩ := List.mem_map.1 hmem
    exact (List.isChain_map f).2 (List.isChain_of_mem_splitBy hrun)
  · refine (List.isChain_map _).2 ((List.isChain_getLast_head_splitBy _ l).imp ?_)
    rintro a b ⟨ha, hb, hab⟩
    exact ⟨by simpa using ha, by simpa using hb, by rw [List.getLast_map, List.head_map]; exact hab⟩

end

namespace Tape

/-! ## What a tape carries from a cell on -/

/-- From the cell `start` on the tape holds what the list says, and nothing else. -/
def Carries (t : Tape) (start : Int) (cells : List (Option Char)) : Prop :=
  ∀ i, t[i]? = if start ≤ i then cells[(i - start).toNat]?.join else none

namespace Carries

variable {t t' : Tape} {start : Int} {cells before after : List (Option Char)}

theorem tape_eq (h : t.Carries start cells) (h' : t'.Carries start cells) : t = t' :=
  Std.ExtTreeMap.ext_getElem? fun {i} => (h i).trans (h' i).symm

/-- Unoccupied cells in front need not be mentioned. -/
theorem drop_before (h : t.Carries start (before ++ cells)) (hnone : ∀ a ∈ before, a = none) :
    t.Carries (start + before.length) cells := by
  intro i
  rw [h i]
  by_cases hi : start + before.length ≤ i
  · have hcount : (i - start).toNat - before.length = (i - (start + before.length)).toNat := by
      omega
    rw [if_pos (by omega), if_pos hi, List.getElem?_append_right (by omega), hcount]
  · rw [if_neg hi, ite_eq_right_iff]
    intro hstart
    have hlt : (i - start).toNat < before.length := by omega
    rw [List.getElem?_append_left hlt, List.getElem?_eq_getElem hlt,
      hnone _ (List.getElem_mem hlt), Option.join_some]

/-- Unoccupied cells at the end need not be mentioned. -/
theorem drop_after (h : t.Carries start (cells ++ after)) (hnone : ∀ a ∈ after, a = none) :
    t.Carries start cells := by
  intro i
  rw [h i]
  refine ite_congr rfl (fun _ => ?_) fun _ => rfl
  rcases Nat.lt_or_ge (i - start).toNat cells.length with hlt | hge
  · rw [List.getElem?_append_left hlt]
  · rw [List.getElem?_append_right hge, List.getElem?_eq_none hge, Option.join_none]
    cases hafter : after[(i - start).toNat - cells.length]? with
    | none => rfl
    | some a => rw [hnone a (List.mem_of_getElem? hafter), Option.join_some]

theorem exists_getElem?_of_mem (h : t.Carries start cells) {i : Int} (hi : i ∈ t) :
    ∃ n : Nat, i = start + n ∧ n < cells.length := by
  obtain ⟨c, hc⟩ := Option.isSome_iff_exists.1 (Std.ExtTreeMap.mem_iff_isSome_getElem?.1 hi)
  rw [h i] at hc
  split_ifs at hc with hstart
  refine ⟨(i - start).toNat, by omega, ?_⟩
  obtain ⟨hlt, -⟩ := List.getElem?_eq_some_iff.1 (Option.join_eq_some_iff.1 hc)
  exact hlt

theorem getElem?_add (h : t.Carries start cells) {n : Nat} (hn : n < cells.length) :
    t[start + n]? = cells[n] := by
  have hcount : (start + n - start).toNat = n := by omega
  rw [h, if_pos (by omega), hcount, List.getElem?_eq_getElem hn, Option.join_some]

theorem mem_of_isSome (h : t.Carries start cells) {n : Nat} (hn : n < cells.length)
    (hsome : cells[n].isNone = false) : start + n ∈ t := by
  rw [Std.ExtTreeMap.mem_iff_isSome_getElem?, h.getElem?_add hn, ← Option.not_isNone, hsome,
    Bool.not_false]

/-- Cells that begin and end with an occupied one are the stretch of their tape. -/
theorem stretch_eq (h : t.Carries start cells) (hne : cells ≠ [])
    (hfirst : (cells.head hne).isNone = false) (hlast : (cells.getLast hne).isNone = false) :
    t.stretch = cells := by
  have hpos := List.length_pos_iff.2 hne
  have hmin : t.minKey? = some start := by
    refine Std.ExtTreeMap.minKey?_eq_some_iff_mem_and_forall.2 ⟨?_, fun i hi => ?_⟩
    · rw [List.head_eq_getElem] at hfirst
      simpa using h.mem_of_isSome hpos hfirst
    · obtain ⟨n, rfl, -⟩ := h.exists_getElem?_of_mem hi
      exact Int.isLE_compare.2 (by omega)
  have hmax : t.maxKey? = some (start + (cells.length - 1 : Nat)) := by
    refine Std.ExtTreeMap.maxKey?_eq_some_iff_mem_and_forall.2 ⟨?_, fun i hi => ?_⟩
    · rw [List.getLast_eq_getElem] at hlast
      exact h.mem_of_isSome (Nat.sub_lt hpos Nat.one_pos) hlast
    · obtain ⟨n, rfl, hn⟩ := h.exists_getElem?_of_mem hi
      exact Int.isLE_compare.2 (by omega)
  have hcount : (start + (cells.length - 1 : Nat) - start + 1).toNat = cells.length := by omega
  rw [stretch, hmin, hmax]
  simp only [hcount]
  refine List.ext_getElem (by simp) fun n hn hn' => ?_
  rw [List.getElem_map, List.getElem_range, h.getElem?_add hn']

/-- The stretch of a tape is what it carries, less the unoccupied cells at either end. -/
theorem stretch_eq_trim (h : t.Carries start cells) : t.stretch = trim Option.isNone cells := by
  obtain ⟨before, after, hcells, hbefore, hafter⟩ := exists_trim Option.isNone cells
  have hcore : t.Carries (start + before.length) (trim Option.isNone cells) := by
    rw [hcells] at h
    exact (h.drop_before fun a ha => Option.isNone_iff_eq_none.1 (hbefore a ha)).drop_after
      fun a ha => Option.isNone_iff_eq_none.1 (hafter a ha)
  by_cases hne : trim Option.isNone cells = []
  · rw [hne] at hcore ⊢
    have hempty : t.minKey? = none := by
      rw [Std.ExtTreeMap.minKey?_eq_none_iff]
      exact Std.ExtTreeMap.ext_getElem? fun {i} => by simp [hcore i]
    rw [stretch, hempty]
  · obtain ⟨hfirst, hlast⟩ := trim_ends hne
    exact hcore.stretch_eq hne hfirst hlast

end Carries

/-- A tape carries its stretch from its first occupied cell on. -/
theorem carries_stretch {t : Tape} {start : Int}
    (h : ∀ first, t.minKey? = some first → start = first) : t.Carries start t.stretch := by
  intro i
  cases hmin : t.minKey? with
  | none =>
    rw [Std.ExtTreeMap.minKey?_eq_none_iff.1 hmin]
    simp [stretch]
  | some first =>
    obtain rfl := h first hmin
    obtain ⟨last, hmax⟩ : ∃ last, t.maxKey? = some last := by
      rw [← Option.isSome_iff_exists, Std.ExtTreeMap.isSome_maxKey?_eq_not_isEmpty,
        ← Std.ExtTreeMap.isSome_minKey?_eq_not_isEmpty, hmin, Option.isSome_some]
    have hfirst := (Std.ExtTreeMap.minKey?_eq_some_iff_mem_and_forall.1 hmin).2
    have hlast := (Std.ExtTreeMap.maxKey?_eq_some_iff_mem_and_forall.1 hmax).2
    by_cases hi : start ≤ i ∧ i ≤ last
    · have hlt : (i - start).toNat < (last - start + 1).toNat := by omega
      have hcell : start + ((i - start).toNat : Nat) = i := by omega
      rw [if_pos hi.1, stretch, hmin, hmax]
      simp only [List.getElem?_map, List.getElem?_range hlt, Option.map_some, Option.join_some,
        hcell]
    · have hout : t[i]? = none := by
        rw [Option.eq_none_iff_forall_ne_some]
        intro c hc
        have hmem : i ∈ t := by rw [Std.ExtTreeMap.mem_iff_isSome_getElem?, hc, Option.isSome_some]
        exact hi ⟨Int.isLE_compare.1 (hfirst i hmem), Int.isLE_compare.1 (hlast i hmem)⟩
      rw [hout, eq_comm, ite_eq_right_iff]
      intro hstart
      rw [List.getElem?_eq_none, Option.join_none]
      simp only [stretch, hmin, hmax, List.length_map, List.length_range]
      omega

/-! ## From a text to a text -/

/-- What a character of a text puts into its cell. -/
def cellOf (c : Char) : Option Char :=
  if c = blank ∨ c = blankMark then none else some c

/-- A text in which a mark stands for each run of more than sixteen blanks. -/
def squeeze (text : List Char) : List Char :=
  (text.splitBy fun a b => a == ' ' && b == ' ').flatMap fun run =>
    if 16 < run.length then ['…'] else run

theorem isNone_cellOf (c : Char) : (cellOf c).isNone = (symbolOfMark c == ' ') := by
  unfold cellOf symbolOfMark
  by_cases hmark : c = blankMark
  · simp [hmark, blank]
  · by_cases hblank : c = blank
    · simp [hblank, blank]
    · simp only [hmark, hblank, or_self, if_false, Option.isNone_some]
      exact (beq_eq_false_iff_ne.2 hblank).symm

theorem getD_cellOf (c : Char) : (cellOf c).getD ' ' = symbolOfMark c := by
  unfold cellOf symbolOfMark
  by_cases hmark : c = blankMark
  · simp [hmark, blank]
  · by_cases hblank : c = blank
    · simp [hblank, blank]
    · simp [hmark, hblank]

/-- A cell that reads as no mark of a blank is put there by what it reads as. -/
theorem cellOf_getD {cell : Option Char} (h : ∀ c, cell = some c → c ≠ ' ' ∧ c ≠ '_') :
    cellOf (cell.getD ' ') = cell := by
  cases cell with
  | none => rfl
  | some c =>
    obtain ⟨hblank, hmark⟩ := h c rfl
    rw [Option.getD_some, cellOf, if_neg]
    exact fun hc => hc.elim hblank hmark

/-- A text puts its characters into the cells from `start` on. -/
theorem carries_ofString (text : String) (start : Int) :
    (ofString text start).Carries start (text.toList.map cellOf) := by
  intro i
  rw [ofString, getElem?_layOut, Std.ExtTreeMap.getElem?_empty, Option.or_none]
  by_cases hi : start ≤ i
  · rw [if_pos hi, if_pos hi, List.getElem?_map]
    cases text.toList[(i - start).toNat]? with
    | none => rfl
    | some c =>
      rw [Option.map_some, Option.join_some, Option.filter_some, cellOf]
      simp only [decide_eq_true_eq, ne_eq, ← not_or, ite_not]
  · rw [if_neg hi, if_neg hi, Option.filter_none]

/-- Cells are shown as the characters that put them there, squeezed. -/
theorem dense_map_cellOf (text : List Char) :
    dense (text.map cellOf) = squeeze (text.map symbolOfMark) := by
  rw [dense, squeeze, splitBy_map, splitBy_map]
  simp only [isNone_cellOf, List.flatMap_map]
  refine List.flatMap_congr fun run _ => ?_
  rw [spell, List.length_map, List.length_map, List.map_map]
  refine ite_congr rfl (fun _ => rfl) fun _ => List.map_congr_left fun c _ => ?_
  exact getD_cellOf c

theorem toList_render (t : Tape) : t.render.toList = dense t.stretch := by
  rw [stretch_eq_spread, dense_spread, render, String.toList_ofList]

/-! ## From a tape to a tape -/

/-- Without long runs between them, cells are shown one by one. -/
theorem renderCells_of_isChain : ∀ {cells : List (Int × Char)},
    cells.IsChain (fun a b => b.1 - a.1 ≤ 17) → renderCells cells = (spread cells).map (·.getD ' ')
  | [], _ => rfl
  | [a], _ => rfl
  | a :: b :: rest, h => by
    obtain ⟨hab, hrest⟩ := List.isChain_cons_cons.1 h
    have hgap : gap (b.1 - a.1 - 1).toNat = List.replicate (b.1 - a.1 - 1).toNat ' ' := by
      rw [gap, if_neg]
      · rfl
      · simp only [longestGap]
        omega
    rw [renderCells_cons_cons, hgap, renderCells_of_isChain hrest, spread, List.map_cons,
      List.map_append, List.map_replicate]
    rfl

theorem mem_of_mem_toList {t : Tape} {a : Int × Char} (h : a ∈ t.toList) : a.1 ∈ t := by
  rw [Std.ExtTreeMap.mem_iff_isSome_getElem?,
    Std.ExtTreeMap.mem_toList_iff_getElem?_eq_some.1 h, Option.isSome_some]

/-- Neighbours in the list of the occupied cells are occupied cells with none between them. -/
theorem isChain_toList {t : Tape} {r : Int → Int → Prop}
    (h : ∀ i j, i ∈ t → j ∈ t → i < j → (∀ k, i < k → k < j → k ∉ t) → r i j) :
    t.toList.IsChain fun a b => r a.1 b.1 := by
  rw [List.isChain_iff_forall_rel_of_append_cons_cons]
  intro a b before after hcells
  have hordered := pairwise_toList t
  rw [hcells] at hordered
  obtain ⟨-, hfrom, hbefore⟩ := List.pairwise_append.1 hordered
  obtain ⟨ha, hrest⟩ := List.pairwise_cons.1 hfrom
  obtain ⟨hb, -⟩ := List.pairwise_cons.1 hrest
  refine h a.1 b.1 (mem_of_mem_toList (by simp [hcells])) (mem_of_mem_toList (by simp [hcells]))
    (ha b (by simp)) fun k hak hkb hk => ?_
  obtain ⟨c, hc⟩ := Option.isSome_iff_exists.1 (Std.ExtTreeMap.mem_iff_isSome_getElem?.1 hk)
  have hmem := Std.ExtTreeMap.mem_toList_iff_getElem?_eq_some.2 hc
  rw [hcells, List.mem_append, List.mem_cons, List.mem_cons] at hmem
  rcases hmem with hmem | rfl | rfl | hmem
  · exact Int.lt_asymm hak (hbefore _ hmem a (by simp))
  · exact Int.lt_irrefl _ hak
  · exact Int.lt_irrefl _ hkb
  · exact Int.lt_asymm hkb (hb _ hmem)

theorem exists_of_mem_stretch {t : Tape} {cell : Option Char} (h : cell ∈ t.stretch) :
    ∃ i : Int, t[i]? = cell := by
  unfold stretch at h
  split at h
  · obtain ⟨n, -, rfl⟩ := List.mem_map.1 h
    exact ⟨_, rfl⟩
  · simp at h

/-- The text of a tape puts back what the tape carries. -/
theorem map_cellOf_render {t : Tape} (hcells : ∀ (i : Int) c, t[i]? = some c → c ≠ ' ' ∧ c ≠ '_')
    (hclose : ∀ i j, i ∈ t → j ∈ t → i < j → (∀ k, i < k → k < j → k ∉ t) → j - i ≤ 17) :
    t.render.toList.map cellOf = t.stretch := by
  have hrender : t.render.toList = t.stretch.map (·.getD ' ') := by
    rw [stretch_eq_spread, render, String.toList_ofList,
      renderCells_of_isChain (isChain_toList hclose)]
  have hcell : ∀ cell ∈ t.stretch, (cellOf ∘ (·.getD ' ')) cell = id cell := fun cell hmem => by
    obtain ⟨i, rfl⟩ := exists_of_mem_stretch hmem
    exact cellOf_getD (hcells i)
  rw [hrender, List.map_map, List.map_congr_left hcell, List.map_id]

/-- A text that is laid out and shown again has lost the blanks at its ends, and a mark stands for
each run of more than sixteen blanks in between; where it was laid out does not matter, and it
occupies no cells but those of its characters. A tape that holds no blank and no mark of a blank,
and whose occupied cells are never more than seventeen apart, comes back if what it shows is laid
out from its first occupied cell. -/
theorem text_in_and_out :
    (∀ (text : String) (start : Int),
      (ofString text start).render =
        String.ofList (squeeze (trim (· == ' ') (text.toList.map symbolOfMark)))) ∧
    (∀ (text : String) (start i : Int), i ∈ ofString text start →
      start ≤ i ∧ i < start + text.length) ∧
    ∀ (t : Tape) (start : Int), (∀ (i : Int) c, t[i]? = some c → c ≠ ' ' ∧ c ≠ '_') →
      (∀ i j, i ∈ t → j ∈ t → i < j → (∀ k, i < k → k < j → k ∉ t) → j - i ≤ 17) →
      (∀ first, t.minKey? = some first → start = first) → ofString t.render start = t := by
  refine ⟨fun text start => ?_, fun text start i hi => ?_, fun t start hcells hclose hstart => ?_⟩
  · have hnone : Option.isNone ∘ cellOf = (· == ' ') ∘ symbolOfMark := funext isNone_cellOf
    rw [← String.toList_inj, toList_render, (carries_ofString text start).stretch_eq_trim, trim_map,
      trim_map, hnone, dense_map_cellOf, String.toList_ofList]
  · obtain ⟨n, rfl, hn⟩ := (carries_ofString text start).exists_getElem?_of_mem hi
    rw [List.length_map, String.length_toList] at hn
    omega
  · have hcarries := carries_ofString t.render start
    rw [map_cellOf_render hcells hclose] at hcarries
    exact hcarries.tape_eq (carries_stretch hstart)

theorem text_in_and_out_apart :
    let t : Tape := ((∅ : Tape).insert (-3) '1').insert 14 '+'
    t.render = "1                +" ∧ ofString t.render (-3) = t := by
  intro t
  have hget : ∀ i, t[i]? = if 14 = i then some '+' else if -3 = i then some '1' else none :=
    fun i => by simp [t, Std.ExtTreeMap.getElem?_insert]
  have hmem : ∀ i, i ∈ t ↔ 14 = i ∨ -3 = i := fun i => by
    rw [Std.ExtTreeMap.mem_iff_isSome_getElem?, hget]
    split_ifs <;> simp [*]
  have hmin : t.minKey? = some (-3) := by
    refine Std.ExtTreeMap.minKey?_eq_some_iff_mem_and_forall.2
      ⟨(hmem _).2 (.inr rfl), fun i hi => ?_⟩
    rw [hmem] at hi
    exact Int.isLE_compare.2 (by omega)
  refine ⟨by decide +kernel, text_in_and_out.2.2 t (-3) (fun i c hc => ?_) (fun i j hi hj _ _ => ?_)
    fun first hfirst => ?_⟩
  · rw [hget] at hc
    split_ifs at hc <;> cases hc <;> decide
  · rw [hmem] at hi hj
    omega
  · rw [hmin] at hfirst
    exact Option.some.inj hfirst

end Tape

end TapeMachine
