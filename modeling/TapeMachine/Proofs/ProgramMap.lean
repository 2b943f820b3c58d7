import Mathlib.Data.List.Induction
import TapeMachine.Program.Basic

/-!
# Programs as maps

A program is known by what it binds to every state and symbol and by the states that have a row
(`Program.ext_get?`). A program made of a list of entries binds to a place the last entry of the
list in that place (`Program.get?_ofEntries_eq_some_iff`), and its states are those of the entries.
-/

namespace TapeMachine

/-! ## Maps and their pairs -/

/-- The values of a map are those of its pairs, in the same order. -/
theorem values_eq_map_toList {α β : Type} {cmp : α → α → Ordering} [Std.TransCmp cmp]
    (t : Std.ExtTreeMap α β cmp) : t.values = t.toList.map Prod.snd := by
  have hfold : t.values = t.foldr (fun _ v rest => v :: rest) [] := by
    obtain ⟨t⟩ := t
    induction t using Std.ExtDTreeMap.inductionOn with
    | mk t => rfl
  rw [hfold, Std.ExtTreeMap.foldr_eq_foldr_toList, List.map_eq_foldr]

/-- The pairs of a map, entered into an empty one, make the map. -/
theorem insertMany_toList {α β : Type} {cmp : α → α → Ordering} [Std.TransCmp cmp]
    [Std.LawfulEqCmp cmp] [BEq α] [Std.LawfulBEqCmp cmp] (t : Std.ExtTreeMap α β cmp) :
    (∅ : Std.ExtTreeMap α β cmp).insertMany t.toList = t := by
  refine Std.ExtTreeMap.ext_getElem? fun {k} => ?_
  cases hk : t[k]? with
  | some v =>
    exact Std.ExtTreeMap.getElem?_insertMany_list_of_mem Std.ReflCmp.compare_self
      Std.ExtTreeMap.distinct_keys_toList
      (Std.ExtTreeMap.mem_toList_iff_getElem?_eq_some.2 hk)
  | none =>
    rw [Std.ExtTreeMap.getElem?_insertMany_list_of_contains_eq_false]
    · exact Std.ExtTreeMap.getElem?_empty
    · rw [Bool.eq_false_iff, ne_eq, List.contains_iff_exists_mem_beq]
      rintro ⟨_, hmem, heq⟩
      obtain ⟨⟨k', v⟩, hpair, rfl⟩ := List.mem_map.1 hmem
      have hcmp : cmp k k' = .eq := Std.LawfulBEqCmp.compare_eq_iff_beq.2 heq
      obtain rfl := Std.LawfulEqCmp.eq_of_compare hcmp
      rw [Std.ExtTreeMap.mem_toList_iff_getElem?_eq_some, hk] at hpair
      cases hpair

namespace Program

variable {p q : Program} {s : String} {x : Char} {t : Transition}

/-! ## Places, entries and states -/

theorem containsState_iff : p.containsState s = true ↔ ∃ row, p.rows[s]? = some row := by
  rw [containsState, Std.ExtTreeMap.contains_eq_isSome_getElem?, Option.isSome_iff_exists]

theorem mem_states_iff : s ∈ p.states ↔ p.containsState s = true := by
  rw [states, Std.ExtTreeMap.mem_keys, Std.ExtTreeMap.mem_iff_contains, containsState]

/-- The states of a table are listed in ascending order, each once. -/
theorem pairwise_keys (rows : Std.ExtTreeMap String Row) : rows.keys.Pairwise (· < ·) := by
  have hordered : rows.keys.Pairwise fun a b => compare a b = .lt := Std.ExtTreeMap.ordered_keys
  exact hordered.imp compareOfLessAndEq_eq_lt.1

theorem get?_eq_some_iff :
    p.get? s x = some t ↔ ∃ row, p.rows[s]? = some row ∧ row[x]? = some t := by
  rw [get?, Option.bind_eq_some_iff]

/-- A state with a transition has a row. -/
theorem containsState_of_get? (h : p.get? s x = some t) : p.containsState s = true := by
  obtain ⟨row, hrow, -⟩ := get?_eq_some_iff.1 h
  exact containsState_iff.2 ⟨row, hrow⟩

/-- A program is empty if it has no state. -/
theorem isEmpty_iff : p.isEmpty = true ↔ ∀ s, p.containsState s = false := by
  rw [isEmpty, Std.ExtTreeMap.isEmpty_iff]
  constructor
  · intro h s
    rw [containsState, h, Std.ExtTreeMap.contains_empty]
  · intro h
    refine Std.ExtTreeMap.ext_getElem? fun {s} => ?_
    rw [Std.ExtTreeMap.getElem?_eq_none_of_contains_eq_false (h s), Std.ExtTreeMap.getElem?_empty]

/-- No transition is counted if every place is free. -/
theorem transitionCount_eq_zero_iff : p.transitionCount = 0 ↔ ∀ s x, p.get? s x = none := by
  have hsum : p.transitionCount = 0 ↔
      ∀ (s : String) (row : Row), p.rows[s]? = some row → row = ∅ := by
    rw [transitionCount, ← List.sum_eq_foldr, List.sum_eq_zero_iff_forall_eq_nat,
      values_eq_map_toList]
    simp only [List.forall_mem_map, Prod.forall, Std.ExtTreeMap.mem_toList_iff_getElem?_eq_some,
      Std.ExtTreeMap.eq_empty_iff_size_eq_zero]
  rw [hsum]
  constructor
  · intro h s x
    rw [Option.eq_none_iff_forall_ne_some]
    intro t ht
    obtain ⟨row, hrow, hx⟩ := get?_eq_some_iff.1 ht
    simp [h s row hrow] at hx
  · intro h s row hrow
    refine Std.ExtTreeMap.ext_getElem? fun {x} => ?_
    have hx := h s x
    rw [get?, hrow, Option.bind_some] at hx
    rw [hx, Std.ExtTreeMap.getElem?_empty]

/-- The entries are the places that hold a transition. -/
theorem mem_entries_iff {e : Entry} :
    e ∈ p.entries ↔ p.get? e.state e.symbol = some e.transition := by
  simp only [entries, List.mem_flatMap, List.mem_map, Prod.exists, get?_eq_some_iff,
    Std.ExtTreeMap.mem_toList_iff_getElem?_eq_some]
  constructor
  · rintro ⟨s, row, hrow, x, t, ht, rfl⟩
    exact ⟨row, hrow, ht⟩
  · rintro ⟨row, hrow, ht⟩
    exact ⟨e.state, row, hrow, e.symbol, e.transition, ht, rfl⟩

/-- Programs that bind the same transitions and have rows for the same states are equal. -/
theorem ext_get? (hget : ∀ s x, p.get? s x = q.get? s x)
    (hstates : ∀ s, p.containsState s = q.containsState s) : p = q := by
  suffices hrows : p.rows = q.rows by
    cases p
    cases q
    exact congrArg Program.mk hrows
  refine Std.ExtTreeMap.ext_getElem? fun {s} => ?_
  have hs := hstates s
  rw [containsState, containsState, Std.ExtTreeMap.contains_eq_isSome_getElem?,
    Std.ExtTreeMap.contains_eq_isSome_getElem?] at hs
  have hx := hget s
  unfold get? at hx
  cases hp : p.rows[s]? with
  | none =>
    rw [hp, Option.isSome_none] at hs
    exact (Option.isSome_eq_false_iff.1 hs.symm |> Option.isNone_iff_eq_none.1).symm
  | some row =>
    obtain ⟨row', hq⟩ := Option.isSome_iff_exists.1 (hs.symm.trans (by rw [hp]; rfl))
    rw [hq]
    simp only [hp, hq, Option.bind_some] at hx
    exact congrArg some (Std.ExtTreeMap.ext_getElem? fun {x} => hx x)

/-! ## Programs of a list of entries -/

theorem ofEntries_concat (es : List Entry) (e : Entry) :
    ofEntries (es ++ [e]) = (ofEntries es).insert e.state e.symbol e.transition := by
  rw [ofEntries, List.foldl_append]
  rfl

/-- Where a list splits that ends in `e`: at its end or before. -/
theorem concat_eq_append_cons {es before after : List Entry} {e a : Entry}
    (h : es ++ [e] = before ++ a :: after) :
    (after = [] ∧ a = e) ∨ ∃ after', after = after' ++ [e] ∧ es = before ++ a :: after' := by
  rcases List.eq_nil_or_concat after with rfl | ⟨after', e', rfl⟩
  · exact .inl ⟨rfl, (List.singleton_inj.1 (List.append_inj' h rfl).2).symm⟩
  · rw [List.concat_eq_append, ← List.cons_append, ← List.append_assoc] at h
    obtain ⟨hes, he⟩ := List.append_inj' h rfl
    exact .inr ⟨after', by rw [List.singleton_inj.1 he, List.concat_eq_append], hes⟩

/-- The last entry in a place counts. -/
theorem get?_ofEntries_eq_some_iff {es : List Entry} :
    (ofEntries es).get? s x = some t ↔
      ∃ before after, es = before ++ ⟨s, x, t⟩ :: after ∧
        ∀ e ∈ after, ¬(e.state = s ∧ e.symbol = x) := by
  induction es using List.reverseRecOn with
  | nil => simp [ofEntries]
  | append_singleton es e ih =>
    rw [ofEntries_concat, get?_insert]
    by_cases place : e.state = s ∧ e.symbol = x
    · rw [if_pos place, Option.some.injEq]
      constructor
      · rintro rfl
        exact ⟨es, [], by rw [← place.1, ← place.2], by simp⟩
      · rintro ⟨before, after, hes, hlast⟩
        obtain ⟨rfl, rfl⟩ | ⟨after, rfl, -⟩ := concat_eq_append_cons hes
        · rfl
        · exact absurd place (hlast e (by simp))
    · rw [if_neg place, ih]
      constructor
      · rintro ⟨before, after, rfl, hlast⟩
        refine ⟨before, after ++ [e], by simp, fun e' he' => ?_⟩
        obtain he' | he' := List.mem_append.1 he'
        · exact hlast e' he'
        · rwa [List.mem_singleton.1 he']
      · rintro ⟨before, after, hes, hlast⟩
        obtain ⟨rfl, rfl⟩ | ⟨after, rfl, rfl⟩ := concat_eq_append_cons hes
        · exact absurd ⟨rfl, rfl⟩ place
        · exact ⟨before, after, rfl, fun e' he' => hlast e' (List.mem_append_left _ he')⟩

/-- A place without an entry holds nothing. -/
theorem get?_ofEntries_eq_none_iff {es : List Entry} :
    (ofEntries es).get? s x = none ↔ ∀ e ∈ es, ¬(e.state = s ∧ e.symbol = x) := by
  induction es using List.reverseRecOn with
  | nil => simp [ofEntries]
  | append_singleton es e ih =>
    rw [ofEntries_concat, get?_insert]
    by_cases place : e.state = s ∧ e.symbol = x
    · rw [if_pos place]
      simpa using Or.inr place
    · rw [if_neg place, ih]
      simp only [List.mem_append, List.mem_singleton, or_imp, forall_and, forall_eq]
      exact ⟨fun h => ⟨h, place⟩, fun h => h.1⟩

/-- Entries in different places are all kept. -/
theorem mem_entries_ofEntries {es : List Entry} {e : Entry}
    (h : es.Pairwise fun a b => ¬(b.state = a.state ∧ b.symbol = a.symbol)) :
    e ∈ (ofEntries es).entries ↔ e ∈ es := by
  rw [mem_entries_iff, get?_ofEntries_eq_some_iff]
  constructor
  · rintro ⟨before, after, rfl, -⟩
    simp
  · intro he
    obtain ⟨before, after, rfl⟩ := List.append_of_mem he
    have hlast := (List.pairwise_append.1 h).2.1
    exact ⟨before, after, rfl, (List.pairwise_cons.1 hlast).1⟩

/-- The states are those of the entries. -/
theorem containsState_ofEntries {es : List Entry} :
    (ofEntries es).containsState s = true ↔ ∃ e ∈ es, e.state = s := by
  induction es using List.reverseRecOn with
  | nil => simp [ofEntries, containsState, empty]
  | append_singleton es e ih =>
    rw [ofEntries_concat, containsState_insert, Bool.or_eq_true, decide_eq_true_eq, ih]
    simp only [List.mem_append, List.mem_singleton, or_and_right, exists_or, exists_eq_left]
    exact or_comm

/-- A program whose states all have transitions is made of any list of its entries, each occurring
as often as one likes and in any order. -/
theorem ofEntries_eq {es : List Entry} (hes : ∀ e, e ∈ es ↔ e ∈ p.entries)
    (hrows : ∀ s, p.containsState s = true → ∃ x t, p.get? s x = some t) : ofEntries es = p := by
  have hmem : ∀ e, e ∈ es ↔ p.get? e.state e.symbol = some e.transition := fun e => by
    rw [hes, mem_entries_iff]
  refine ext_get? (fun s x => ?_) fun s => ?_
  · cases hp : p.get? s x with
    | none =>
      rw [get?_ofEntries_eq_none_iff]
      rintro e he ⟨rfl, rfl⟩
      rw [hmem, hp] at he
      cases he
    | some t =>
      cases ht : (ofEntries es).get? s x with
      | none => exact absurd ⟨rfl, rfl⟩ (get?_ofEntries_eq_none_iff.1 ht _ ((hmem ⟨s, x, t⟩).2 hp))
      | some u =>
        obtain ⟨before, after, heq, -⟩ := get?_ofEntries_eq_some_iff.1 ht
        rw [← (hmem ⟨s, x, u⟩).1 (by simp [heq]), hp]
  · rw [Bool.eq_iff_iff, containsState_ofEntries]
    constructor
    · rintro ⟨e, he, rfl⟩
      exact containsState_of_get? ((hmem e).1 he)
    · intro h
      obtain ⟨x, t, ht⟩ := hrows s h
      exact ⟨⟨s, x, t⟩, (hmem _).2 ht, rfl⟩

end Program

end TapeMachine
