import Mathlib.Data.Finset.Card
import TapeMachine.Proofs.InferredAlphabet

/-!
# What a program binds

A program is built by binding transitions, one after the other. Whatever was bound before, a place
holds what was bound to it last (`Program.get?_ofEntries`), and binding gives back what the place
held (`Program.exchangeAll_eq`). A program shows nothing else of how it was built: its entries are
the places that are bound, in ascending order, the counts are those of the places and states that
something was bound to, and programs that bind the same are equal. `Program.canonical_map` puts this
together.
-/

namespace TapeMachine

/-- The entries in the place of a state and a symbol, in order. -/
def inPlace (es : List Entry) (s : String) (x : Char) : List Entry :=
  es.filter fun e => e.state = s ∧ e.symbol = x

/-- The transition of the last entry in a place. -/
def lastBound (es : List Entry) (s : String) (x : Char) : Option Transition :=
  (inPlace es s x).getLast?.map Entry.transition

theorem lastBound_concat (es : List Entry) (e : Entry) (s : String) (x : Char) :
    lastBound (es ++ [e]) s x =
      if e.state = s ∧ e.symbol = x then some e.transition else lastBound es s x := by
  unfold lastBound inPlace
  rw [List.filter_append]
  by_cases place : e.state = s ∧ e.symbol = x
  · simp [place]
  · simp [place]

namespace Program

variable {es : List Entry} {s : String} {x : Char}

/-! ## Looking up -/

/-- A place holds what was bound to it last. -/
theorem get?_ofEntries (es : List Entry) (s : String) (x : Char) :
    (ofEntries es).get? s x = lastBound es s x := by
  induction es using List.reverseRecOn with
  | nil => exact get?_empty s x
  | append_singleton es e ih => rw [ofEntries_concat, get?_insert, lastBound_concat, ih]

/-- Binds the transitions of entries one after the other. Gives what each of them replaced, in
order, and the program in the end. -/
def exchangeAll (p : Program) : List Entry → List (Option Transition) × Program
  | [] => ([], p)
  | e :: es =>
    let (replaced, q) := p.exchange e.state e.symbol e.transition
    let (rest, r) := exchangeAll q es
    (replaced :: rest, r)

theorem exchangeAll_concat (p : Program) (es : List Entry) (e : Entry) :
    p.exchangeAll (es ++ [e]) =
      ((p.exchangeAll es).1 ++ [(p.exchangeAll es).2.get? e.state e.symbol],
        (p.exchangeAll es).2.add e) := by
  induction es generalizing p with
  | nil => rfl
  | cons first es ih => simp [exchangeAll, exchange, ih]

/-- Binding one after the other makes the program of the entries, and each time gives what was bound
last in the place. -/
theorem exchangeAll_eq (es : List Entry) :
    empty.exchangeAll es =
      (es.zipIdx.map fun (e, i) => lastBound (es.take i) e.state e.symbol, ofEntries es) := by
  induction es using List.reverseRecOn with
  | nil => rfl
  | append_singleton es e ih =>
    have hbefore : (es.zipIdx.map fun (a, i) => lastBound ((es ++ [e]).take i) a.state a.symbol) =
        es.zipIdx.map fun (a, i) => lastBound (es.take i) a.state a.symbol := by
      refine List.map_congr_left fun (a, i) hmem => ?_
      have hlt : i < es.length := by
        have := List.snd_lt_of_mem_zipIdx hmem
        omega
      simp only [List.take_append_of_le_length hlt.le]
    rw [exchangeAll_concat, ih, get?_ofEntries, List.zipIdx_append, List.map_append, hbefore]
    simp [ofEntries_concat, add]

/-! ## Counting -/

/-- A program has as many transitions as entries. -/
theorem length_entries (p : Program) : p.entries.length = p.transitionCount := by
  rw [transitionCount, ← List.sum_eq_foldr, values_eq_map_toList, List.map_map, entries,
    List.length_flatMap]
  refine congrArg List.sum (List.map_congr_left fun _ _ => ?_)
  rw [List.length_map, Std.ExtTreeMap.length_toList]
  rfl

/-- Every place occurs in one entry at most. -/
theorem nodup_places (p : Program) : (p.entries.map fun e => (e.state, e.symbol)).Nodup := by
  refine List.pairwise_map.2 (p.pairwise_entries.imp fun {a b} h heq => ?_)
  obtain ⟨hstate, hsymbol⟩ := Prod.mk.inj heq
  rcases h with h | ⟨-, h⟩
  · exact String.lt_irrefl _ (hstate ▸ h)
  · exact Char.lt_irrefl _ (hsymbol ▸ h)

/-- The transitions are counted by the places that something was bound to. -/
theorem transitionCount_ofEntries (es : List Entry) :
    (ofEntries es).transitionCount = (es.map fun e => (e.state, e.symbol)).toFinset.card := by
  rw [← length_entries, ← List.length_map (f := fun e : Entry => (e.state, e.symbol)),
    ← List.toFinset_card_of_nodup (nodup_places _)]
  congr 1
  ext ⟨s, x⟩
  simp only [List.mem_toFinset, List.mem_map, Prod.mk.injEq, mem_entries_iff]
  have hnone : (ofEntries es).get? s x = none ↔ _ := get?_ofEntries_eq_none_iff
  constructor
  · rintro ⟨e, he, rfl, rfl⟩
    by_contra hno
    rw [hnone.2 fun e' he' hplace => hno ⟨e', he', hplace⟩] at he
    cases he
  · rintro ⟨e, he, hplace⟩
    obtain ⟨t, ht⟩ := Option.ne_none_iff_exists'.1 fun h => hnone.1 h e he hplace
    exact ⟨⟨s, x, t⟩, ht, rfl, rfl⟩

/-- The states are counted by those that something was bound to. -/
theorem stateCount_ofEntries (es : List Entry) :
    (ofEntries es).stateCount = (es.map Entry.state).toFinset.card := by
  have hnodup : (ofEntries es).states.Nodup :=
    (pairwise_keys (ofEntries es).rows).imp fun h => String.ne_of_lt h
  have hcount : (ofEntries es).stateCount = (ofEntries es).states.length :=
    Std.ExtTreeMap.length_keys.symm
  rw [hcount, ← List.toFinset_card_of_nodup hnodup]
  congr 1
  ext s
  rw [List.mem_toFinset, List.mem_toFinset, mem_states_iff, containsState_ofEntries, List.mem_map]

/-! ## Equality -/

/-- Programs of entries are equal if they bind the same. -/
theorem ofEntries_eq_iff {es es' : List Entry} :
    ofEntries es = ofEntries es' ↔ ∀ s x, (ofEntries es).get? s x = (ofEntries es').get? s x :=
  ⟨fun h s x => by rw [h], ofEntries_eq_of_get?⟩

/-- A program is a finite map in canonical form. However many transitions are bound, one after the
other from the empty program, each time the transition that was bound last in the place is given
back, and in the end a place holds the transition bound last. The entries are the places that hold
one, each once and in ascending order; the counts are those of the places and of the states that
something was bound to; the symbols are those that occur in the entries, without the blank. Such
programs are equal exactly if they bind the same, so in what order different places were bound is of
no account. -/
theorem canonical_map (es : List Entry) :
    let replaced := (empty.exchangeAll es).1
    let p := (empty.exchangeAll es).2
    p = ofEntries es ∧
    replaced = es.zipIdx.map (fun (e, i) => lastBound (es.take i) e.state e.symbol) ∧
    (∀ s x, p.get? s x = lastBound es s x) ∧
    p.entries.Pairwise Entry.Before ∧
    (∀ s x t, ⟨s, x, t⟩ ∈ p.entries ↔ p.get? s x = some t) ∧
    p.transitionCount = (es.map fun e => (e.state, e.symbol)).toFinset.card ∧
    p.stateCount = (es.map Entry.state).toFinset.card ∧
    (∀ y, y ∈ p.symbols ↔ y ≠ blank ∧ ∃ e ∈ p.entries, y = e.symbol ∨ y = e.transition.write) ∧
    (∀ es', p = ofEntries es' ↔ ∀ s x, p.get? s x = (ofEntries es').get? s x) ∧
    ∀ es', (∀ s x, inPlace es' s x = inPlace es s x) → p = ofEntries es' := by
  intro replaced p
  have hreplaced : replaced = _ := congrArg Prod.fst (exchangeAll_eq es)
  have hp : p = ofEntries es := congrArg Prod.snd (exchangeAll_eq es)
  clear_value replaced p
  subst hreplaced hp
  refine ⟨rfl, rfl, get?_ofEntries es, pairwise_entries _, fun s x t => mem_entries_iff,
    transitionCount_ofEntries es, stateCount_ofEntries es, fun y => mem_symbols_iff_mem_entries,
    fun es' => ofEntries_eq_iff, fun es' h => ofEntries_eq_of_get? fun s x => ?_⟩
  rw [get?_ofEntries, get?_ofEntries, lastBound, lastBound, h s x]

/-- A place is bound twice, and another in between. -/
def rebinding : List Entry :=
  [⟨"Q1", '1', ⟨"Q0", 'a', .stay⟩⟩, ⟨"Q1", '+', ⟨"Q0", '1', .left⟩⟩,
   ⟨"Q1", '1', ⟨"Q0", 'b', .stay⟩⟩]

/-- The other place can as well be bound first. -/
theorem canonical_map_rebinding :
    let other := [⟨"Q1", '+', ⟨"Q0", '1', .left⟩⟩, ⟨"Q1", '1', ⟨"Q0", 'a', .stay⟩⟩,
      ⟨"Q1", '1', ⟨"Q0", 'b', .stay⟩⟩]
    (∀ s x, inPlace other s x = inPlace rebinding s x) ∧
      (empty.exchangeAll rebinding).1 = [none, none, some ⟨"Q0", 'a', .stay⟩] ∧
      (empty.exchangeAll rebinding).2 = ofEntries other ∧
      (empty.exchangeAll rebinding).2.transitionCount = 2 := by
  intro other
  have hplaces : ∀ s x, inPlace other s x = inPlace rebinding s x := fun s x => by
    by_cases hone : "Q1" = s ∧ '1' = x
    · obtain ⟨rfl, rfl⟩ := hone
      rfl
    · simp only [inPlace, other, rebinding, List.filter_cons, hone, decide_false]
      rfl
  obtain ⟨-, hreplaced, -, -, -, hcount, -, -, -, horder⟩ := canonical_map rebinding
  exact ⟨hplaces, hreplaced, horder other hplaces, hcount⟩

end Program

end TapeMachine
