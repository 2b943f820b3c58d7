import TapeMachine.Machine.Basic
import TapeMachine.Proofs.BareStates

/-!
# Which machines can be made

A machine is made of a configuration and a program if both state names are not empty, there is room
on the tape and no transition is a breach of the rule: it writes the blank or a symbol that the
configuration names (`Config.Admits`) and enters the terminal state or a state of the program
(`Config.Knows`). Otherwise the error is the first flaw (`Machine.FirstFlaw`), where transitions are
looked at in the order of their states and then of the symbols they are for.
`Machine.ofConfig_exact` says that this is all that matters: not the order in which a program was
put together, nor that of the symbols of an alphabet.
-/

namespace TapeMachine

/-! ## The order of the entries -/

/-- In an ordered list the first member with a result is the least one with a result. -/
theorem findSome?_eq_some_iff_of_pairwise {α β : Type} {r : α → α → Prop} {f : α → Option β}
    {l : List α} {b : β} (ordered : l.Pairwise r) (asymm : ∀ a a', r a a' → ¬r a' a) :
    l.findSome? f = some b ↔ ∃ a ∈ l, f a = some b ∧ ∀ a' ∈ l, r a' a → f a' = none := by
  rw [List.findSome?_eq_some_iff]
  constructor
  · rintro ⟨before, a, after, rfl, hfirst, hnone⟩
    refine ⟨a, by simp, hfirst, fun a' ha' hlt => ?_⟩
    have hafter := (List.pairwise_cons.1 (List.pairwise_append.1 ordered).2.1).1
    rcases List.mem_append.1 ha' with ha' | ha'
    · exact hnone a' ha'
    · rcases List.mem_cons.1 ha' with rfl | ha'
      · exact absurd hlt (asymm _ _ hlt)
      · exact absurd hlt (asymm _ _ (hafter a' ha'))
  · rintro ⟨a, ha, hfirst, hnone⟩
    obtain ⟨before, after, rfl⟩ := List.append_of_mem ha
    refine ⟨before, a, after, rfl, hfirst, fun a' ha' => ?_⟩
    exact hnone a' (by simp [ha']) ((List.pairwise_append.1 ordered).2.2 a' ha' a (by simp))

/-- An entry stands before another: for a lesser state, or for the same state and a lesser
symbol. -/
def Entry.Before (a b : Entry) : Prop :=
  a.state < b.state ∨ a.state = b.state ∧ a.symbol < b.symbol

theorem Entry.Before.asymm {a b : Entry} (h : a.Before b) : ¬b.Before a := by
  rintro (hstate | ⟨hstate, hsymbol⟩)
  · rcases h with h | ⟨h, -⟩
    · exact String.lt_asymm h hstate
    · exact String.lt_irrefl _ (h ▸ hstate)
  · rcases h with h | ⟨-, h⟩
    · exact String.lt_irrefl _ (hstate ▸ h)
    · exact Char.lt_asymm h hsymbol

/-- The entries of a program are listed in ascending order. -/
theorem Program.pairwise_entries (p : Program) : p.entries.Pairwise Entry.Before := by
  rw [entries, List.pairwise_flatMap]
  constructor
  · rintro ⟨state, row⟩ -
    rw [List.pairwise_map]
    have ordered : row.toList.Pairwise fun a b => compare a.1 b.1 = .lt :=
      Std.ExtTreeMap.ordered_keys_toList
    exact ordered.imp fun h => .inr ⟨rfl, compareOfLessAndEq_eq_lt.1 h⟩
  · have ordered : p.rows.toList.Pairwise fun a b => compare a.1 b.1 = .lt :=
      Std.ExtTreeMap.ordered_keys_toList
    refine ordered.imp fun {a b} h x hx y hy => ?_
    obtain ⟨_, -, rfl⟩ := List.mem_map.1 hx
    obtain ⟨_, -, rfl⟩ := List.mem_map.1 hy
    exact .inl (compareOfLessAndEq_eq_lt.1 h)

/-- Entries that bind the same transitions make the same program. -/
theorem Program.ofEntries_eq_of_get? {es es' : List Entry}
    (h : ∀ s x, (ofEntries es).get? s x = (ofEntries es').get? s x) :
    ofEntries es = ofEntries es' := by
  have hstates : ∀ {es : List Entry} {s : String},
      (ofEntries es).containsState s = true ↔ (ofEntries es).HasTransition s := fun {es s} =>
    ⟨hasTransition_ofEntries, HasTransition.containsState⟩
  refine ext_get? h fun s => ?_
  rw [Bool.eq_iff_iff, hstates, hstates]
  simp only [HasTransition, h]

/-- Entries in different places can be entered in any order. -/
theorem Program.ofEntries_eq_of_perm {es es' : List Entry} (h : es.Perm es')
    (places : es.Pairwise fun a b => ¬(b.state = a.state ∧ b.symbol = a.symbol)) :
    ofEntries es = ofEntries es' := by
  have places' : es'.Pairwise fun a b => ¬(b.state = a.state ∧ b.symbol = a.symbol) :=
    (h.pairwise_iff fun {a b} hab hba => hab ⟨hba.1.symm, hba.2.symm⟩).1 places
  refine ofEntries_eq (fun e => ?_) fun s => hasTransition_ofEntries
  rw [mem_entries_ofEntries places', h.mem_iff]

/-! ## Breaches of the rule -/

/-- The symbol belongs to the alphabet of the configuration, to which the blank is added. -/
def Config.Admits (c : Config) (y : Char) : Prop :=
  y = ' ' ∨ y ∈ c.alphabet.toList

/-- A transition may enter the state. -/
def Config.Knows (c : Config) (p : Program) (s : String) : Prop :=
  s = c.terminalState ∨ s ∈ p.states

/-- What is wrong with a transition for the state `s` and the symbol `x`. -/
inductive Breach (c : Config) (p : Program) (s : String) (x : Char) (t : Transition) : Error → Prop
  | foreign (write : ¬c.Admits t.write) : Breach c p s x t (.unexpectedSymbol s t.write .written)
  | unknown (write : c.Admits t.write) (next : ¬c.Knows p t.next) :
      Breach c p s x t (.stateNotFound t.next s x)

variable {c : Config} {p : Program} {e : Error}

theorem Config.admits_iff {y : Char} : c.Admits y ↔ y ∈ Alphabet.ofString c.alphabet :=
  Alphabet.mem_ofString.symm

theorem Config.knows_iff {s : String} :
    c.Knows p s ↔ s = c.terminalState ∨ p.containsState s = true := by
  rw [Knows, Program.mem_states_iff]

theorem Entry.violation?_eq_some_iff {a : Entry} :
    a.violation? (.ofString c.alphabet) c.terminalState p.containsState = some e ↔
      Breach c p a.state a.symbol a.transition e := by
  rw [violation?]
  split
  next write =>
    rw [← Config.admits_iff] at write
    constructor
    · rintro ⟨⟩
      exact .foreign write
    · rintro (- | ⟨admitted, -⟩)
      · rfl
      · exact absurd admitted write
  next write =>
    rw [not_not, ← Config.admits_iff] at write
    split
    next known =>
      rw [← Config.knows_iff] at known
      refine iff_of_false nofun ?_
      rintro (foreign | ⟨-, unknown⟩)
      · exact foreign write
      · exact unknown known
    next known =>
      rw [← Config.knows_iff] at known
      constructor
      · rintro ⟨⟩
        exact .unknown write known
      · rintro (foreign | -)
        · exact absurd write foreign
        · rfl

namespace Machine

variable {m : Machine}

/-! ## What is made -/

/-- The machine has what the configuration and the program say. -/
structure Realizes (m : Machine) (c : Config) (p : Program) : Prop where
  alphabet : m.alphabet = .ofString c.alphabet
  startState : m.startState = c.startState
  terminalState : m.terminalState = c.terminalState
  program : m.program = p
  maxTapeLength : m.maxTapeLength = c.maxTapeLength
  maxSteps : m.maxSteps = c.maxSteps

theorem realizes_of_ofConfig (h : ofConfig c p = .ok m) : m.Realizes c p := by
  unfold ofConfig at h
  split at h
  next => cases h
  next =>
    cases h
    exact ⟨rfl, rfl, rfl, rfl, rfl, rfl⟩

/-- A machine can be made exactly if nothing makes it unusable. -/
theorem exists_ofConfig_iff : (∃ m, ofConfig c p = .ok m) ↔
    flaw? (.ofString c.alphabet) c.startState c.terminalState p c.maxTapeLength = none := by
  unfold ofConfig
  split
  next e h => simp [h]
  next h => simp [h]

theorem flaw?_of_ofConfig {e : Error} (h : ofConfig c p = .error e) :
    flaw? (.ofString c.alphabet) c.startState c.terminalState p c.maxTapeLength = some e := by
  unfold ofConfig at h
  split at h
  next hflaw =>
    cases h
    exact hflaw
  next => cases h

theorem ofConfig_eq_error_iff : ofConfig c p = .error e ↔
    flaw? (.ofString c.alphabet) c.startState c.terminalState p c.maxTapeLength = some e := by
  refine ⟨flaw?_of_ofConfig, fun h => ?_⟩
  unfold ofConfig
  split
  next e' h' =>
    rw [h, Option.some.injEq] at h'
    rw [h']
  next h' =>
    rw [h] at h'
    cases h'

/-- The first flaw of a machine. -/
inductive FirstFlaw (c : Config) (p : Program) : Error → Prop
  | noStart (start : c.startState = "") : FirstFlaw c p .startStateEmpty
  | noTerminal (start : c.startState ≠ "") (terminal : c.terminalState = "") :
      FirstFlaw c p .terminalStateEmpty
  | noRoom (start : c.startState ≠ "") (terminal : c.terminalState ≠ "")
      (room : c.maxTapeLength = 0) : FirstFlaw c p (.invalidMaxTapeLength 0)
  | breach {s : String} {x : Char} {t : Transition} {e : Error} (start : c.startState ≠ "")
      (terminal : c.terminalState ≠ "") (room : 0 < c.maxTapeLength)
      (entry : p.get? s x = some t) (breach : Breach c p s x t e)
      (least : ∀ s' x' t', p.get? s' x' = some t' → s' < s ∨ s' = s ∧ x' < x →
        c.Admits t'.write ∧ c.Knows p t'.next) : FirstFlaw c p e

/-- Of the breaches of a program the one of the least entry is reported. -/
theorem violation?_eq_some_iff :
    p.violation? (.ofString c.alphabet) c.terminalState = some e ↔
      ∃ s x t, p.get? s x = some t ∧ Breach c p s x t e ∧
        ∀ s' x' t', p.get? s' x' = some t' → s' < s ∨ s' = s ∧ x' < x →
          c.Admits t'.write ∧ c.Knows p t'.next := by
  rw [Program.violation?,
    findSome?_eq_some_iff_of_pairwise p.pairwise_entries fun _ _ h => h.asymm]
  simp only [Entry.violation?_eq_some_iff, Entry.violation?_eq_none_iff, ← Config.admits_iff,
    ← Config.knows_iff, Program.mem_entries_iff]
  constructor
  · rintro ⟨a, ha, hbreach, hleast⟩
    exact ⟨a.state, a.symbol, a.transition, ha, hbreach, fun s' x' t' ht' hlt =>
      hleast ⟨s', x', t'⟩ ht' hlt⟩
  · rintro ⟨s, x, t, ht, hbreach, hleast⟩
    exact ⟨⟨s, x, t⟩, ht, hbreach, fun a ha hlt => hleast _ _ _ ha hlt⟩

theorem flaw?_eq_some_iff :
    flaw? (.ofString c.alphabet) c.startState c.terminalState p c.maxTapeLength = some e ↔
      FirstFlaw c p e := by
  unfold flaw?
  constructor
  · intro h
    split_ifs at h with start terminal room
    · cases h
      exact .noStart start
    · cases h
      exact .noTerminal start terminal
    · cases h
      exact .noRoom start terminal room
    · obtain ⟨s, x, t, entry, breach, least⟩ := violation?_eq_some_iff.1 h
      exact .breach start terminal (UInt64.pos_iff_ne_zero.2 room) entry breach least
  · intro h
    cases h with
    | noStart start => rw [if_pos start]
    | noTerminal start terminal => rw [if_neg start, if_pos terminal]
    | noRoom start terminal room => rw [if_neg start, if_neg terminal, if_pos room]
    | breach start terminal room entry breach least =>
      rw [if_neg start, if_neg terminal, if_neg (UInt64.pos_iff_ne_zero.1 room)]
      exact violation?_eq_some_iff.2 ⟨_, _, _, entry, breach, least⟩

theorem flaw?_eq_none_iff_get? :
    flaw? (.ofString c.alphabet) c.startState c.terminalState p c.maxTapeLength = none ↔
      c.startState ≠ "" ∧ c.terminalState ≠ "" ∧ 0 < c.maxTapeLength ∧
        ∀ s x t, p.get? s x = some t → c.Admits t.write ∧ c.Knows p t.next := by
  rw [flaw?_eq_none_iff, UInt64.pos_iff_ne_zero]
  simp only [← Config.admits_iff, ← Config.knows_iff, Program.mem_entries_iff]
  have hentries : (∀ a : Entry, p.get? a.state a.symbol = some a.transition →
      c.Admits a.transition.write ∧ c.Knows p a.transition.next) ↔
      ∀ s x t, p.get? s x = some t → c.Admits t.write ∧ c.Knows p t.next :=
    ⟨fun h s x t => h ⟨s, x, t⟩, fun h a => h _ _ _⟩
  rw [hentries]

/-- Configurations with the same symbols make the same machines. -/
theorem ofConfig_eq_of_alphabet {symbols : String}
    (h : Alphabet.ofString symbols = Alphabet.ofString c.alphabet) :
    ofConfig { c with alphabet := symbols } p = ofConfig c p := by
  unfold ofConfig
  dsimp only
  generalize_proofs
  generalize Alphabet.ofString symbols = a at *
  subst h
  rfl

/-- A machine is made exactly if both state names are not empty, there is room on the tape, and
every transition writes a symbol of the alphabet or the blank and enters the terminal state or a
state of the program. It is then the machine of that configuration and that program. Otherwise the
error is the first flaw, of several breaches that of the least state and the least symbol for it. An
alphabet with the same symbols, in another order or repeated, gives the same, and so do entries that
bind the same transitions, in particular those of a program in another order. -/
theorem ofConfig_exact (c : Config) (p : Program) :
    ((∃ m, ofConfig c p = .ok m) ↔
      c.startState ≠ "" ∧ c.terminalState ≠ "" ∧ 0 < c.maxTapeLength ∧
        ∀ s x t, p.get? s x = some t → c.Admits t.write ∧ c.Knows p t.next) ∧
    (∀ m, ofConfig c p = .ok m → m.Realizes c p) ∧
    (∀ e, ofConfig c p = .error e ↔ FirstFlaw c p e) ∧
    (∀ symbols : String, (∀ y, y ≠ ' ' → (y ∈ symbols.toList ↔ y ∈ c.alphabet.toList)) →
      ofConfig { c with alphabet := symbols } p = ofConfig c p) ∧
    (∀ es es' : List Entry,
      (∀ s x, (Program.ofEntries es).get? s x = (Program.ofEntries es').get? s x) →
        ofConfig c (.ofEntries es) = ofConfig c (.ofEntries es')) ∧
    (∀ es es' : List Entry, es.Perm es' →
      es.Pairwise (fun a b => ¬(b.state = a.state ∧ b.symbol = a.symbol)) →
        ofConfig c (.ofEntries es) = ofConfig c (.ofEntries es')) := by
  refine ⟨?_, fun m => realizes_of_ofConfig, fun e => ?_, fun symbols h => ?_, fun es es' h => ?_,
    fun es es' h places => ?_⟩
  · rw [exists_ofConfig_iff, flaw?_eq_none_iff_get?]
  · rw [ofConfig_eq_error_iff, flaw?_eq_some_iff]
  · refine ofConfig_eq_of_alphabet (Std.ExtTreeSet.ext_mem fun y => ?_)
    rw [Alphabet.mem_ofString, Alphabet.mem_ofString]
    by_cases hblank : y = blank
    · simp [hblank]
    · rw [h y hblank]
  · rw [Program.ofEntries_eq_of_get? h]
  · rw [Program.ofEntries_eq_of_perm h places]

end Machine

end TapeMachine
