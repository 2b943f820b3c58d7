import TapeMachine.Cli.Session
import TapeMachine.Proofs.Construction
import TapeMachine.Proofs.RunSpec

/-!
# The inferred alphabet

If a configuration names no symbols, the alphabet is taken from the program: the symbols that its
transitions read or write (`Config.inferring`). All of an alphabet that matters to whether a machine
can be made are the symbols that the program writes (`Machine.flaw?_eq_none_of_writes`,
`Machine.exists_write_of_flaw?`). So with the inferred alphabet no machine is refused for a symbol.

A machine may be given more symbols, for which its program has no transitions (`Machine.Widens`). It
then does the same in every configuration, except that such a symbol under the carriage is no longer
foreign: it is one without a transition (`Machine.Widens.action_eq`).
-/

namespace TapeMachine

/-! ## Symbols of a program -/

/-- The symbols of a program are those that occur in its entries, without the blank. -/
theorem Program.mem_symbols_iff_mem_entries {p : Program} {y : Char} :
    y ∈ p.symbols ↔ y ≠ blank ∧ ∃ e ∈ p.entries, y = e.symbol ∨ y = e.transition.write := by
  rw [symbols, Std.ExtTreeSet.mem_erase, ne_eq, Std.LawfulEqCmp.compare_eq_iff_eq,
    eq_comm (a := blank), Std.ExtTreeSet.mem_ofList, List.contains_iff_mem, List.mem_flatMap]
  simp only [List.mem_cons, List.not_mem_nil, or_false, ne_eq]

/-- A symbol of a program, the blank aside, is one that a transition reads or writes. -/
theorem Program.mem_symbols_iff {p : Program} {y : Char} :
    y ∈ p.symbols ↔ y ≠ blank ∧
      ∃ s x t, p.get? s x = some t ∧ (y = x ∨ y = t.write) := by
  rw [mem_symbols_iff_mem_entries]
  refine and_congr_right fun _ => ⟨?_, ?_⟩
  · rintro ⟨e, he, hy⟩
    exact ⟨_, _, _, mem_entries_iff.1 he, hy⟩
  · rintro ⟨s, x, t, h, hy⟩
    exact ⟨⟨s, x, t⟩, mem_entries_iff.2 h, hy⟩

/-- The configuration with the symbols of a program for its alphabet. -/
def Config.inferring (c : Config) (p : Program) : Config :=
  { c with alphabet := p.symbols.text }

theorem Program.mem_inferred_iff {p : Program} {y : Char} :
    y ∈ Alphabet.ofString p.symbols.text ↔ y = blank ∨ y ∈ p.symbols := by
  rw [Alphabet.mem_ofString, Alphabet.text, String.toList_ofList, Std.ExtTreeSet.mem_toList]

/-- The inferred alphabet has all symbols of the transitions. -/
theorem Program.mem_inferred_of_get? {p : Program} {s : String} {x : Char} {t : Transition}
    (h : p.get? s x = some t) :
    x ∈ Alphabet.ofString p.symbols.text ∧ t.write ∈ Alphabet.ofString p.symbols.text := by
  have hmem : ∀ y, y = x ∨ y = t.write → y ∈ Alphabet.ofString p.symbols.text := fun y hy => by
    rw [mem_inferred_iff, mem_symbols_iff]
    by_cases hblank : y = blank
    · exact .inl hblank
    · exact .inr ⟨hblank, s, x, t, h, hy⟩
  exact ⟨hmem x (.inl rfl), hmem t.write (.inr rfl)⟩

/-! ## Errors and a wider alphabet -/

/-- The error as a machine with these symbols reports it: a foreign symbol under the carriage that
is one of them is a symbol without a transition. -/
def Error.within (e : Error) (symbols : Alphabet) : Error :=
  match e with
  | .unexpectedSymbol state symbol .read =>
    if symbol ∈ symbols then .transitionNotFound state symbol else e
  | e => e

/-- What a machine does that has these symbols as well. -/
def Action.within (a : Action) (symbols : Alphabet) : Action :=
  match a with
  | .fail e => .fail (e.within symbols)
  | a => a

namespace Machine

variable {m m' : Machine} {x : Configuration} {c : Config} {p : Program}

/-! ## Which machines can be made -/

/-- The alphabet of a machine need only have the symbols that its program writes. -/
theorem flaw?_eq_none_of_writes {a b : Alphabet} {startState terminalState : String}
    {maxTapeLength : UInt64} (h : flaw? a startState terminalState p maxTapeLength = none)
    (writes : ∀ s x t, p.get? s x = some t → t.write ∈ b) :
    flaw? b startState terminalState p maxTapeLength = none := by
  rw [flaw?_eq_none_iff] at h ⊢
  obtain ⟨hstart, hterminal, hroom, hentries⟩ := h
  exact ⟨hstart, hterminal, hroom, fun e he =>
    ⟨writes _ _ _ (Program.mem_entries_iff.1 he), (hentries e he).2⟩⟩

/-- A symbol is the flaw of a machine only if its program writes one that the alphabet lacks. -/
theorem exists_write_of_flaw? {a : Alphabet} {startState terminalState : String}
    {maxTapeLength : UInt64} {s : String} {y : Char} {o : SymbolOrigin}
    (h : flaw? a startState terminalState p maxTapeLength = some (.unexpectedSymbol s y o)) :
    ∃ s x t, p.get? s x = some t ∧ t.write ∉ a := by
  have hbreach : p.violation? a terminalState = some (.unexpectedSymbol s y o) := by
    unfold flaw? at h
    split_ifs at h
    · cases h
    · cases h
    · cases h
    · exact h
  obtain ⟨e, he, hentry⟩ := List.exists_of_findSome?_eq_some hbreach
  unfold Entry.violation? at hentry
  split_ifs at hentry with hwrite
  · cases hentry
  · exact ⟨_, _, _, Program.mem_entries_iff.1 he, hwrite⟩

/-! ## Machines with more symbols -/

/-- The machine `m'` is `m` with more symbols, for which the program has no transitions. -/
structure Widens (m m' : Machine) : Prop where
  alphabet : ∀ y ∈ m.alphabet, y ∈ m'.alphabet
  reads : ∀ s y t, m.program.get? s y = some t → y ∈ m.alphabet
  startState : m'.startState = m.startState
  terminalState : m'.terminalState = m.terminalState
  program : m'.program = m.program
  maxTapeLength : m'.maxTapeLength = m.maxTapeLength
  maxSteps : m'.maxSteps = m.maxSteps

namespace Widens

variable (h : m.Widens m')

include h

/-- In every configuration it does the same, up to the report of a symbol that only it has. -/
theorem action_eq (x : Configuration) : m'.action x = (m.action x).within m'.alphabet := by
  have hdecides : Decides m x (m.action x) := decides_action
  have running' : x.state ≠ m.terminalState → x.state ≠ m'.terminalState := by
    rw [h.terminalState]
    exact id
  have rule' : m'.program.get? x.state x.read = m.program.get? x.state x.read := by rw [h.program]
  rw [action_eq_iff]
  generalize m.action x = a at hdecides ⊢
  cases hdecides with
  | halts terminal => exact .halts (terminal.trans h.terminalState.symm)
  | foreign running symbol =>
    rw [Action.within, Error.within]
    split_ifs with hmem
    · have missing : m.program.get? x.state x.read = none := by
        rw [Option.eq_none_iff_forall_ne_some]
        exact fun t ht => symbol (h.reads _ _ t ht)
      exact .missing (running' running) hmem (rule'.trans missing)
    · exact .foreign (running' running) hmem
  | missing running symbol rule =>
    exact .missing (running' running) (h.alphabet _ symbol) (rule'.trans rule)
  | loops running symbol rule loop =>
    exact .loops (running' running) (h.alphabet _ symbol) (rule'.trans rule) loop
  | leaves running symbol rule progress move =>
    exact .leaves (running' running) (h.alphabet _ symbol) (rule'.trans rule) progress move
  | applies running symbol rule progress move =>
    exact .applies (running' running) (h.alphabet _ symbol) (rule'.trans rule) progress move

theorem reached_eq (y : Configuration) :
    m'.reached y = (m.reached y).mapError (·.within m'.alphabet) := by
  unfold reached limit?
  rw [h.maxTapeLength, h.maxSteps]
  split_ifs <;> rfl

theorem step_eq (x : Configuration) : (m'.step x).after = (m.step x).after ∧
    (m'.step x).result = (m.step x).result.mapError (·.within m'.alphabet) := by
  have haction := h.action_eq x
  cases ha : m.action x with
  | halt =>
    rw [ha] at haction
    rw [step_of_halt ha, step_of_halt haction]
    exact ⟨rfl, rfl⟩
  | fail e =>
    rw [ha] at haction
    rw [step_of_fail ha, step_of_fail haction]
    exact ⟨rfl, rfl⟩
  | apply t cell =>
    rw [ha] at haction
    rw [step_of_apply ha, step_of_apply haction]
    exact ⟨rfl, h.reached_eq _⟩

/-- The runs of both machines go through the same configurations. -/
theorem after_eq (x : Configuration) (n : Nat) : m'.after x n = m.after x n :=
  (after_lockstep rfl (fun y _ heq => heq ▸ (h.step_eq y).1.symm) n).symm

theorem start_eq (carriage : Int64) (tape : Tape) :
    m'.start carriage tape = m.start carriage tape := by
  rw [start, start, h.startState]

end Widens

/-- A machine with the inferred alphabet is widened by one with any alphabet that includes it. -/
theorem Realizes.widens {b : String} (h : m.Realizes (c.inferring p) p)
    (h' : m'.Realizes { c with alphabet := b } p) (includes : ∀ y ∈ p.symbols, y ∈ b.toList) :
    m.Widens m' where
  alphabet y hy := by
    rw [h.alphabet, Config.inferring, Program.mem_inferred_iff] at hy
    rw [h'.alphabet, Alphabet.mem_ofString]
    exact hy.imp_right (includes y)
  reads s y t ht := by
    rw [h.program] at ht
    rw [h.alphabet]
    exact (Program.mem_inferred_of_get? ht).1
  startState := h'.startState.trans h.startState.symm
  terminalState := h'.terminalState.trans h.terminalState.symm
  program := h'.program.trans h.program.symm
  maxTapeLength := h'.maxTapeLength.trans h.maxTapeLength.symm
  maxSteps := h'.maxSteps.trans h.maxSteps.symm

/-- The inferred alphabet is neutral. It is what a session uses if the configuration names no
symbols. With it no machine is refused for a symbol, and one is made if one is made with any other
alphabet. With an alphabet that includes it a machine is made too; it goes through the same
configurations on every tape, and its steps report the same, except that a foreign symbol which is
in the wider alphabet is reported as one without a transition. -/
theorem inferred_alphabet_neutral (c : Config) (p : Program) :
    (c.alphabet = "" → ∀ j, ((Cli.withAlphabet c p).run j).1 = .ok (c.inferring p)) ∧
    (∀ s y o, ofConfig (c.inferring p) p ≠ .error (.unexpectedSymbol s y o)) ∧
    (∀ b m, ofConfig { c with alphabet := b } p = .ok m →
      ∃ m, ofConfig (c.inferring p) p = .ok m) ∧
    (∀ b m, (∀ y ∈ p.symbols, y ∈ b.toList) → ofConfig (c.inferring p) p = .ok m →
      ∃ m', ofConfig { c with alphabet := b } p = .ok m' ∧ ∀ carriage tape n,
        let x := m.after (m.start carriage tape) n
        let x' := m'.after (m'.start carriage tape) n
        x' = x ∧
          (m'.step x').result = (m.step x).result.mapError (·.within (.ofString b))) := by
  refine ⟨fun hempty j => ?_, fun s y o h => ?_, fun b m h => ?_, fun b m includes h => ?_⟩
  · unfold Cli.withAlphabet
    rw [if_pos hempty]
    rfl
  · obtain ⟨s, x, t, ht, hwrite⟩ := exists_write_of_flaw? (flaw?_of_ofConfig h)
    exact hwrite (Program.mem_inferred_of_get? ht).2
  · have hsound := exists_ofConfig_iff.1 ⟨m, h⟩
    exact exists_ofConfig_iff.2 (flaw?_eq_none_of_writes hsound fun s x t ht =>
      (Program.mem_inferred_of_get? ht).2)
  · have hsound := exists_ofConfig_iff.1 ⟨m, h⟩
    have hwrites : ∀ s x t, p.get? s x = some t → t.write ∈ Alphabet.ofString b := by
      intro s x t ht
      have hmem := Program.mem_inferred_iff.1 (Program.mem_inferred_of_get? ht).2
      exact Alphabet.mem_ofString.2 (hmem.imp_right (includes _))
    have hmade : ∃ m', ofConfig { c with alphabet := b } p = .ok m' :=
      exists_ofConfig_iff.2 (flaw?_eq_none_of_writes hsound hwrites)
    obtain ⟨m', h'⟩ := hmade
    have hm' := realizes_of_ofConfig h'
    have hwidens := (realizes_of_ofConfig h).widens hm' includes
    refine ⟨m', h', fun carriage tape n => ?_⟩
    intro x x'
    have hx : x' = x := (hwidens.after_eq _ n).trans (by rw [hwidens.start_eq])
    have hresult := (hwidens.step_eq x).2
    rw [hm'.alphabet] at hresult
    exact ⟨hx, by rw [hx, hresult]⟩

end Machine

end TapeMachine
