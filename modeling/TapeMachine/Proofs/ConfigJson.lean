import TapeMachine.Config.Json
import TapeMachine.Proofs.ProgramJson

/-!
# Configurations written as JSON are read back

A configuration is read from an object over the defaults: every setting that the object gives takes
the place of its default, and the order of the settings is of no account
(`Config.ofMembers?_members`). The value that a setting is written as gives the setting back. For
names this is the round trip of strings; a limit comes back because the reader takes digits for the
number they write, whichever below `2 ^ 64` that is (`Json.uint64?_nat`).

`Config.read_over_defaults` says this for the objects that give some settings of a configuration, in
whatever order, and of the text a configuration is written as.
-/

namespace TapeMachine

/-! ## Limits -/

namespace Text

theorem digitsValue?_toDigits (n : Nat) : digitsValue? (Nat.toDigits 10 n) = some n := by
  have hdigits : Nat.toDigits 10 n ≠ [] ∧ (Nat.toDigits 10 n).all Char.isDigit = true :=
    ⟨Nat.toDigits_ne_nil, List.all_eq_true.2 fun c hc =>
      Nat.isDigit_of_mem_toDigits (by decide) (by decide) hc⟩
  rw [digitsValue?, if_pos hdigits]
  exact congrArg some (Nat.ofDigitChars_toDigits (by decide) (by decide))

theorem dropPlus_of_isDigit {c : Char} {s : List Char} (h : c.isDigit = true) :
    dropPlus (c :: s) = c :: s := by
  unfold dropPlus
  split
  next heq =>
    rw [(List.cons.inj heq).1] at h
    exact absurd h (by decide)
  next => rfl

end Text

/-- A limit is read back from the number it is written as. -/
theorem Json.uint64?_nat (n : UInt64) : (Json.nat n.toNat).uint64? = some n := by
  obtain ⟨c, s, hs, hdigit⟩ := exists_toDigits_eq_cons n.toNat
  have hvalue : Text.digitsValue? (c :: s) = some n.toNat := hs ▸ Text.digitsValue?_toDigits n.toNat
  rw [nat, hs, uint64?, if_pos hdigit, Text.uint64?, Text.dropPlus_of_isDigit hdigit, hvalue]
  simp [n.toNat_lt]

namespace Config

variable {c d : Config} {s : Setting} {settings given : List Setting}

/-- The configuration `d` with these settings taken from `c`. -/
def replaced (d c : Config) (settings : List Setting) : Config where
  alphabet := if .alphabet ∈ settings then c.alphabet else d.alphabet
  startState := if .startState ∈ settings then c.startState else d.startState
  terminalState := if .terminalState ∈ settings then c.terminalState else d.terminalState
  maxTapeLength := if .maxTapeLength ∈ settings then c.maxTapeLength else d.maxTapeLength
  maxSteps := if .maxSteps ∈ settings then c.maxSteps else d.maxSteps

theorem replaced_nil : replaced d c [] = d := by
  simp [replaced]

theorem replaced_cons : replaced (replaced d c [s]) c settings = replaced d c (s :: settings) := by
  have hfield : ∀ {α : Type} (x y : α) (t : Setting),
      (if t ∈ settings then x else if t ∈ [s] then x else y) =
        if t ∈ s :: settings then x else y := fun x y t => by
    by_cases ht : t ∈ settings <;> simp [ht]
  simp only [replaced, hfield]

theorem replaced_of_all (h : ∀ s, s ∈ settings) : replaced d c settings = c := by
  simp [replaced, h]

theorem Setting.ofKey?_key (s : Setting) : ofKey? s.key = some s := by
  cases s <;> decide

theorem Setting.mem_all (s : Setting) : s ∈ all := by
  cases s <;> decide

theorem Setting.legible_value (c : Config) (s : Setting) : (s.value c).Legible := by
  cases s
  · exact .string _
  · exact .string _
  · exact .string _
  · exact .nat _
  · exact .nat _

/-- The value that a setting is written as gives the setting. -/
theorem Setting.update?_value (d c : Config) (s : Setting) :
    s.update? d (s.value c) = some (replaced d c [s]) := by
  cases s <;> simp [update?, value, replaced, Json.text, Json.text?, Json.uint64?_nat]

/-- The members that give some settings are taken over, each in the place of what was there. -/
theorem ofMembers?_members (distinct : settings.Nodup) (fresh : ∀ s ∈ settings, s ∉ given) :
    d.ofMembers? given (settings.map fun s => (some s.key.toList, s.value c)) =
      some (d.replaced c settings) := by
  induction settings generalizing d given with
  | nil => rw [replaced_nil]; rfl
  | cons s settings ih =>
    obtain ⟨hs, hdistinct⟩ := List.nodup_cons.1 distinct
    obtain ⟨hgiven, hfresh⟩ := List.forall_mem_cons.1 fresh
    have hnext : ∀ t ∈ settings, t ∉ s :: given := fun t ht hmem => by
      obtain rfl | hmem := List.mem_cons.1 hmem
      · exact hs ht
      · exact hfresh t ht hmem
    rw [List.map_cons, ofMembers?, String.ofList_toList, Setting.ofKey?_key]
    simp only [if_neg hgiven, Setting.update?_value]
    rw [ih hdistinct hnext, replaced_cons]

theorem legible_members (c : Config) (settings : List Setting) : (c.members settings).Legible := by
  rw [members, Json.record, List.map_map]
  exact Json.legible_object_map fun s _ => s.legible_value c

theorem ofJson?_members (c : Config) (distinct : settings.Nodup) :
    ofJson? (c.members settings) = some (replaced {} c settings) := by
  rw [members, Json.record, List.map_map]
  exact ofMembers?_members distinct fun _ _ => List.not_mem_nil

/-- A configuration is read over the defaults. A text that holds an object with some settings of a
configuration, in any order, gives the default configuration with these settings in the place of its
own. So does the text that such an object is written as; and if it has all settings, as the text has
that the configuration itself is written as, the configuration is read back. -/
theorem read_over_defaults (c : Config) (distinct : settings.Nodup) :
    (∀ text, Json.parse? text = some (c.members settings) →
      parse text = .ok (replaced {} c settings)) ∧
    parse (c.members settings).render = .ok (replaced {} c settings) ∧
    ((∀ s, s ∈ settings) → parse (c.members settings).render = .ok c) ∧
    parse c.json = .ok c := by
  have hread : ∀ {settings : List Setting}, settings.Nodup → ∀ text,
      Json.parse? text = some (c.members settings) →
        parse text = .ok (replaced {} c settings) := fun hdistinct text htext => by
    rw [parse, htext, Option.bind_some, ofJson?_members c hdistinct]
  have hwritten := hread distinct _ (Json.parse?_render (legible_members c settings))
  refine ⟨hread distinct, hwritten, fun hall => ?_, ?_⟩
  · rw [hwritten, replaced_of_all hall]
  · have hdistinct : Setting.all.Nodup := by decide
    rw [hread hdistinct c.json (Json.parse?_render (legible_members c Setting.all)),
      replaced_of_all Setting.mem_all]

/-- A configuration whose alphabet has to be escaped, and that allows as many steps as can be
written. -/
def farReaching : Config where
  alphabet := "\"\\\x01😀"
  startState := "Q7"
  maxSteps := 18446744073709551615

/-- The settings given take the place of the defaults, and the start state keeps its default. -/
theorem read_over_defaults_farReaching :
    [Setting.maxSteps, .alphabet].Nodup ∧
      (farReaching.members [.maxSteps, .alphabet]).render =
        "\x7b\"max_steps\":18446744073709551615,\"alphabet\":\"\\\"\\\\\\u0001😀\"\x7d" ∧
      parse (farReaching.members [.maxSteps, .alphabet]).render =
        .ok { farReaching with startState := "Q1" } ∧
      parse farReaching.json = .ok farReaching := by
  have distinct : [Setting.maxSteps, .alphabet].Nodup := by decide
  obtain ⟨-, hsome, -, hall⟩ := read_over_defaults farReaching distinct
  exact ⟨distinct, by decide +kernel, hsome, hall⟩

end Config

end TapeMachine
