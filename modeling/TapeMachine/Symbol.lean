import Std.Data.ExtTreeSet

/-!
# Symbols

A cell of the tape holds one character. A cell that was never written reads as the blank,
which is the space. Where a space would be hard to see, in the fields of a state table and in
a tape given as text, the blank is written `_`.
-/

namespace TapeMachine

/-- What a cell reads as before anything is written to it. -/
def blank : Char := ' '

/-- How the blank is written in fields and in tape text. -/
def blankMark : Char := '_'

/-- The symbol that a written character stands for. -/
def symbolOfMark (c : Char) : Char :=
  if c = blankMark then blank else c

/-- The character that a symbol is written as. -/
def markOfSymbol (c : Char) : Char :=
  if c = blank then blankMark else c

/-- A set of symbols. -/
abbrev Alphabet := Std.ExtTreeSet Char

/-- The symbols in a text, together with the blank. -/
def Alphabet.ofString (s : String) : Alphabet :=
  (Std.ExtTreeSet.ofList s.toList).insert blank

/-- The symbols of an alphabet as a text, in ascending order. -/
def Alphabet.text (a : Alphabet) : String :=
  String.ofList a.toList

/-- An alphabet made from a text holds the text's characters and the blank. -/
theorem Alphabet.mem_ofString {s : String} {c : Char} :
    c ∈ Alphabet.ofString s ↔ c = blank ∨ c ∈ s.toList := by
  rw [eq_comm (a := c)]
  simp [Alphabet.ofString]

end TapeMachine
