import TapeMachine.Json.Value

/-!
# Reading JSON

`Json.parse?` reads a text that holds one JSON value, with blanks around it and between its
parts, and nothing else. The grammar is taken strictly: no comments, no trailing commas, no
leading zeros, no raw characters below U+0020 in strings.

Every reader takes characters and gives what it read together with the characters that follow.
The readers of nested values count down the calls they may still make; `parse?` allows more calls
than a text of its length can need.
-/

namespace TapeMachine.Json

/-! ## Blanks -/

/-- The characters that may stand between the parts of a value. -/
def isBlank (c : Char) : Bool :=
  c = ' ' || c = '\t' || c = '\n' || c = '\r'

/-- The characters after leading blanks. -/
def skipBlanks (s : List Char) : List Char :=
  s.dropWhile isBlank

/-! ## Strings -/

/-- A character of a string, or half of a surrogate pair named by an escape. -/
inductive TextUnit where
  | char (c : Char)
  | surrogate (n : Nat)

/-- The value of a hexadecimal digit, of either case. -/
def hexValue? (c : Char) : Option Nat :=
  if '0' ≤ c ∧ c ≤ '9' then some (c.toNat - '0'.toNat)
  else if 'a' ≤ c ∧ c ≤ 'f' then some (c.toNat - 'a'.toNat + 10)
  else if 'A' ≤ c ∧ c ≤ 'F' then some (c.toNat - 'A'.toNat + 10)
  else none

/-- The number written by four hexadecimal digits. -/
def hex4? (a b c d : Char) : Option Nat := do
  let a ← hexValue? a
  let b ← hexValue? b
  let c ← hexValue? c
  let d ← hexValue? d
  return ((a * 16 + b) * 16 + c) * 16 + d

/-- What the number in a `\u` escape names. -/
def unitOf (n : Nat) : TextUnit :=
  if 0xd800 ≤ n ∧ n ≤ 0xdfff then .surrogate n else .char (Char.ofNat n)

/-- The character of a short escape, by the letter after the backslash. -/
def shortEscape? (c : Char) : Option Char :=
  if c = '"' then some '"'
  else if c = '\\' then some '\\'
  else if c = '/' then some '/'
  else if c = 'b' then some '\x08'
  else if c = 'f' then some '\x0c'
  else if c = 'n' then some '\n'
  else if c = 'r' then some '\r'
  else if c = 't' then some '\t'
  else none

/-- Reads the rest of a string up to its closing quote; `before` holds what has been read of it,
last unit first. -/
def units? (before : List TextUnit) : List Char → Option (List TextUnit × List Char)
  | [] => none
  | c :: rest =>
    if c = '"' then some (before.reverse, rest)
    else if c = '\\' then
      match rest with
      | [] => none
      | e :: rest =>
        if e = 'u' then
          match rest with
          | h₁ :: h₂ :: h₃ :: h₄ :: rest =>
            match hex4? h₁ h₂ h₃ h₄ with
            | some n => units? (unitOf n :: before) rest
            | none => none
          | _ => none
        else
          match shortEscape? e with
          | some c => units? (.char c :: before) rest
          | none => none
    else if c.toNat < 0x20 then none
    else units? (.char c :: before) rest

/-- The character of a surrogate pair. -/
def joinSurrogates (high low : Nat) : Char :=
  Char.ofNat (0x10000 + (high - 0xd800) * 0x400 + (low - 0xdc00))

/-- The text of units, if every surrogate among them belongs to a pair. -/
def assemble : List TextUnit → Option (List Char)
  | [] => some []
  | .char c :: rest => (assemble rest).map (c :: ·)
  | .surrogate high :: .surrogate low :: rest =>
    if high < 0xdc00 ∧ 0xdc00 ≤ low then
      (assemble rest).map (joinSurrogates high low :: ·)
    else none
  | .surrogate _ :: _ => none

/-- Reads the rest of a string after its opening quote. -/
def string? (s : List Char) : Option (Option (List Char) × List Char) :=
  (units? [] s).map fun (units, rest) => (assemble units, rest)

/-! ## Numbers -/

/-- Reads one digit or more. -/
def digits? (s : List Char) : Option (List Char × List Char) :=
  if s.takeWhile Char.isDigit = [] then none
  else some (s.takeWhile Char.isDigit, s.dropWhile Char.isDigit)

/-- Reads the whole part of a number: a zero, or digits that do not begin with one. -/
def wholePart? (s : List Char) : Option (List Char × List Char) :=
  match s with
  | '0' :: rest => some (['0'], rest)
  | s => digits? s

/-- Reads the part after the point, if there is a point. -/
def fraction? (s : List Char) : Option (List Char × List Char) :=
  match s with
  | '.' :: rest => (digits? rest).map fun (ds, rest) => ('.' :: ds, rest)
  | s => some ([], s)

/-- Reads the exponent, if there is one. -/
def exponent? (s : List Char) : Option (List Char × List Char) :=
  match s with
  | [] => some ([], [])
  | e :: rest =>
    if e = 'e' ∨ e = 'E' then
      match rest with
      | [] => none
      | sign :: rest' =>
        if sign = '+' ∨ sign = '-' then
          (digits? rest').map fun (ds, rest) => (e :: sign :: ds, rest)
        else
          (digits? rest).map fun (ds, rest) => (e :: ds, rest)
    else some ([], e :: rest)

/-- Reads a number without its sign. -/
def unsigned? (s : List Char) : Option (List Char × List Char) := do
  let (whole, s) ← wholePart? s
  let (fraction, s) ← fraction? s
  let (exponent, s) ← exponent? s
  return (whole ++ fraction ++ exponent, s)

/-- Reads a number. -/
def number? (s : List Char) : Option (List Char × List Char) :=
  match s with
  | '-' :: rest => (unsigned? rest).map fun (n, rest) => ('-' :: n, rest)
  | s => unsigned? s

/-! ## Values -/

/-- Reads the fixed word `word`. -/
def word? (word : List Char) (value : Json) (s : List Char) : Option (Json × List Char) :=
  if word.isPrefixOf s then some (value, s.drop word.length) else none

/-- Reads a number, a word or a string: a value that holds no other value. -/
def scalar? (s : List Char) : Option (Json × List Char) :=
  match s with
  | [] => none
  | c :: rest =>
    if c = '"' then (string? rest).map fun (text, rest) => (.string text, rest)
    else if c = 'n' then word? ['n', 'u', 'l', 'l'] .null s
    else if c = 't' then word? ['t', 'r', 'u', 'e'] (.bool true) s
    else if c = 'f' then word? ['f', 'a', 'l', 's', 'e'] (.bool false) s
    else (number? s).map fun (n, rest) => (.number n, rest)

/-- Reads the key of a member and the colon after it. -/
def key? (s : List Char) : Option (Option (List Char) × List Char) :=
  match skipBlanks s with
  | '"' :: rest =>
    match string? rest with
    | some (key, rest) =>
      match skipBlanks rest with
      | ':' :: rest => some (key, rest)
      | _ => none
    | none => none
  | _ => none

mutual

/-- Reads a value, with blanks before it. -/
def value? : Nat → List Char → Option (Json × List Char)
  | 0, _ => none
  | calls + 1, s =>
    match skipBlanks s with
    | '[' :: rest =>
      match skipBlanks rest with
      | ']' :: rest => some (.array [], rest)
      | _ => (items? calls [] rest).map fun (items, rest) => (.array items, rest)
    | '\x7b' :: rest =>
      match skipBlanks rest with
      | '\x7d' :: rest => some (.object [], rest)
      | _ => (members? calls [] rest).map fun (members, rest) => (.object members, rest)
    | s => scalar? s

/-- Reads one item or more of an array, and the closing bracket; `before` holds the items read
so far, last one first. -/
def items? : Nat → List Json → List Char → Option (List Json × List Char)
  | 0, _, _ => none
  | calls + 1, before, s =>
    match value? calls s with
    | none => none
    | some (item, rest) =>
      match skipBlanks rest with
      | ',' :: rest => items? calls (item :: before) rest
      | ']' :: rest => some ((item :: before).reverse, rest)
      | _ => none

/-- Reads one member or more of an object, and the closing brace; `before` holds the members
read so far, last one first. -/
def members? : Nat → List (Option (List Char) × Json) → List Char →
    Option (List (Option (List Char) × Json) × List Char)
  | 0, _, _ => none
  | calls + 1, before, s =>
    match key? s with
    | none => none
    | some (key, rest) =>
      match value? calls rest with
      | none => none
      | some (value, rest) =>
        match skipBlanks rest with
        | ',' :: rest => members? calls ((key, value) :: before) rest
        | '\x7d' :: rest => some (((key, value) :: before).reverse, rest)
        | _ => none

end

/-- The value that a text holds. -/
def parse? (text : String) : Option Json :=
  match value? (2 * text.toList.length + 1) text.toList with
  | some (value, rest) => if skipBlanks rest = [] then some value else none
  | none => none

end TapeMachine.Json
