import TapeMachine.Json.Value

/-!
# Writing JSON

`Json.render` writes a value without blanks. In strings only the double quote, the backslash and
the characters below U+0020 are escaped; five of these have a short escape, the others are
written by their code point in four lower-case hexadecimal digits.
-/

namespace TapeMachine.Json

/-- The lower-case hexadecimal digit of a number below sixteen. -/
def hexDigit (n : Nat) : Char :=
  (Nat.toDigits 16 n).headD '0'

/-- How a character is written inside a string. -/
def escape (c : Char) : List Char :=
  if c = '"' then ['\\', '"']
  else if c = '\\' then ['\\', '\\']
  else if c = '\x08' then ['\\', 'b']
  else if c = '\t' then ['\\', 't']
  else if c = '\n' then ['\\', 'n']
  else if c = '\x0c' then ['\\', 'f']
  else if c = '\r' then ['\\', 'r']
  else if c.toNat < 0x20 then
    ['\\', 'u', '0', '0', hexDigit (c.toNat / 16), hexDigit (c.toNat % 16)]
  else [c]

/-- A string with its quotes. What is not a text is written as half of a surrogate pair. -/
def renderString : Option (List Char) → List Char
  | some s => '"' :: (s.flatMap escape ++ ['"'])
  | none => ['"', '\\', 'u', 'd', '8', '0', '0', '"']

mutual

/-- The characters of a value, without blanks. -/
def chars : Json → List Char
  | null => ['n', 'u', 'l', 'l']
  | bool true => ['t', 'r', 'u', 'e']
  | bool false => ['f', 'a', 'l', 's', 'e']
  | number spelling => spelling
  | string text => renderString text
  | array [] => ['[', ']']
  | array (item :: items) => '[' :: (chars item ++ restOfItems items)
  | object [] => ['\x7b', '\x7d']
  | object ((key, value) :: members) =>
    '\x7b' :: (renderString key ++ ':' :: (chars value ++ restOfMembers members))

/-- The items of an array after the first, and the closing bracket. -/
def restOfItems : List Json → List Char
  | [] => [']']
  | item :: items => ',' :: (chars item ++ restOfItems items)

/-- The members of an object after the first, and the closing brace. -/
def restOfMembers : List (Option (List Char) × Json) → List Char
  | [] => ['\x7d']
  | (key, value) :: members =>
    ',' :: (renderString key ++ ':' :: (chars value ++ restOfMembers members))

end

/-- A value as a text. -/
def render (j : Json) : String :=
  String.ofList j.chars

end TapeMachine.Json
