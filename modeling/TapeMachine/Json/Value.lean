/-!
# JSON values

A value as it stands in a JSON text. Objects keep their members in order and keep repeated keys.
Numbers keep their spelling. An escape in a JSON string can name half of a surrogate pair
without the other half; such a string is not a text, and its value holds no text.
-/

namespace TapeMachine

/-- A JSON value. -/
inductive Json where
  | null
  | bool (b : Bool)
  /-- A number as it is spelled. -/
  | number (spelling : List Char)
  /-- A string; `none` if it holds half of a surrogate pair. -/
  | string (text : Option (List Char))
  | array (items : List Json)
  | object (members : List (Option (List Char) × Json))
  deriving Inhabited

namespace Json

/-- A string value. -/
def text (s : String) : Json :=
  string (some s.toList)

/-- A whole number. -/
def nat (n : Nat) : Json :=
  number (Nat.toDigits 10 n)

/-- An object, from its keys and values in order. -/
def record (members : List (String × Json)) : Json :=
  object (members.map fun (key, value) => (some key.toList, value))

/-- The text of a string value. -/
def text? : Json → Option String
  | string (some s) => some (String.ofList s)
  | _ => none

end Json

end TapeMachine
