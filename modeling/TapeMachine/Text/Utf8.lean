/-!
# Text and bytes

Characters have bytes, those of UTF-8. Bytes that spell no text are shown as text all the same:
their characters as they are, and U+FFFD in place of each sequence of bytes that is no character.
Such a sequence goes on for as long as a character could begin with it, and has one byte at least.
-/

namespace TapeMachine.Text

/-- The bytes of characters in UTF-8. -/
def utf8 (s : List Char) : List UInt8 :=
  s.flatMap String.utf8EncodeChar

/-! ## Showing any bytes -/

/-- What is shown in place of bytes that are no character. -/
def replacement : Char := '\ufffd'

/-- The byte is one of those that follow the first of a character. -/
def isTail (b : UInt8) : Bool :=
  0x80 ≤ b && b ≤ 0xbf

/-- A character of three or four bytes can begin with these two. The least and the greatest first
bytes leave some second bytes out: those of numbers that fewer bytes could hold, of surrogates and
of numbers above U+10FFFF. -/
def beginsLong (first second : UInt8) : Bool :=
  isTail second &&
    if first = 0xe0 then 0xa0 ≤ second
    else if first = 0xed then second ≤ 0x9f
    else if first = 0xf0 then 0x90 ≤ second
    else if first = 0xf4 then second ≤ 0x8f
    else 0xe1 ≤ first && first ≤ 0xf3

/-- How many bytes after `first` belong with it to one sequence, where no character begins with
`first` and `rest`. -/
def brokenTail (first : UInt8) : List UInt8 → Nat
  | [] => 0
  | second :: rest =>
    if beginsLong first second then
      if 0xf0 ≤ first ∧ rest.head?.any isTail then 2 else 1
    else 0

/-- Shows bytes of which the first `skip` belong to what has been shown. -/
def showFrom : Nat → List UInt8 → List Char
  | _, [] => []
  | skip + 1, _ :: rest => showFrom skip rest
  | 0, first :: rest =>
    match (first :: rest.take 3).toByteArray.utf8DecodeChar? 0 with
    | some c => c :: showFrom (c.utf8Size - 1) rest
    | none => replacement :: showFrom (brokenTail first rest) rest

/-- Any bytes, shown as text. -/
def shown (bytes : List UInt8) : String :=
  String.ofList (showFrom 0 bytes)

end TapeMachine.Text
