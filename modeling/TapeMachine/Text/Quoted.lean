import TapeMachine.Text.DefaultIgnorable
import TapeMachine.Text.GraphemeExtender
import TapeMachine.Text.Unprintable

/-!
# Quoted text

Names and symbols are shown between quotes in messages: a text between `"`, a symbol between
`'`. Inside the quotes NUL, tab, carriage return, line feed, the backslash and the closing
quote have a short escape. Any other character that would not be seen as itself
(`isObscure`), because it has no printed form, shows nothing or attaches to the one before it,
is shown by its code point in hexadecimal.
-/

namespace TapeMachine.Text

/-- The escape of a character by its code point: `\u`, then the lower-case hexadecimal digits
between braces. -/
def codePointEscape (c : Char) : List Char :=
  '\\' :: 'u' :: '\x7b' :: (Nat.toDigits 16 c.toNat ++ ['\x7d'])

/-- The character is one of the sound marks of halfwidth katakana, U+FF9E and U+FF9F. They
extend a grapheme, but take a place of their own. -/
def isHalfwidthSoundMark (c : Char) : Bool :=
  c = '\uff9e' || c = '\uff9f'

/-- The character would not be seen as itself inside quotes: it has no printed form, shows
nothing, or attaches to the one before it. -/
def isObscure (c : Char) : Bool :=
  isUnprintable c || isDefaultIgnorable c || (isGraphemeExtender c && !isHalfwidthSoundMark c)

/-- How a character is shown inside a text closed by the quote `mark`. -/
def escaped (mark c : Char) : List Char :=
  if c = '\x00' then ['\\', '0']
  else if c = '\t' then ['\\', 't']
  else if c = '\r' then ['\\', 'r']
  else if c = '\n' then ['\\', 'n']
  else if c = '\\' ∨ c = mark then ['\\', c]
  else if isObscure c then codePointEscape c
  else [c]

/-- The characters `s` between quotes `mark`. -/
def quotedBy (mark : Char) (s : List Char) : String :=
  String.ofList (mark :: (s.flatMap (escaped mark) ++ [mark]))

/-- A text between double quotes. -/
def quoted (s : String) : String :=
  quotedBy '"' s.toList

/-- A symbol between single quotes. -/
def quotedSymbol (c : Char) : String :=
  quotedBy '\x27' [c]

/-- A list of texts, each quoted, between brackets and separated by a comma and a space. -/
def quotedList (names : List String) : String :=
  "[" ++ ", ".intercalate (names.map quoted) ++ "]"

end TapeMachine.Text
