import TapeMachine.Text.CodePointRange

/-!
# Characters that are ignored by default

The characters with the property Default_Ignorable_Code_Point: those that show nothing at all
where a display does not know what they ask for. Most are format characters, variation
selectors or unassigned; the fillers U+115F, U+1160, U+3164 and U+FFA0 are letters.
-/

namespace TapeMachine.Text

/-- The ranges of the property Default_Ignorable_Code_Point in Unicode 17.0. -/
def defaultIgnorableRanges : List CodePointRange :=
  [(0xad, 0xad), (0x34f, 0x34f), (0x61c, 0x61c), (0x115f, 0x1160), (0x17b4, 0x17b5),
   (0x180b, 0x180f), (0x200b, 0x200f), (0x202a, 0x202e), (0x2060, 0x206f), (0x3164, 0x3164),
   (0xfe00, 0xfe0f), (0xfeff, 0xfeff), (0xffa0, 0xffa0), (0xfff0, 0xfff8), (0x1bca0, 0x1bca3),
   (0x1d173, 0x1d17a), (0xe0000, 0xe0fff)]

/-- The character shows nothing by default. -/
def isDefaultIgnorable (c : Char) : Bool :=
  inRanges defaultIgnorableRanges c

end TapeMachine.Text
