/-!
# Byte offsets

Positions in a source text are offsets in bytes of its UTF-8 form. The functions here cut a list
of characters at such an offset; a cut that would fall inside a character has no result.
-/

namespace Phrasebook.Text

def size : List Char → Nat
  | [] => 0
  | c :: rest => c.utf8Size + size rest

/-- The text before and the text after an offset, if the offset falls between two characters. -/
def splitAt? : Nat → List Char → Option (List Char × List Char)
  | 0, text => some ([], text)
  | _ + 1, [] => none
  | offset + 1, c :: rest =>
    if c.utf8Size ≤ offset + 1 then
      (splitAt? (offset + 1 - c.utf8Size) rest).map fun (before, after) ↦ (c :: before, after)
    else none

/-- The text between two offsets, if both fall between characters and are in order. -/
def slice? (start stop : Nat) (text : List Char) : Option (List Char) :=
  if start ≤ stop then
    (splitAt? start text).bind fun (_, after) ↦ (splitAt? (stop - start) after).map (·.1)
  else none

/-- The text between two offsets; empty when they do not delimit a text. -/
def slice (start stop : Nat) (text : List Char) : List Char :=
  (slice? start stop text).getD []

/-- The number of line feeds that begin before an offset. -/
def lineFeedsBefore : Nat → List Char → Nat
  | 0, _ => 0
  | _ + 1, [] => 0
  | offset + 1, c :: rest =>
    (if c = '\n' then 1 else 0) + lineFeedsBefore (offset + 1 - c.utf8Size) rest

/-- The line, counted from one, on which an offset lies. An offset beyond the end lies on the
last line. -/
def lineOfOffset (text : String) (offset : Nat) : Nat :=
  lineFeedsBefore offset text.toList + 1

end Phrasebook.Text
