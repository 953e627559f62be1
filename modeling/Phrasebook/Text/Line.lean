import Phrasebook.Text.Letter

/-!
# Lines and edges of a text

Removing the blanks at the edges of a text, cutting a text into its lines, and the form in which
the text between two markup tags is stored: every line without the blanks at its edges, blank
lines left out, and the lines joined by one space.
-/

namespace Phrasebook.Text

def trimStartChars (text : List Char) : List Char :=
  text.dropWhile isBlank

def trimEndChars (text : List Char) : List Char :=
  (text.reverse.dropWhile isBlank).reverse

def trimChars (text : List Char) : List Char :=
  trimEndChars (trimStartChars text)

def trim (text : String) : String :=
  String.ofList (trimChars text.toList)

def isBlankText (text : String) : Bool :=
  text.toList.all isBlank

def containsAlphabetic (text : String) : Bool :=
  text.toList.any isAlphabetic

/-- The lines of a text, each without its line feed. A line feed at the very end opens no further
line. A carriage return before a line feed stays with its line, as a blank at its edge. -/
def lines : List Char → List (List Char)
  | [] => []
  | c :: rest =>
    if c = '\n' then [] :: lines rest
    else
      match lines rest with
      | [] => [[c]]
      | line :: others => (c :: line) :: others

def joinWithSpace : List (List Char) → List Char
  | [] => []
  | [line] => line
  | line :: next :: others => line ++ ' ' :: joinWithSpace (next :: others)

/-- Markup text on lists of characters; see `normalizeMarkupText`. -/
def normalizeMarkupChars (text : List Char) : List Char :=
  joinWithSpace (((lines text).map trimChars).filter fun line ↦ !line.isEmpty)

/-- Markup text in the form in which it is stored: each line is trimmed, blank lines are dropped
and the lines that remain are joined by one space. -/
def normalizeMarkupText (text : String) : String :=
  String.ofList (normalizeMarkupChars text.toList)

end Phrasebook.Text
