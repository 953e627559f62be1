/-!
# Fields

The texts between the separators of a text. A text without a separator is its own only field, and a
separator at an edge stands beside an empty field.
-/

namespace Phrasebook.Text

def fields (separator : Char) : List Char → List (List Char)
  | [] => [[]]
  | c :: rest =>
    if c = separator then [] :: fields separator rest
    else
      match fields separator rest with
      | [] => [[c]]
      | field :: others => (c :: field) :: others

end Phrasebook.Text
