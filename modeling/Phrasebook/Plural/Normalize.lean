import Phrasebook.Plural.Basic

/-!
# Plural expressions that were translated along

A service that translates texts translates the words of a plural expression along with its texts:
`{compte, pluriel, un {…} autre {…}}`. Here the argument, the kind and the selectors are mapped
back to the words that a lookup knows; the bodies of the branches stay as they were translated.
The suffix `(s)`, which the branches make needless, is removed as well.
-/

namespace Phrasebook.Plural

def countWords : List String :=
  ["count", "compte", "cuenta", "anzahl", "conteggio", "contagem", "zahl"]

def kindWords : List String :=
  ["plural", "pluriel", "plurale"]

def oneWords : List String :=
  ["one", "eins", "un", "une", "uno", "una", "ein", "eine", "um"]

def otherWords : List String :=
  ["other", "andere", "anderer", "autre", "autres", "otros", "otro", "otra", "sonstiges",
    "altri", "altro", "outro", "outros"]

/-- Whether a word is in a list, whatever the case of its letters. Every listed word is written in
ASCII without a `k`, so that only the case of ASCII letters matters. -/
def isAmong (words : List String) (word : String) : Bool :=
  words.contains (String.ofList (word.toList.map Char.toLower))

/-- A selector, with known words for `one` and `other` mapped back. -/
def canonicalSelector (selector : String) : String :=
  if isAmong oneWords selector then "one"
  else if isAmong otherWords selector then "other"
  else selector

/-- An expression with its known words mapped back. -/
def canonical (plural : Plural) : Plural where
  argument := if isAmong countWords plural.argument then "count" else plural.argument
  kind := "plural"
  branches := plural.branches.map fun branch ↦
    { branch with selector := canonicalSelector branch.selector }

/-- The text after a word that a text begins with, whatever the case of its letters. -/
def dropWord? : List Char → List Char → Option (List Char)
  | [], text => some text
  | _ :: _, [] => none
  | w :: word, c :: rest => if c.toLower = w then dropWord? word rest else none

def beginsInWord : List Char → Bool
  | [] => false
  | c :: _ => Text.isWordCharacter c

/-- Whether one of the words for a plural stands in a text as a whole word; `inWord` says whether
the character before the text belongs to a word. -/
def hasMarkerChars : Bool → List Char → Bool
  | _, [] => false
  | inWord, c :: rest =>
    (!inWord && kindWords.any fun word ↦
      match dropWord? word.toList (c :: rest) with
      | some after => !beginsInWord after
      | none => false) ||
    hasMarkerChars (Text.isWordCharacter c) rest

/-- Whether one of the words for a plural stands in a text as a whole word. -/
def hasMarker (text : String) : Bool :=
  hasMarkerChars false text.toList

def dropBlank : List Char → List Char
  | [] => []
  | c :: rest => if Text.isBlank c then rest else c :: rest

/-- The text after the suffix `(s)`, if a text begins with it. A blank may stand on either side of
the letter, which may be a long s. -/
def dropSuffix? : List Char → Option (List Char)
  | '(' :: rest =>
    match dropBlank rest with
    | s :: rest =>
      if s == 's' || s == 'S' || s.toNat == 0x17F then
        match dropBlank rest with
        | ')' :: rest => some rest
        | _ => none
      else none
    | [] => none
  | _ => none

/-- The text after the word `item` with the suffix `(s)`, if a text begins with them. -/
def dropItem? (text : List Char) : Option (List Char) :=
  (dropWord? "item".toList text).bind fun rest ↦ dropSuffix? (rest.dropWhile Text.isBlank)

/-- A text without its suffixes `(s)`, except after the word `item`. -/
def stripSuffixes : Nat → Bool → List Char → List Char
  | 0, _, text => text
  | _ + 1, _, [] => []
  | room + 1, inWord, c :: rest =>
    match if inWord then none else dropItem? (c :: rest) with
    | some after =>
      (c :: rest).take ((c :: rest).length - after.length) ++ stripSuffixes room false after
    | none =>
      match dropSuffix? (c :: rest) with
      | some after => stripSuffixes room false after
      | none => c :: stripSuffixes room (Text.isWordCharacter c) rest

/-- A text with its first expression in canonical words, if its kind is a known word. -/
def restoreWords (text : String) : String :=
  match find? text with
  | some located =>
    if isAmong kindWords located.plural.kind then
      located.before ++ located.plural.canonical.render ++ located.after
    else text
  | none => text

/-- A translated template in the words that a lookup knows. A text without a word for a plural is
left as it is. -/
def normalize (text : String) : String :=
  if hasMarker text then
    let restored := (restoreWords text).toList
    String.ofList (stripSuffixes restored.length false restored)
  else text

end Phrasebook.Plural
