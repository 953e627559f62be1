import Phrasebook.Text.Offset

/-!
# Edits of a source

A pass over a syntax tree never changes it. It describes its result as edits of the source text:
ranges of bytes and the texts that take their place. Applying them keeps every byte outside of the
ranges. Edits are applied from left to right; one that reaches back into an edit before it, or
beyond the source, is dropped.
-/

namespace Phrasebook

/-- The text that takes the place of the bytes from `start` to `stop`. An insertion has an empty
range. -/
structure Edit where
  start : Nat
  stop : Nat
  text : String
deriving DecidableEq, Repr

namespace Edit

def insertAt (offset : Nat) (text : String) : Edit :=
  ⟨offset, offset, text⟩

def delete (start stop : Nat) : Edit :=
  ⟨start, stop, ""⟩

/-- The order in which edits are applied: by where they start, then by where they stop. -/
def precedes (first second : Edit) : Bool :=
  first.start < second.start || (first.start == second.start && first.stop ≤ second.stop)

/-- Whether an edit is dropped when the source is edited up to an offset. -/
def isDropped (length cursor : Nat) (edit : Edit) : Bool :=
  edit.start < cursor || length < edit.stop

/-- The source from an offset on with ordered edits applied; nothing when an edit would cut a
character in two. -/
def applyFrom? (source : List Char) : Nat → List Edit → Option (List Char)
  | cursor, [] => Text.slice? cursor (Text.size source) source
  | cursor, edit :: rest =>
    if edit.isDropped (Text.size source) cursor then applyFrom? source cursor rest
    else
      (Text.slice? cursor edit.start source).bind fun kept ↦
        (applyFrom? source edit.stop rest).map fun others ↦ kept ++ edit.text.toList ++ others

/-- The source with edits applied. Edits with the same range keep their order. -/
def applyAll? (source : String) (edits : List Edit) : Option String :=
  (applyFrom? source.toList 0 (edits.mergeSort precedes)).map String.ofList

end Edit

end Phrasebook
