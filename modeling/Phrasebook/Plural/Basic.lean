import Phrasebook.Text.Line

/-!
# Plural expressions

A template may hold one plural expression, which chooses a text by a number:

```
{count, plural, one {1 item} other {# items}}
```

An expression names its argument and its kind and lists branches, each a selector and a body in
braces. Bodies may hold braces of their own as long as they are balanced. `find?` looks for the
first expression in a text and `render` writes one in its only canonical form, with one space
between its pieces.
-/

namespace Phrasebook

/-- A branch of a plural expression. -/
structure Plural.Branch where
  selector : String
  body : String
deriving DecidableEq, Repr

/-- A plural expression. -/
structure Plural where
  argument : String
  kind : String
  branches : List Plural.Branch
deriving DecidableEq, Repr

namespace Plural

def Branch.render (branch : Branch) : String :=
  branch.selector ++ " \x7b" ++ branch.body ++ "\x7d"

/-- The canonical form of an expression. -/
def render (plural : Plural) : String :=
  "\x7b" ++ plural.argument ++ ", " ++ plural.kind ++ "," ++
    String.join (plural.branches.map fun branch ↦ " " ++ branch.render) ++ "\x7d"

/-- The expression that chooses between a text for one and a text for all other numbers. -/
def oneOther (argument one other : String) : Plural where
  argument := argument
  kind := "plural"
  branches := [⟨"one", one⟩, ⟨"other", other⟩]

def body? (plural : Plural) (selector : String) : Option String :=
  (plural.branches.find? fun branch ↦ branch.selector == selector).map (·.body)

/-- The text up to the brace that closes `depth + 1` open braces, and the text after it. -/
def closeBrace? : Nat → List Char → Option (List Char × List Char)
  | _, [] => none
  | depth, '{' :: rest =>
    (closeBrace? (depth + 1) rest).map fun (inside, after) ↦ ('{' :: inside, after)
  | 0, '}' :: rest => some ([], rest)
  | depth + 1, '}' :: rest =>
    (closeBrace? depth rest).map fun (inside, after) ↦ ('}' :: inside, after)
  | depth, c :: rest => (closeBrace? depth rest).map fun (inside, after) ↦ (c :: inside, after)

theorem length_after_closeBrace {depth : Nat} {text inside after : List Char}
    (h : closeBrace? depth text = some (inside, after)) : after.length < text.length := by
  fun_induction closeBrace? depth text generalizing inside after with
  | case1 => simp at h
  | case2 depth rest ih =>
    obtain ⟨⟨i, a⟩, hi, he⟩ := Option.map_eq_some_iff.1 h
    obtain ⟨-, rfl⟩ := Prod.mk.inj he
    exact Nat.lt_succ_of_lt (ih hi)
  | case3 rest =>
    simp only [Option.some.injEq, Prod.mk.injEq] at h
    simp [← h.2]
  | case4 depth rest ih =>
    obtain ⟨⟨i, a⟩, hi, he⟩ := Option.map_eq_some_iff.1 h
    obtain ⟨-, rfl⟩ := Prod.mk.inj he
    exact Nat.lt_succ_of_lt (ih hi)
  | case5 depth c rest _ _ _ ih =>
    obtain ⟨⟨i, a⟩, hi, he⟩ := Option.map_eq_some_iff.1 h
    obtain ⟨-, rfl⟩ := Prod.mk.inj he
    exact Nat.lt_succ_of_lt (ih hi)

/-- A word: letters, digits and low lines. -/
def isWord (text : List Char) : Bool :=
  !text.isEmpty && text.all fun c ↦ Text.isAlphanumeric c || c == '_'

def endsSelector (c : Char) : Bool :=
  c == '{' || Text.isBlank c

theorem length_dropWhile_le (p : Char → Bool) (text : List Char) :
    (text.dropWhile p).length ≤ text.length :=
  (List.dropWhile_sublist p).length_le

/-- The branches that make up a text; nothing when it is not made up of branches. -/
def branches? (text : List Char) : Option (List Branch) :=
  let trimmed := text.dropWhile Text.isBlank
  if trimmed.isEmpty then some []
  else
    let selector := trimmed.takeWhile fun c ↦ !endsSelector c
    match ha : (trimmed.dropWhile fun c ↦ !endsSelector c).dropWhile Text.isBlank with
    | '{' :: opened =>
      if selector.isEmpty || selector.contains '}' then none
      else
        match hc : closeBrace? 0 opened with
        | some (body, rest) =>
          have : rest.length < text.length := by
            have h₁ := length_after_closeBrace hc
            have h₂ := length_dropWhile_le Text.isBlank (trimmed.dropWhile fun c ↦ !endsSelector c)
            have h₃ := length_dropWhile_le (fun c ↦ !endsSelector c) trimmed
            have h₄ : trimmed.length ≤ text.length := length_dropWhile_le Text.isBlank text
            rw [ha] at h₂
            simp only [List.length_cons] at h₂
            omega
          (branches? rest).map (⟨String.ofList selector, String.ofList body⟩ :: ·)
        | none => none
    | _ => none
termination_by text.length

def splitComma? (text : List Char) : Option (List Char × List Char) :=
  match text.dropWhile (· != ',') with
  | _ :: rest => some (text.takeWhile (· != ','), rest)
  | [] => none

/-- The expression whose text between the outer braces is given. -/
def ofBody? (body : List Char) : Option Plural :=
  (splitComma? body).bind fun (argument, rest) ↦
    (splitComma? rest).bind fun (kind, rest) ↦
      let argument := Text.trimChars argument
      let kind := Text.trimChars kind
      if isWord argument && isWord kind then
        match branches? rest with
        | some (first :: others) =>
          some ⟨String.ofList argument, String.ofList kind, first :: others⟩
        | _ => none
      else none

/-- An expression with the text around it. -/
structure Located where
  before : String
  plural : Plural
  after : String
deriving DecidableEq, Repr

/-- The first expression in a text, on lists of characters; see `find?`. -/
def findChars? : List Char → Option (List Char × Plural × List Char)
  | [] => none
  | c :: rest =>
    let here :=
      if c = '{' then
        (closeBrace? 0 rest).bind fun (body, after) ↦
          (ofBody? body).map fun plural ↦ ([], plural, after)
      else none
    here.or ((findChars? rest).map fun (before, found) ↦ (c :: before, found))

/-- The first expression in a text, with the text before and after it. -/
def find? (text : String) : Option Located :=
  (findChars? text.toList).map fun (before, plural, after) ↦
    ⟨String.ofList before, plural, String.ofList after⟩

end Plural

end Phrasebook
