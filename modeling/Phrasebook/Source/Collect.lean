import Phrasebook.Rule
import Phrasebook.Syntax.Module

/-!
# What a module holds for its readers

One pass over the syntax tree of a module finds the sites where text for a reader stands, the keys
that are looked up already, and the function body that a hook could be called in. A node that a
rule accepts is replaced as a whole and not searched further, so that sites do not overlap.
-/

namespace Phrasebook

open Syntax

/-- The name of the function that looks a key up. -/
def lookupName : String :=
  "t"

/-- The name of the hook that gives the lookup function. -/
def hookName : String :=
  "useT"

/-- How a lookup is put in the place of a site. -/
inductive Slot where
  /-- The text between two tags becomes a container. -/
  | child
  /-- A quoted attribute becomes a container. -/
  | attribute
  /-- An expression becomes a call. -/
  | expression
deriving DecidableEq, Repr

/-- A range of the source with the text that stands there. -/
structure Site where
  start : Nat
  stop : Nat
  slot : Slot
  found : Match
deriving DecidableEq, Repr

/-- A key that is looked up already, and where it is written. -/
structure KeyReference where
  key : String
  offset : Nat
deriving DecidableEq, Repr

/-- A function body: the offset behind its opening brace and the offset of its first statement. -/
structure HookSite where
  bodyOpen : Nat
  firstStatement? : Option Nat
deriving DecidableEq, Repr

/-- What a pass over a tree has found, in the order of the visit. -/
structure Collection where
  sites : List Site := []
  references : List KeyReference := []
  /-- The first function body that a hook could be called in. -/
  hookSite? : Option HookSite := none
  /-- Whether the lookup function is bound to the result of the hook somewhere. -/
  bindsHook : Bool := false
  /-- Whether a text that is looked at begins or ends within a character: there is no such text. -/
  cutsCharacter : Bool := false
deriving DecidableEq, Repr

namespace Collection

/-- What one pass and then another have found. -/
def append (first second : Collection) : Collection where
  sites := first.sites ++ second.sites
  references := first.references ++ second.references
  hookSite? := first.hookSite?.or second.hookSite?
  bindsHook := first.bindsHook || second.bindsHook
  cutsCharacter := first.cutsCharacter || second.cutsCharacter

instance : Append Collection := ⟨append⟩

def ofSite (site : Site) : Collection :=
  { sites := [site] }

/-- The parts of a template literal, from its chunks and its interpolations. -/
def templateParts? : List (Option String) → List Node → Option (List TemplatePart)
  | [], _ => some []
  | none :: _, _ => none
  | some chunk :: chunks, holes =>
    let written := if chunk.isEmpty then [] else [TemplatePart.literal chunk]
    match holes with
    | [] => (templateParts? chunks []).map (written ++ ·)
    | hole :: others =>
      let interpolated :=
        match hole.withoutParens.kind with
        | .name name => TemplatePart.identifier name
        | _ => TemplatePart.other
      (templateParts? chunks others).map (written ++ interpolated :: ·)

/-- The site of a template literal that is all a container holds. -/
def templateSite? (excluded : List String) : List Node → Option Site
  | [inner] =>
    match inner.withoutParens with
    | .mk (.template chunks) span holes =>
      (templateParts? chunks holes).bind fun parts ↦
        (Rule.evaluate excluded (.template parts)).map fun found ↦
          ⟨span.start, span.stop, .expression, found⟩
    | _ => none
  | _ => none

def shapeOf (node : Node) : OperandShape :=
  match node.kind with
  | .name _ => .identifier
  | .member => .member
  | .number => .number
  | _ => .other

/-- The test of a conditional, if it is an operation with two operands. -/
def equalityTest? (text : List Char) (test : Node) : Option EqualityTest :=
  match test.withoutParens with
  | .mk (.operation symbol) _ [left, _] =>
    some
      { comparison :=
          if symbol == "==" then .loose else if symbol == "===" then .strict else .other
        shape := shapeOf left
        source := String.ofList (Text.slice left.start left.stop text) }
  | _ => none

def branchText? (branch : Node) : Option String :=
  match branch.withoutParens.kind with
  | .string value => value
  | _ => none

def conditionalSite? (text : List Char) (excluded : List String) (span : Span) :
    List Node → Option Site
  | [test, yes, no] =>
    let candidate :=
      Candidate.conditional (equalityTest? text test) (branchText? yes) (branchText? no)
    (Rule.evaluate excluded candidate).map fun found ↦
      ⟨span.start, span.stop, .expression, found⟩
  | _ => none

/-- The site of the text between two tags, without the blanks at its edges in the source. -/
def textSite? (text : List Char) (excluded : List String) (span : Span) (value : String) :
    Option Site :=
  (Rule.evaluate excluded (.text value)).map fun found ↦
    let raw := Text.slice span.start span.stop text
    let lead := Text.size raw - Text.size (Text.trimStartChars raw)
    let trail := Text.size raw - Text.size (Text.trimEndChars raw)
    ⟨span.start + lead, span.stop - trail, .child, found⟩

/-- Whether a range begins or ends within a character of a text. -/
def isCut (text : List Char) (span : Span) : Bool :=
  (Text.slice? span.start span.stop text).isNone

/-- Whether the left side of the comparison that a conditional tests is cut. It is looked at before
any rule is asked. -/
def cutsOperand (text : List Char) : List Node → Bool
  | test :: _ =>
    match test.withoutParens with
    | .mk (.operation _) _ [left, _] => isCut text left.span
    | _ => false
  | [] => false

def ofQuoted (excluded : List String) (name value : String) (span : Span) : Collection :=
  match Rule.evaluate excluded (.attribute name value) with
  | some found => ofSite ⟨span.start, span.stop, .attribute, found⟩
  | none => {}

/-- The key that a lookup names, if its first argument is a string. -/
def ofLookup (parts : List Node) : Collection :=
  match Node.argumentsOf parts with
  | .mk (.string (some key)) span _ :: _ => { references := [⟨key, span.start⟩] }
  | _ => {}

def isLookup : List Node → Bool
  | callee :: _ => callee.isNamed lookupName
  | [] => false

def bodyOf? (parts : List Node) : Option Node :=
  parts.find? fun part ↦ part.kind == .block

/-- The body of a function as a place for a hook. -/
def ofBody (parts : List Node) : Collection :=
  { hookSite? := (bodyOf? parts).map fun body ↦
      ⟨body.start + 1, body.parts.head?.map (·.start)⟩ }

/-- What a variable offers: the body of an arrow function, or the lookup function itself. -/
def ofDeclarator : List Node → Collection
  | [target, value] =>
    match value with
    | .mk .arrow _ parts => ofBody parts
    | .mk .call _ (callee :: _) =>
      { bindsHook := target.isNamed lookupName && callee.isNamed hookName }
    | _ => {}
  | _ => {}

def ofDefault : List Node → Collection
  | [.mk .function _ parts] => ofBody parts
  | _ => {}

mutual

def ofNode (text : List Char) (excluded : List String) : Node → Collection
  | .mk kind span parts =>
    match kind with
    | .text value =>
      match textSite? text excluded span value with
      | some site => { sites := [site], cutsCharacter := isCut text span }
      | none => {}
    | .attribute name =>
      if excluded.contains name then {}
      else
        match parts with
        | [.mk (.string (some value)) inner _] => ofQuoted excluded name value inner
        | _ => ofNodes text excluded parts
    | .container =>
      match templateSite? excluded parts with
      | some site => ofSite site
      | none => ofNodes text excluded parts
    | .conditional =>
      { cutsCharacter := cutsOperand text parts } ++
        match conditionalSite? text excluded span parts with
        | some site => ofSite site
        | none => ofNodes text excluded parts
    | .call => if isLookup parts then ofLookup parts else ofNodes text excluded parts
    | .functionDeclaration => ofBody parts ++ ofNodes text excluded parts
    | .method (some "render") => ofBody parts ++ ofNodes text excluded parts
    | .exportDefault => ofDefault parts ++ ofNodes text excluded parts
    | .declarator => ofDeclarator parts ++ ofNodes text excluded parts
    | _ => ofNodes text excluded parts

def ofNodes (text : List Char) (excluded : List String) : List Node → Collection
  | [] => {}
  | node :: rest => ofNode text excluded node ++ ofNodes text excluded rest

end

/-- What a module holds, given the names of the attributes that are excluded. -/
def ofModule (excluded : List String) (module : Syntax.Module) : Collection :=
  ofNodes module.text excluded module.items

end Collection

end Phrasebook
