/-!
# Text for a terminal

A line is made of spans, each with a style of its own. Written without colours a line is the texts
of its spans and nothing else. Written with colours a span with a style stands between the sequence
that starts the style and the sequence that ends every style. A span whose text ends styles itself
takes its own style up again after that.
-/

namespace Phrasebook.Terminal

/-- A colour of the text. -/
inductive Color where
  | red
  | green
  | yellow
  | blue
  | cyan
deriving DecidableEq, Repr

def Color.parameter : Color → Nat
  | red => 31
  | green => 32
  | yellow => 33
  | blue => 34
  | cyan => 36

/-- How a text looks. -/
structure Style where
  bold : Bool := false
  dimmed : Bool := false
  color? : Option Color := none
deriving DecidableEq, Repr, Inhabited

/-- The parameters that select a style; none for the usual look. -/
def Style.parameters (style : Style) : List Nat :=
  (if style.bold then [1] else []) ++ (if style.dimmed then [2] else []) ++
    (style.color?.map Color.parameter).toList

/-- A text with a style. -/
structure Span where
  text : String
  style : Style := {}
deriving DecidableEq, Repr, Inhabited

abbrev Line :=
  List Span

namespace Span

def plain (text : String) : Span :=
  ⟨text, {}⟩

def colored (color : Color) (text : String) : Span :=
  ⟨text, { color? := some color }⟩

def strong (color : Color) (text : String) : Span :=
  ⟨text, { bold := true, color? := some color }⟩

def bold (text : String) : Span :=
  ⟨text, { bold := true }⟩

def faint (color : Color) (text : String) : Span :=
  ⟨text, { dimmed := true, color? := some color }⟩

end Span

def sequenceOf (parameters : List Nat) : String :=
  "\x1b[" ++ ";".intercalate (parameters.map toString) ++ "m"

/-- The sequence that ends every style. -/
def reset : String :=
  sequenceOf [0]

/-- A text in which a sequence starts again wherever the text ends every style. -/
def resume (start : List Char) : List Char → List Char
  | '\x1b' :: '[' :: '0' :: 'm' :: rest =>
    ['\x1b', '[', '0', 'm'] ++ start ++ resume start rest
  | c :: rest => c :: resume start rest
  | [] => []

def Span.render (colors : Bool) (span : Span) : String :=
  if colors && !span.style.parameters.isEmpty then
    let start := sequenceOf span.style.parameters
    start ++ String.ofList (resume start.toList span.text.toList) ++ reset
  else span.text

def Line.render (colors : Bool) (line : Line) : String :=
  String.join (line.map (Span.render colors)) ++ "\n"

def render (colors : Bool) (lines : List Line) : String :=
  String.join (lines.map (Line.render colors))

end Phrasebook.Terminal
