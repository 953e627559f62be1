import Phrasebook.Syntax.Entity
import Phrasebook.Text.Offset

/-!
# Tokens of a module

A source text is read token by token, from left to right. A `Place` is a position in it: the byte
offset and the text that follows. `Lexeme.read` skips blanks and comments and reads the token
after them; the readers of the second half read what can only be told apart by the grammar: the
chunks of a template literal, a regular expression, and text, attribute values and names of
markup.

A character sequence that is no token gives the token `broken`. It is harmless as long as the
grammar reads the same place in another way, as it does with the text between two tags.
-/

namespace Phrasebook.Syntax

/-- A range of byte offsets. -/
structure Span where
  start : Nat
  stop : Nat
deriving DecidableEq, Repr, Inhabited

/-- A position in a source: its byte offset and the text that follows it. -/
structure Place where
  offset : Nat
  text : List Char
deriving Inhabited

namespace Place

def skip : Nat → Place → Place
  | 0, place => place
  | _ + 1, ⟨offset, []⟩ => ⟨offset, []⟩
  | count + 1, ⟨offset, c :: rest⟩ => skip count ⟨offset + c.utf8Size, rest⟩

def after (place : Place) (taken rest : List Char) : Place :=
  ⟨place.offset + Text.size taken, rest⟩

/-- The characters from here that satisfy a condition, and the place after them. -/
def span (p : Char → Bool) (place : Place) : List Char × Place :=
  let taken := place.text.takeWhile p
  (taken, place.after taken (place.text.dropWhile p))

end Place

def isLineEnd (c : Char) : Bool :=
  c == '\n' || c == '\r' || c.toNat == 0x2028 || c.toNat == 0x2029

def isSeparator (c : Char) : Bool :=
  let code := c.toNat
  code == 9 || code == 11 || code == 12 || code == 32 || code == 160 || code == 0xFEFF ||
    code == 5760 || (8192 ≤ code && code ≤ 8202) || code == 8239 || code == 8287 || code == 12288

def startsName (c : Char) : Bool :=
  c == '$' || c == '_' || Text.startsIdentifier c

def continuesName (c : Char) : Bool :=
  c == '$' || Text.continuesIdentifier c || c.toNat == 0x200C || c.toNat == 0x200D

namespace Token

/-- What a token is. -/
inductive Kind where
  /-- An identifier or a keyword; `escaped` when it is written with an escape sequence. -/
  | name (text : String) (escaped : Bool)
  | privateName
  /-- A number; `flawed` when it has a leading zero, which a module does not allow. -/
  | number (flawed : Bool)
  | bigInteger
  /-- A quoted string and its value, which is absent when it is no sequence of characters;
  `flawed` when it holds an escape sequence that a module does not allow. -/
  | string (value : Option String) (flawed : Bool)
  /-- An operator or a bracket. -/
  | mark (text : String)
  /-- The text between two tags of markup. -/
  | text (value : String)
  | broken
  | finish
deriving DecidableEq, Repr, Inhabited

end Token

/-- A token with the places where it starts and where it ends. -/
structure Lexeme where
  kind : Token.Kind
  start : Place
  stop : Place
  /-- Whether a line ends between the token before and this one. -/
  onNewLine : Bool
deriving Inhabited

def Lexeme.span (lexeme : Lexeme) : Span :=
  ⟨lexeme.start.offset, lexeme.stop.offset⟩

/-- What the reader of blanks is in the middle of. -/
inductive Trivia where
  | blank
  | lineComment
  | blockComment

/-- The place of the next token, and whether a line ended before it; nothing when a comment is
not closed. -/
def skipTrivia : Trivia → Bool → Nat → List Char → Option (Place × Bool)
  | .blank, newLine, offset, '/' :: '/' :: rest =>
    skipTrivia .lineComment newLine (offset + 2) rest
  | .blank, newLine, offset, '/' :: '*' :: rest =>
    skipTrivia .blockComment newLine (offset + 2) rest
  | .blank, newLine, offset, c :: rest =>
    if isLineEnd c then skipTrivia .blank true (offset + c.utf8Size) rest
    else if isSeparator c then skipTrivia .blank newLine (offset + c.utf8Size) rest
    else some (⟨offset, c :: rest⟩, newLine)
  | .blank, newLine, offset, [] => some (⟨offset, []⟩, newLine)
  | .lineComment, newLine, offset, c :: rest =>
    if isLineEnd c then skipTrivia .blank true (offset + c.utf8Size) rest
    else skipTrivia .lineComment newLine (offset + c.utf8Size) rest
  | .lineComment, newLine, offset, [] => some (⟨offset, []⟩, newLine)
  | .blockComment, newLine, offset, '*' :: '/' :: rest =>
    skipTrivia .blank newLine (offset + 2) rest
  | .blockComment, newLine, offset, c :: rest =>
    skipTrivia .blockComment (newLine || isLineEnd c) (offset + c.utf8Size) rest
  | .blockComment, _, _, [] => none

/-! ## Escape sequences -/

/-- What an escape sequence stands for. -/
inductive Escape where
  /-- A code point, possibly half of a surrogate pair. -/
  | code (value : Nat)
  /-- Nothing: the line goes on. -/
  | continuation
  /-- A code point written in octal, which a module does not allow. -/
  | octal (value : Nat)
  | invalid

/-- The value of exactly `count` hexadecimal digits, and the text after them. -/
def hexDigits? (count : Nat) (text : List Char) : Option (Nat × List Char) :=
  let digits := text.take count
  if digits.length == count && digits.all fun c ↦ (Text.digitValue? 16 c).isSome then
    some (Text.ofDigits 16 digits, text.drop count)
  else none

/-- The code point written after `\u`, and the text after it. -/
def unicodeEscape? : List Char → Option (Nat × List Char)
  | '{' :: text =>
    let digits := text.takeWhile fun c ↦ (Text.digitValue? 16 c).isSome
    match text.dropWhile fun c ↦ (Text.digitValue? 16 c).isSome with
    | '}' :: rest =>
      let code := Text.ofDigits 16 digits
      if digits.isEmpty || code > 0x10FFFF then none else some (code, rest)
    | _ => none
  | text => hexDigits? 4 text

private def octalEscape (digit : Char) (text : List Char) : Escape × List Char :=
  let more := if digit.toNat ≤ '3'.toNat then 2 else 1
  let digits := (text.take more).takeWhile fun c ↦ (Text.digitValue? 8 c).isSome
  (.octal (Text.ofDigits 8 (digit :: digits)), text.drop digits.length)

/-- The escape sequence after a backslash, and the text after it. -/
def readEscape : List Char → Escape × List Char
  | [] => (.invalid, [])
  | 'n' :: rest => (.code 10, rest)
  | 'r' :: rest => (.code 13, rest)
  | 't' :: rest => (.code 9, rest)
  | 'b' :: rest => (.code 8, rest)
  | 'v' :: rest => (.code 11, rest)
  | 'f' :: rest => (.code 12, rest)
  | '\r' :: '\n' :: rest => (.continuation, rest)
  | 'x' :: rest =>
    match hexDigits? 2 rest with
    | some (code, after) => (.code code, after)
    | none => (.invalid, rest)
  | 'u' :: rest =>
    match unicodeEscape? rest with
    | some (code, after) => (.code code, after)
    | none => (.invalid, rest)
  | c :: rest =>
    if isLineEnd c then (.continuation, rest)
    else if c == '0' && !(rest.headD ' ').isDigit then (.code 0, rest)
    else if c == '0' && ((rest.headD ' ') == '8' || (rest.headD ' ') == '9') then (.code 0, rest)
    else if (Text.digitValue? 8 c).isSome then octalEscape c rest
    else (.code c.toNat, rest)

/-- The text of a list of code points in which surrogate pairs are joined; nothing when half a
pair is left over. -/
def joinCodes? : List Nat → Option (List Char)
  | [] => some []
  | [code] => if code.isValidChar then some [Char.ofNat code] else none
  | high :: low :: rest =>
    if 0xD800 ≤ high && high < 0xDC00 && 0xDC00 ≤ low && low < 0xE000 then
      (joinCodes? rest).map (Char.ofNat (0x10000 + (high - 0xD800) * 1024 + (low - 0xDC00)) :: ·)
    else if high.isValidChar then (joinCodes? (low :: rest)).map (Char.ofNat high :: ·)
    else none

/-- The rest of a quoted string: its code points, whether it holds an octal escape, and the text
after the closing quote. -/
def stringBody : Nat → Char → List Char → Option (List Nat × Bool × List Char)
  | 0, _, _ => none
  | _ + 1, _, [] => none
  | room + 1, quote, c :: rest =>
    if c == quote then some ([], false, rest)
    else if c == '\n' || c == '\r' then none
    else if c == '\\' then
      match readEscape rest with
      | (.code value, after) =>
        (stringBody room quote after).map fun (codes, flawed, last) ↦ (value :: codes, flawed, last)
      | (.octal value, after) =>
        (stringBody room quote after).map fun (codes, _, last) ↦ (value :: codes, true, last)
      | (.continuation, after) => stringBody room quote after
      | (.invalid, _) => none
    else
      (stringBody room quote rest).map fun (codes, flawed, last) ↦ (c.toNat :: codes, flawed, last)

def Place.upTo (place : Place) (rest : List Char) : Place :=
  ⟨place.offset + (Text.size place.text - Text.size rest), rest⟩

def readString (quote : Char) (place : Place) : Token.Kind × Place :=
  match stringBody place.text.length quote (place.text.drop 1) with
  | some (codes, flawed, rest) =>
    (.string ((joinCodes? codes).map String.ofList) flawed, place.upTo rest)
  | none => (.broken, place.skip 1)

/-- Whether underscores in a run of digits stand between two digits only. -/
private def separatorsFit : List Char → Bool
  | [] => true
  | '_' :: _ => false
  | [_] => true
  | _ :: '_' :: '_' :: _ => false
  | [_, '_'] => false
  | _ :: '_' :: rest => separatorsFit rest
  | _ :: rest => separatorsFit rest

/-- A run of digits of a radix, with separators, and the place after it. -/
private def digitRun (radix : Nat) (place : Place) : List Char × Place :=
  place.span fun c ↦ c == '_' || (Text.digitValue? radix c).isSome

/-- A number may not run into a name or into another number. -/
private def endNumber (kind : Token.Kind) (place : Place) : Token.Kind × Place :=
  match place.text with
  | c :: _ => if startsName c || c.isDigit || c == '\\' then (.broken, place) else (kind, place)
  | [] => (kind, place)

/-- A number with the digits of a radix after its two-character mark. -/
private def readRadixNumber (radix : Nat) (place : Place) : Token.Kind × Place :=
  let (digits, after) := digitRun radix (place.skip 2)
  if digits.isEmpty || !separatorsFit digits then (.broken, after)
  else if after.text.head? == some 'n' then endNumber .bigInteger (after.skip 1)
  else endNumber (.number false) after

/-- The exponent of a decimal number, if one follows. -/
private def readExponent (flawed : Bool) (place : Place) : Token.Kind × Place :=
  match place.text with
  | c :: rest =>
    if c == 'e' || c == 'E' then
      let signed := rest.head? == some '+' || rest.head? == some '-'
      let (digits, after) := digitRun 10 (place.skip (if signed then 2 else 1))
      if digits.isEmpty || !separatorsFit digits then (.broken, after)
      else endNumber (.number flawed) after
    else endNumber (.number flawed) place
  | [] => (.number flawed, place)

/-- The fraction and the exponent of a decimal number. -/
private def readFraction (flawed : Bool) (place : Place) : Token.Kind × Place :=
  if place.text.head? == some '.' then
    let (digits, after) := digitRun 10 (place.skip 1)
    if separatorsFit digits then readExponent flawed after else (.broken, after)
  else readExponent flawed place

def readNumber (place : Place) : Token.Kind × Place :=
  match place.text with
  | '0' :: mark :: _ =>
    if mark == 'x' || mark == 'X' then readRadixNumber 16 place
    else if mark == 'o' || mark == 'O' then readRadixNumber 8 place
    else if mark == 'b' || mark == 'B' then readRadixNumber 2 place
    else decimal
  | _ => decimal
where
  /-- A number in decimal notation, or one with a leading zero. -/
  decimal : Token.Kind × Place :=
    let (digits, after) := digitRun 10 place
    let leadingZero := digits.head? == some '0' && digits.length > 1
    if !separatorsFit digits || (leadingZero && digits.contains '_') then (.broken, after)
    else if leadingZero && digits.all fun c ↦ (Text.digitValue? 8 c).isSome then
      endNumber (.number true) after
    else if after.text.head? == some 'n' && !leadingZero then
      endNumber .bigInteger (after.skip 1)
    else readFraction leadingZero after

/-- The rest of a name: its characters, whether one is escaped, and the text after it. -/
def nameBody : Nat → List Char → Option (List Char × Bool × List Char)
  | 0, text => some ([], false, text)
  | _ + 1, [] => some ([], false, [])
  | room + 1, '\\' :: 'u' :: rest =>
    (unicodeEscape? rest).bind fun (code, after) ↦
      if continuesName (Char.ofNat code) then
        (nameBody room after).map fun (name, _, last) ↦ (Char.ofNat code :: name, true, last)
      else none
  | room + 1, c :: rest =>
    if continuesName c then
      (nameBody room rest).map fun (name, escaped, last) ↦ (c :: name, escaped, last)
    else some ([], false, c :: rest)

def readName? (place : Place) : Option (String × Bool × Place) :=
  (nameBody (place.text.length + 1) place.text).bind fun (name, escaped, rest) ↦
    match name with
    | [] => none
    | first :: _ =>
      if startsName first then some (String.ofList name, escaped, place.upTo rest) else none

/-- The marks, a longer one before each shorter one that it begins with. A `>` is always read
alone; the grammar joins it with what follows where an operator may stand. -/
def marks : List (List Char) :=
  ["...", "===", "!==", "**=", "<<=", "&&=", "||=", "??=", "=>", "==", "!=", "++", "+=", "--",
    "-=", "*=", "**", "/=", "%=", "<=", "<<", "&&", "&=", "||", "|=", "^=", "?.", "??", "=", "!",
    "+", "-", "*", "/", "%", "<", ">", "&", "|", "^", "~", "?", ":", ";", ",", ".", "(", ")", "[",
    "]", "\x7b", "\x7d", "@", "\x60"].map String.toList

def readMark (place : Place) : Token.Kind × Place :=
  match place.text with
  | '?' :: '.' :: c :: _ => if c.isDigit then (.mark "?", place.skip 1) else longest
  | '<' :: '!' :: '-' :: '-' :: _ => (.broken, place.skip 4)
  | _ => longest
where
  /-- The longest mark. -/
  longest : Token.Kind × Place :=
    match marks.find? fun mark ↦ mark.isPrefixOf place.text with
    | some mark => (.mark (String.ofList mark), place.skip mark.length)
    | none => (.broken, place.skip 1)

def readToken (place : Place) : Token.Kind × Place :=
  match place.text with
  | [] => (.finish, place)
  | c :: rest =>
    if c == '"' || c == '\'' then readString c place
    else if c.isDigit || (c == '.' && (rest.headD ' ').isDigit) then readNumber place
    else if c == '#' then
      match readName? (place.skip 1) with
      | some (_, _, after) => (.privateName, after)
      | none => (.broken, place.skip 1)
    else if startsName c || c == '\\' then
      match readName? place with
      | some (name, escaped, after) => (.name name escaped, after)
      | none => (.broken, place.skip 1)
    else readMark place

def Lexeme.read (place : Place) : Lexeme :=
  match skipTrivia .blank false place.offset place.text with
  | some (start, newLine) =>
    let (kind, stop) := readToken start
    ⟨kind, start, stop, newLine⟩
  | none => ⟨.broken, place, place, false⟩

/-! ## What only the grammar tells apart -/

/-- A chunk of a template literal. -/
structure TemplateChunk where
  /-- The characters it stands for; absent when an escape sequence is invalid or when they are no
  sequence of characters. -/
  cooked : Option String
  /-- Whether every escape sequence is valid. -/
  valid : Bool
  /-- Whether an interpolation follows, and not the end of the literal. -/
  opensInterpolation : Bool
  stop : Place

/-- The rest of a template chunk: its code points, whether its escape sequences are valid,
whether an interpolation follows, and the text after it. -/
def templateBody : Nat → List Char → Option (List Nat × Bool × Bool × List Char)
  | 0, _ => none
  | _ + 1, [] => none
  | _ + 1, '\x60' :: rest => some ([], true, false, rest)
  | _ + 1, '$' :: '{' :: rest => some ([], true, true, rest)
  | room + 1, '\r' :: '\n' :: rest =>
    (templateBody room rest).map fun (codes, ends) ↦ (10 :: codes, ends)
  | room + 1, c :: rest =>
    if c == '\\' then
      match readEscape rest with
      | (.code value, after) =>
        (templateBody room after).map fun (codes, ends) ↦ (value :: codes, ends)
      | (.continuation, after) => templateBody room after
      | (_, after) => (templateBody room after).map fun (codes, _, ends) ↦ (codes, false, ends)
    else if c == '\r' then (templateBody room rest).map fun (codes, ends) ↦ (10 :: codes, ends)
    else (templateBody room rest).map fun (codes, ends) ↦ (c.toNat :: codes, ends)

def readTemplateChunk? (place : Place) : Option TemplateChunk :=
  (templateBody (place.text.length + 1) place.text).map fun (codes, valid, opens, rest) ↦
    { cooked := if valid then (joinCodes? codes).map String.ofList else none
      valid := valid
      opensInterpolation := opens
      stop := place.upTo rest }

/-- The rest of a regular expression after its opening slash, up to the closing one; `inClass`
inside square brackets. -/
def patternBody : Bool → List Char → Option (List Char)
  | _, [] => none
  | inClass, '\\' :: c :: rest => if isLineEnd c then none else patternBody inClass rest
  | inClass, c :: rest =>
    if isLineEnd c then none
    else if c == '[' then patternBody true rest
    else if c == ']' then patternBody false rest
    else if c == '/' && !inClass then some rest
    else patternBody inClass rest

/-- The place after the regular expression that begins at a place, with its flags. -/
def readPattern? (place : Place) : Option (List Char × Place) :=
  (patternBody false (place.text.drop 1)).map fun rest ↦
    (place.upTo rest).span continuesName

/-- The text up to the next tag or container, with its references replaced; nothing when it
holds a bracket that markup does not allow. -/
def markupBody : Nat → List Char → Option (List Char × List Char)
  | 0, _ => none
  | _ + 1, [] => some ([], [])
  | room + 1, c :: rest =>
    if c == '<' || c == '{' then some ([], c :: rest)
    else if c == '>' || c == '}' then none
    else if c == '&' then
      match Entity.read rest with
      | .character d after => (markupBody room after).map fun (text, last) ↦ (d :: text, last)
      | .none => (markupBody room rest).map fun (text, last) ↦ ('&' :: text, last)
      | .broken => none
    else if c == '\r' && rest.head? == some '\n' then markupBody room rest
    else (markupBody room rest).map fun (text, last) ↦ (c :: text, last)

/-- What follows a place inside an element: text, a tag or a container. -/
def Lexeme.readChild (place : Place) : Lexeme :=
  match place.text with
  | '<' :: _ => ⟨.mark "<", place, place.skip 1, false⟩
  | '{' :: _ => ⟨.mark "\x7b", place, place.skip 1, false⟩
  | [] => ⟨.finish, place, place, false⟩
  | _ =>
    match markupBody (place.text.length + 1) place.text with
    | some (value, rest) => ⟨.text (String.ofList value), place, place.upTo rest, false⟩
    | none => ⟨.broken, place, place, false⟩

/-- The rest of a quoted attribute value, with its references replaced, and the text after the
closing quote. -/
def attributeBody : Nat → Char → List Char → Option (List Char × List Char)
  | 0, _, _ => none
  | _ + 1, _, [] => none
  | room + 1, quote, c :: rest =>
    if c == quote then some ([], rest)
    else if c == '&' then
      match Entity.read rest with
      | .character d after =>
        (attributeBody room quote after).map fun (text, last) ↦ (d :: text, last)
      | .none => (attributeBody room quote rest).map fun (text, last) ↦ ('&' :: text, last)
      | .broken => none
    else (attributeBody room quote rest).map fun (text, last) ↦ (c :: text, last)

/-- The token after the equals sign of an attribute: a quoted value is read as markup. -/
def Lexeme.readAttributeValue (place : Place) : Lexeme :=
  let lexeme := Lexeme.read place
  match lexeme.start.text with
  | c :: rest =>
    if c == '"' || c == '\'' then
      match attributeBody (rest.length + 1) c rest with
      | some (value, after) =>
        { lexeme with
          kind := .string (some (String.ofList value)) false
          stop := lexeme.start.upTo after }
      | none => { lexeme with kind := .broken }
    else lexeme
  | [] => lexeme

/-- A name of markup, which may hold hyphens, that begins with the given name. -/
def Lexeme.extendMarkupName (lexeme : Lexeme) : Lexeme :=
  match lexeme.kind with
  | .name _ false =>
    let (name, stop) := lexeme.start.span fun c ↦ continuesName c || c == '-'
    { lexeme with kind := .name (String.ofList name) false, stop := stop }
  | _ => lexeme

def Lexeme.cutToFirst (lexeme : Lexeme) : Lexeme :=
  match lexeme.kind, lexeme.start.text with
  | .mark _, c :: _ =>
    { lexeme with kind := .mark (String.singleton c), stop := lexeme.start.skip 1 }
  | _, _ => lexeme

/-- A `>` joined with the marks right after it into an operator. -/
def Lexeme.joinOperator (lexeme : Lexeme) : Lexeme :=
  let operators := [">>>=", ">>>", ">>=", ">=", ">>"]
  match operators.find? fun operator ↦ operator.toList.isPrefixOf lexeme.start.text with
  | some operator =>
    { lexeme with kind := .mark operator, stop := lexeme.start.skip operator.length }
  | none => lexeme

end Phrasebook.Syntax
