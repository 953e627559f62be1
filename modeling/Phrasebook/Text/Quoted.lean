import Phrasebook.Text.Printable

/-!
# Quoted texts

How a message shows a text between quotes: the quote and the backslash get a backslash, the common
controls get the letters by which they are known, and every other character that cannot be shown
is written as its code point.
-/

namespace Phrasebook.Text

/-- A code point in hexadecimal digits between braces. -/
def escapedCode (c : Char) : List Char :=
  ['\\', 'u', '{'] ++ Nat.toDigits 16 c.toNat ++ ['}']

def quotedChar (c : Char) : List Char :=
  match c with
  | '"' => ['\\', '"']
  | '\\' => ['\\', '\\']
  | '\n' => ['\\', 'n']
  | '\r' => ['\\', 'r']
  | '\t' => ['\\', 't']
  | _ =>
    if c.toNat = 0 then ['\\', '0']
    else if isPrintable c then [c]
    else escapedCode c

def quoted (text : String) : String :=
  String.ofList ('"' :: text.toList.flatMap quotedChar ++ ['"'])

end Phrasebook.Text
