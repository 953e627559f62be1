/-!
# Glob patterns

A pattern describes texts, mostly paths. A question mark stands for any character, a star for any
text, and a class in brackets for one character that is, or is not, among those it lists. Two
stars stand for any number of directories and must fill the whole place between two slashes. All
other characters stand for themselves; slashes are no exception, so a single star reaches across
them.
-/

namespace Phrasebook.Glob

/-- What a class lists: one character or all characters of a range. -/
inductive Member where
  | single (c : Char)
  | range (first last : Char)
deriving DecidableEq, Repr

/-- A piece of a pattern. -/
inductive Token where
  | char (c : Char)
  | anyChar
  | anyText
  /-- Any number of directories, each with the slash behind it, or any text at the end. -/
  | directories
  | among (members : List Member)
  | notAmong (members : List Member)
deriving DecidableEq, Repr

/-- A pattern. -/
structure Pattern where
  tokens : List Token
deriving DecidableEq, Repr

/-- Why a text is no pattern. -/
inductive Reason where
  | badClass
  | tooManyStars
  | partialDirectories
deriving DecidableEq, Repr

/-- A reason and the character, counted from zero, near which it was noticed. -/
structure Fault where
  reason : Reason
  position : Nat
deriving DecidableEq, Repr

def Reason.describe : Reason → String
  | badClass => "invalid range pattern"
  | tooManyStars => "wildcards are either regular \x60*\x60 or recursive \x60**\x60"
  | partialDirectories => "recursive wildcards must form a single path component"

def Fault.describe (fault : Fault) : String :=
  "Pattern syntax error near position " ++ toString fault.position ++ ": " ++
    fault.reason.describe

def membersOf : List Char → List Member
  | first :: '-' :: last :: rest => .range first last :: membersOf rest
  | c :: rest => .single c :: membersOf rest
  | [] => []

/-- The text before and behind the first closing bracket. -/
def splitBracket? : List Char → Option (List Char × List Char)
  | [] => none
  | c :: rest =>
    if c = ']' then some ([], rest)
    else (splitBracket? rest).map fun (before, after) ↦ (c :: before, after)

theorem length_after_splitBracket {text before after : List Char}
    (h : splitBracket? text = some (before, after)) : after.length < text.length := by
  induction text generalizing before with
  | nil => simp [splitBracket?] at h
  | cons c rest ih =>
    unfold splitBracket? at h
    split at h
    · simp only [Option.some.injEq, Prod.mk.injEq] at h
      simp [← h.2]
    · obtain ⟨⟨b, a⟩, hb, he⟩ := Option.map_eq_some_iff.1 h
      obtain ⟨-, rfl⟩ := Prod.mk.inj he
      exact Nat.lt_succ_of_lt (ih hb)

/-- The class that the text behind an opening bracket begins with, and the text behind the class.
A class lists at least one character, which may be a closing bracket. -/
def class? : List Char → Option (Token × List Char)
  | '!' :: first :: rest =>
    (splitBracket? rest).map fun (others, after) ↦ (.notAmong (membersOf (first :: others)), after)
  | '!' :: [] => none
  | first :: rest =>
    (splitBracket? rest).map fun (others, after) ↦ (.among (membersOf (first :: others)), after)
  | [] => none

theorem length_after_class {text after : List Char} {token : Token}
    (h : class? text = some (token, after)) : after.length < text.length := by
  unfold class? at h
  split at h
  · obtain ⟨⟨o, a⟩, ho, he⟩ := Option.map_eq_some_iff.1 h
    obtain ⟨-, rfl⟩ := Prod.mk.inj he
    have := length_after_splitBracket ho
    simp only [List.length_cons]
    omega
  · simp at h
  · obtain ⟨⟨o, a⟩, ho, he⟩ := Option.map_eq_some_iff.1 h
    obtain ⟨-, rfl⟩ := Prod.mk.inj he
    exact Nat.lt_succ_of_lt (length_after_splitBracket ho)
  · simp at h

/-- The tokens of a text at a position, given the character before it. -/
def tokens (position : Nat) (before : Option Char) : List Char → Except Fault (List Token)
  | [] => .ok []
  | '?' :: rest => (tokens (position + 1) (some '?') rest).map (.anyChar :: ·)
  | '*' :: '*' :: '*' :: _ => .error ⟨.tooManyStars, position + 2⟩
  | '*' :: '*' :: rest =>
    if before.isNone || before == some '/' then
      match rest with
      | [] => .ok [.directories]
      | '/' :: after => (tokens (position + 3) (some '/') after).map (.directories :: ·)
      | _ => .error ⟨.partialDirectories, position + 2⟩
    else .error ⟨.partialDirectories, position - 1⟩
  | '*' :: rest => (tokens (position + 1) (some '*') rest).map (.anyText :: ·)
  | '[' :: rest =>
    match h : class? rest with
    | some (token, after) =>
      have := length_after_class h
      (tokens (position + 1 + (rest.length - after.length)) (some ']') after).map (token :: ·)
    | none => .error ⟨.badClass, position⟩
  | c :: rest => (tokens (position + 1) (some c) rest).map (.char c :: ·)
termination_by text => text.length

def Pattern.parse (text : String) : Except Fault Pattern :=
  (Glob.tokens 0 none text.toList).map Pattern.mk

/-- Whether a text holds a wildcard, without which it names one path. -/
def hasWildcard (text : String) : Bool :=
  text.toList.any fun c ↦ c == '*' || c == '?'

def Member.holds (c : Char) : Member → Bool
  | single d => c == d
  | range first last => first ≤ c && c ≤ last

/-- A text and everything that is left of it when characters are taken from its start. -/
def suffixes : List Char → List (List Char)
  | [] => [[]]
  | c :: rest => (c :: rest) :: suffixes rest

/-- What is left of a text behind each of its slashes, and at its end. -/
def afterSlashes : List Char → List (List Char)
  | [] => [[]]
  | c :: rest => if c = '/' then rest :: afterSlashes rest else afterSlashes rest

/-- Whether a token that stands for one character stands for this one. -/
def Token.holds (c : Char) : Token → Bool
  | char d => c == d
  | anyChar => true
  | among members => members.any (·.holds c)
  | notAmong members => !members.any (·.holds c)
  | _ => false

/-- Whether tokens describe a text as a whole. -/
def matchesTokens : List Token → List Char → Bool
  | [], text => text.isEmpty
  | .anyText :: rest, text => (suffixes text).any fun suffix ↦ matchesTokens rest suffix
  | .directories :: rest, text =>
    (text :: afterSlashes text).any fun suffix ↦ matchesTokens rest suffix
  | token :: rest, text =>
    match text with
    | [] => false
    | c :: others => token.holds c && matchesTokens rest others

/-- Whether a pattern describes a text as a whole. -/
def Pattern.isMatch (pattern : Pattern) (text : String) : Bool :=
  matchesTokens pattern.tokens text.toList

def Pattern.plainText? (pattern : Pattern) : Option String :=
  (pattern.tokens.mapM fun (token : Token) ↦
    match token with
    | .char c => some c
    | _ => none).map String.ofList

end Phrasebook.Glob
