import Phrasebook.Proofs.Lookup.Choose
import Phrasebook.Proofs.Source.Literal

/-!
# What becomes of a conditional

A conditional that compares a count for equality and chooses between two texts is stored as a plural
expression. The rule looks at the left operand only: whatever the count is compared with, the text
for equality is stored as the text for one. So the lookup agrees with a comparison with one, and
with another comparison only if both texts are the same.
-/

namespace Phrasebook

open Syntax

/-- A conditional that compares for equality and chooses between two texts. -/
structure Choice where
  left : Node
  right : Node
  same : String
  differs : String

namespace Choice

def isEquality (symbol : String) : Bool :=
  symbol == "==" || symbol == "==="

def ofConditional? : Node → Option Choice
  | .mk .conditional _ [test, yes, no] =>
    match test.withoutParens, Collection.branchText? yes, Collection.branchText? no with
    | .mk (.operation symbol) _ [left, right], some same, some differs =>
      if isEquality symbol then some ⟨left, right, same, differs⟩ else none
    | _, _, _ => none
  | _ => none

/-- The number that an integer literal is, as it is written: in decimal, or with the mark of its
radix, and with low lines between the digits. -/
def wholeOf? (written : List Char) : Option Nat :=
  let radixDigits (radix : Nat) (digits : List Char) : Option Nat :=
    if !digits.isEmpty && digits.all fun c ↦ (Text.digitValue? radix c).isSome then
      some (Text.ofDigits radix digits)
    else none
  match written.filter (· != '_') with
  | '0' :: mark :: digits =>
    match mark.toLower with
    | 'x' => radixDigits 16 digits
    | 'o' => radixDigits 8 digits
    | 'b' => radixDigits 2 digits
    | _ => none
  | digits => radixDigits 10 digits

/-- The integer that the right side of the comparison is written as. -/
def compared? (choice : Choice) (text : List Char) : Option Int :=
  if choice.right.kind = .number then
    (wholeOf? (Text.slice choice.right.start choice.right.stop text)).map Int.ofNat
  else none

/-- The text that is chosen, without the blanks at its edges, when the left side has one value and
the right side another. -/
def evaluate (choice : Choice) (left right : Int) : String :=
  if left = right then Text.trim choice.same else Text.trim choice.differs

def template (choice : Choice) : String :=
  (Plural.oneOther Lookup.countArgument (Text.trim choice.same) (Text.trim choice.differs)).render

/-- The left side of the comparison as an argument of a lookup. -/
def counted (choice : Choice) (text : List Char) : LookupArgument where
  name := Lookup.countArgument
  expression := String.ofList (Text.slice choice.left.start choice.left.stop text)

variable {choice : Choice} {text : List Char} {excluded : List String} {span : Span}
variable {parts : List Node} {site : Site}

/-- A conditional that is a site makes a choice, and the choice says what is found. -/
theorem exists_of_conditionalSite?
    (h : Collection.conditionalSite? text excluded span parts = some site) :
    ∃ choice, ofConditional? (.mk .conditional span parts) = some choice ∧
      site.found = ⟨.plural, choice.template, [choice.counted text]⟩ ∧ site.slot = .expression := by
  unfold Collection.conditionalSite? at h
  split at h
  · next test yes no =>
    obtain ⟨found, hfound, rfl⟩ := Option.map_eq_some_iff.1 h
    unfold Rule.evaluate Rule.matchConditional at hfound
    dsimp only at hfound
    split at hfound
    · next equality same differs htest hyes hno =>
      split at hfound
      · next haccepted =>
        cases hfound
        unfold Collection.equalityTest? at htest
        split at htest
        · next symbol inner left right hinner =>
          cases htest
          have hequality : isEquality symbol = true := by
            have hcomparison := (Bool.and_eq_true_iff.1 (Bool.and_eq_true_iff.1 haccepted).1).1
            unfold isEquality
            by_contra hother
            obtain ⟨hloose, hstrict⟩ := Bool.or_eq_false_iff.1 (Bool.not_eq_true _ ▸ hother)
            simp [hloose, hstrict] at hcomparison
          refine ⟨⟨left, right, same, differs⟩, ?_, rfl, rfl⟩
          unfold ofConditional?
          simp only [hinner, hyes, hno, hequality, if_true]
        · cases htest
      · cases hfound
    · cases hfound
  · cases h

/-- What is found at the site of a choice. -/
theorem found_of_siteOf? {node : Node} (hchoice : ofConditional? node = some choice)
    (hsite : Collection.siteOf? text excluded node = some site) :
    site.found = ⟨.plural, choice.template, [choice.counted text]⟩ ∧ site.slot = .expression := by
  obtain ⟨kind, span, parts⟩ := node
  cases kind with
  | conditional =>
    obtain ⟨other, hother, hfound⟩ := exists_of_conditionalSite? hsite
    cases hchoice.symm.trans hother
    exact hfound
  | _ => cases hchoice

/-- A text that a plural expression can hold and that is shown as it is: its braces are balanced,
and neither a number sign nor a placeholder stands for the count in it. -/
structure IsPlainBranch (branch : String) : Prop where
  balanced : Plural.IsBalanced branch.toList
  unsigned : '#' ∉ branch.toList
  unnamed : Lookup.countArgument ∉ Lookup.placeholderNames branch.toList

/-- A choice between two texts that are read as they are. -/
structure IsPlain (choice : Choice) : Prop where
  same : IsPlainBranch (Text.trim choice.same)
  differs : IsPlainBranch (Text.trim choice.differs)

/-- The lookup of a plain choice gives the text for equality when the count is one. -/
theorem IsPlain.resolve (hplain : choice.IsPlain) {catalog : Catalog} {key stored : String}
    (hkey : catalog.get? key = some stored)
    (htrim : Text.trim stored = Text.trim choice.template) (count : Int) :
    Lookup.resolve catalog key [⟨Lookup.countArgument, .whole count⟩] =
      Text.lead stored ++ choice.evaluate count 1 ++ Text.trail stored := by
  obtain ⟨hsame, hdiffers⟩ := hplain
  have hchosen : Lookup.chosen (Text.trim choice.same) (Text.trim choice.differs)
      (Number.ofInt count) = choice.evaluate count 1 := by
    unfold Lookup.chosen evaluate
    simp only [Number.isOne_ofInt]
  have hbranch : IsPlainBranch (choice.evaluate count 1) := by
    unfold evaluate
    split
    · exact hsame
    · exact hdiffers
  have hshown : String.ofList (Lookup.shown (.whole count) (Text.trim choice.same)
      (Text.trim choice.differs) (Number.ofInt count)) = choice.evaluate count 1 := by
    rw [Lookup.shown_eq_chosen, hchosen]
    · rw [hchosen]
      exact hbranch.unsigned
    · rw [hchosen]
      exact hbranch.unnamed
  rw [Lookup.resolve_oneOther hkey htrim hsame.balanced hdiffers.balanced rfl, hshown]

/-- Choosing by equality with one is choosing by equality with another number only if there is
nothing to choose. -/
theorem evaluate_one_eq_iff (choice : Choice) (right : Int) :
    (∀ count, choice.evaluate count 1 = choice.evaluate count right) ↔
      right = 1 ∨ Text.trim choice.same = Text.trim choice.differs := by
  constructor
  · intro hagree
    by_contra hother
    obtain ⟨hright, htexts⟩ := not_or.1 hother
    have hone := hagree 1
    rw [evaluate, evaluate, if_pos rfl, if_neg (Ne.symm hright)] at hone
    exact htexts hone
  · rintro (rfl | htexts)
    · exact fun _ ↦ rfl
    · intro count
      unfold evaluate
      rw [htexts, ite_self, ite_self]

end Choice

namespace Conversion

variable {options : ConversionOptions} {path : Path} {scope code : String}
variable {before after : KeyedCatalog} {conversion : Conversion} {module : Syntax.Module}
variable {node : Node} {choice : Choice} {call : KeyedSite}

/-- Every conditional of a source that compares a name or a property with an integer is read, after
the source was converted, as the text that it chooses. -/
def KeepsChoices (options : ConversionOptions) (path : Path) (scope code : String)
    (before : KeyedCatalog) : Prop :=
  ∀ module conversion after, Syntax.Module.parse? path.hasMarkup code = some module →
    ofSource options path scope code before = .ok (conversion, after) →
      ∀ node ∈ Node.allOf module.items, ∀ choice, Choice.ofConditional? node = some choice →
        ∀ right, choice.compared? module.text = some right →
          (Collection.shapeOf choice.left = .identifier ∨
            Collection.shapeOf choice.left = .member) →
          ∀ call ∈ (assignKeys (.start scope) before
              (Collection.ofModule options.excluded module).sites).1,
            Collection.siteOf? module.text options.excluded node = some call.site →
              ∀ count, Lookup.resolve after.entries call.key
                [⟨Lookup.countArgument, .whole count⟩] = choice.evaluate count right

/-- Whether a conditional of a source is read otherwise than it chooses, for some count. -/
def changesChoice (options : ConversionOptions) (path : Path) (scope code : String)
    (before : KeyedCatalog) (count : Int) : Bool :=
  match Syntax.Module.parse? path.hasMarkup code, ofSource options path scope code before with
  | some module, .ok (_, after) =>
    let calls := (assignKeys (.start scope) before
      (Collection.ofModule options.excluded module).sites).1
    (Node.allOf module.items).any fun node ↦
      match Choice.ofConditional? node with
      | some choice =>
        match choice.compared? module.text with
        | some right =>
          decide (Collection.shapeOf choice.left = .identifier) &&
            calls.any fun call ↦
              decide (Collection.siteOf? module.text options.excluded node = some call.site) &&
                decide (Lookup.resolve after.entries call.key
                  [⟨Lookup.countArgument, .whole count⟩] ≠ choice.evaluate count right)
        | none => false
      | none => false
  | _, _ => false

/-- A source with one conditional that is shown otherwise is one whose choices are not kept. -/
theorem not_keepsChoices (count : Int)
    (h : changesChoice options path scope code before count = true) :
    ¬ KeepsChoices options path scope code before := by
  intro hkeeps
  unfold changesChoice at h
  split at h
  · next module conversion after hmodule hconverted =>
    obtain ⟨node, hnode, hany⟩ := List.any_eq_true.1 h
    split at hany
    · next choice hchoice =>
      split at hany
      · next right hright =>
        obtain ⟨hshape, hcalls⟩ := Bool.and_eq_true_iff.1 hany
        obtain ⟨call, hcall, hdiffers⟩ := List.any_eq_true.1 hcalls
        obtain ⟨hsite, hne⟩ := Bool.and_eq_true_iff.1 hdiffers
        exact of_decide_eq_true hne (hkeeps module conversion after hmodule hconverted node hnode
          choice hchoice right hright (.inl (of_decide_eq_true hshape)) call hcall
          (of_decide_eq_true hsite) count)
      · cases hany
    · cases hany
  · cases h

/-- A source that shows one of two texts. -/
def choosing (test same differs : String) : String :=
  "import \x7b t \x7d from \"localise-ai-sdk\";\nconst a = <p>\x7b" ++ test ++ " ? \"" ++ same ++
    "\" : \"" ++ differs ++ "\"\x7d</p>;\n"

/-- The catalog in which the plural of an item is stored with a blank at its end. -/
def items : Catalog :=
  .ofList [("items", "\x7bcount, plural, one \x7bitem\x7d other \x7bitems\x7d\x7d ")]

/-- A comparison with zero is read as a comparison with one. A text that holds a number sign, a
placeholder for the count or a brace of its own is not shown as it is, and one is shown with the
blanks of a template that is stored already. -/
theorem not_keepsChoices_choosing :
    ¬ KeepsChoices plainOptions ⟨"a.tsx"⟩ "a" (choosing "n === 0" "No items" "Some items")
        (.ofCatalog .empty) ∧
      ¬ KeepsChoices plainOptions ⟨"a.tsx"⟩ "a" (choosing "n === 1" "Item #1" "Items")
        (.ofCatalog .empty) ∧
      ¬ KeepsChoices plainOptions ⟨"a.tsx"⟩ "a"
        (choosing "n === 1" "item" "\x7b\x7bcount\x7d\x7d items") (.ofCatalog .empty) ∧
      ¬ KeepsChoices plainOptions ⟨"a.tsx"⟩ "a" (choosing "n === 1" "item \x7d" "items")
        (.ofCatalog .empty) ∧
      ¬ KeepsChoices plainOptions ⟨"a.tsx"⟩ "a" (choosing "n === 1" "item" "items")
        (.ofCatalog items) := by
  refine ⟨?_, ?_, ?_, ?_, ?_⟩
  · exact not_keepsChoices 0 (by decide +kernel)
  · exact not_keepsChoices 1 (by decide +kernel)
  · exact not_keepsChoices 2 (by decide +kernel)
  · exact not_keepsChoices 1 (by decide +kernel)
  · exact not_keepsChoices 1 (by decide +kernel)

/-! ## Plain choices -/

/-- After a conversion a call with the left side as its count stands in the place of a plain choice.
For every count its lookup gives the text for equality when the count is one, and the other text
when it is not, between the blanks at the edges of the template that the key holds. So it gives what
the conditional chooses for every count exactly when the conditional compares with one, or has the
same text twice. -/
theorem resolve_plainChoice {loaded : Catalog} {inserted : List (String × String)}
    (hconverted : ofSource options path scope code
      ((KeyedCatalog.ofCatalog loaded).insertAll inserted) = .ok (conversion, after))
    (hmodule : Syntax.Module.parse? path.hasMarkup code = some module)
    (hcall : call ∈ (assignKeys (.start scope) ((KeyedCatalog.ofCatalog loaded).insertAll inserted)
      (Collection.ofModule options.excluded module).sites).1)
    (hchoice : Choice.ofConditional? node = some choice)
    (hsite : Collection.siteOf? module.text options.excluded node = some call.site)
    (hplain : choice.IsPlain) :
    (∃ edits, Edit.applyAll? code edits = some conversion.output ∧ siteEdit call ∈ edits ∧
      (siteEdit call).text = lookupCall call.key [choice.counted module.text]) ∧
      ∃ stored, after.get? call.key = some stored ∧
        Text.trim stored = Text.trim choice.template ∧
        (∀ count, Lookup.resolve after.entries call.key
          [⟨Lookup.countArgument, .whole count⟩] =
            Text.lead stored ++ choice.evaluate count 1 ++ Text.trail stored) ∧
        ∀ right, (∀ count, Lookup.resolve after.entries call.key
          [⟨Lookup.countArgument, .whole count⟩] =
            Text.lead stored ++ choice.evaluate count right ++ Text.trail stored) ↔
              right = 1 ∨ Text.trim choice.same = Text.trim choice.differs := by
  have hindexed : ((KeyedCatalog.ofCatalog loaded).insertAll inserted).Indexed :=
    (KeyedCatalog.indexed_ofCatalog loaded).insertAll inserted
  obtain ⟨⟨edits, happly, hedit⟩, stored, hstored, htrim⟩ :=
    emitted_of_mem_assignKeys hindexed hconverted hmodule hcall
  obtain ⟨hfound, hslot⟩ := Choice.found_of_siteOf? hchoice hsite
  rw [hfound] at htrim
  have hresolve := hplain.resolve hstored htrim
  refine ⟨⟨edits, happly, hedit, ?_⟩, stored, hstored, htrim, hresolve, fun right ↦ ?_⟩
  · show replacement call = _
    unfold replacement
    rw [hslot, hfound]
  · rw [← choice.evaluate_one_eq_iff right]
    refine forall_congr' fun count ↦ ?_
    rw [hresolve count]
    constructor
    · intro hsame
      exact String.append_right_inj _ |>.1 (String.append_left_inj _ |>.1 hsame)
    · intro hsame
      rw [hsame]

def itemChoice : Choice where
  left := .mk (.name "n") ⟨51, 52⟩ []
  right := .mk .number ⟨57, 58⟩ []
  same := "item"
  differs := "items"

def itemConditional : Node :=
  .mk .conditional ⟨51, 77⟩ [.mk (.operation "===") ⟨51, 58⟩ [itemChoice.left, itemChoice.right],
    .mk (.string (some "item")) ⟨61, 67⟩ [], .mk (.string (some "items")) ⟨70, 77⟩ []]

/-- The call that takes the place of the conditional. -/
def itemCall : KeyedSite where
  site := ⟨51, 77, .expression, ⟨.plural, itemChoice.template, [⟨"count", "n"⟩]⟩⟩
  key := "items"

theorem isPlain_itemChoice : itemChoice.IsPlain where
  same := ⟨by decide +kernel, by decide +kernel, by decide +kernel⟩
  differs := ⟨by decide +kernel, by decide +kernel, by decide +kernel⟩

theorem resolve_plainChoice_item :
    ∃ conversion after stored,
      ofSource plainOptions ⟨"a.tsx"⟩ "a" (choosing "n === 1" "item" "items")
        ((KeyedCatalog.ofCatalog items).insertAll []) = .ok (conversion, after) ∧
      after.get? "items" = some stored ∧
      Lookup.resolve after.entries "items" [⟨"count", .whole 1⟩] =
        Text.lead stored ++ "item" ++ Text.trail stored ∧
      Lookup.resolve after.entries "items" [⟨"count", .whole 2⟩] =
        Text.lead stored ++ "items" ++ Text.trail stored := by
  have hparsed : (Syntax.Module.parse? (Path.hasMarkup ⟨"a.tsx"⟩)
      (choosing "n === 1" "item" "items")).map (fun module ↦ (assignKeys (.start "a")
        ((KeyedCatalog.ofCatalog items).insertAll [])
        (Collection.ofModule plainOptions.excluded module).sites).1) = some [itemCall] := by
    decide +kernel
  have htext : (Syntax.Module.parse? (Path.hasMarkup ⟨"a.tsx"⟩)
      (choosing "n === 1" "item" "items")).all (fun module ↦
        Collection.siteOf? module.text plainOptions.excluded itemConditional ==
          some itemCall.site) = true := by
    decide +kernel
  have hok : (ofSource plainOptions ⟨"a.tsx"⟩ "a" (choosing "n === 1" "item" "items")
      ((KeyedCatalog.ofCatalog items).insertAll [])).toBool = true := by
    decide +kernel
  obtain ⟨module, hmodule, hcalls⟩ := Option.map_eq_some_iff.1 hparsed
  have hsite : Collection.siteOf? module.text plainOptions.excluded itemConditional =
      some itemCall.site := by
    rw [hmodule] at htext
    exact beq_iff_eq.1 htext
  cases hconverted : ofSource plainOptions ⟨"a.tsx"⟩ "a" (choosing "n === 1" "item" "items")
      ((KeyedCatalog.ofCatalog items).insertAll []) with
  | error fault =>
    rw [hconverted] at hok
    cases hok
  | ok outcome =>
    obtain ⟨conversion, after⟩ := outcome
    obtain ⟨-, stored, hstored, -, hresolve, -⟩ := resolve_plainChoice hconverted hmodule
      (by rw [hcalls]; exact List.mem_cons_self) rfl hsite isPlain_itemChoice
    have hsame : itemChoice.evaluate 1 1 = "item" := by decide +kernel
    have hdiffers : itemChoice.evaluate 2 1 = "items" := by decide +kernel
    have hone := hresolve 1
    have htwo := hresolve 2
    rw [hsame] at hone
    rw [hdiffers] at htwo
    exact ⟨conversion, after, stored, rfl, hstored, hone, htwo⟩

end Conversion

end Phrasebook
