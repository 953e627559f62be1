import Phrasebook.Proofs.Lookup.Resolve
import Phrasebook.Proofs.Source.Again
import Phrasebook.Proofs.Source.Assignment

/-!
# What becomes of a template literal

A template literal is stored as a template with a placeholder for each identifier, and the lookup in
its place passes the identifiers as arguments. What the lookup gives is compared with what the
literal evaluates to, whatever the values of the identifiers are. They agree but for the blanks at
the edges, which are those of the template that the key holds: the catalog compares texts without
them.
-/

namespace Phrasebook

open Syntax

mutual

def Syntax.Node.all : Node → List Node
  | .mk kind span parts => .mk kind span parts :: allOf parts

def Syntax.Node.allOf : List Node → List Node
  | [] => []
  | node :: rest => all node ++ allOf rest

end

/-- A template literal: the values of its chunks and the interpolations between them. -/
structure Literal where
  chunks : List (Option String)
  holes : List Node

namespace Literal

def ofContainer? : Node → Option Literal
  | .mk .container _ [inner] =>
    match inner.withoutParens with
    | .mk (.template chunks) _ holes => some ⟨chunks, holes⟩
    | _ => none
  | _ => none

/-- The text of chunks and interpolations in turn, from the values of identifiers; nothing when a
chunk has no value or an interpolation is no identifier. -/
def evaluateParts? (values : String → String) : List (Option String) → List Node → Option String
  | [], _ => some ""
  | none :: _, _ => none
  | some chunk :: chunks, [] => (evaluateParts? values chunks []).map (chunk ++ ·)
  | some chunk :: chunks, hole :: holes =>
    match hole.withoutParens.kind with
    | .name name => (evaluateParts? values chunks holes).map (chunk ++ values name ++ ·)
    | _ => none

def evaluate? (literal : Literal) (values : String → String) : Option String :=
  evaluateParts? values literal.chunks literal.holes

def joinChunks (chunks : List (Option String)) : String :=
  String.join (chunks.map (·.getD ""))

def textsBetween : List (Option String) → List Node → List String
  | [], _ => []
  | chunk :: chunks, [] => [joinChunks (chunk :: chunks)]
  | chunk :: chunks, _ :: holes => chunk.getD "" :: textsBetween chunks holes

def writtenTexts (literal : Literal) : List String :=
  textsBetween literal.chunks literal.holes

end Literal

/-! ## Templates -/

namespace Rule

variable {parts : List TemplatePart} {name : String}

theorem identifiers_concat (parts : List TemplatePart) (part : TemplatePart) :
    identifiers (parts ++ [part]) =
      match part with
      | .identifier name =>
        if (identifiers parts).contains name then identifiers parts else identifiers parts ++ [name]
      | _ => identifiers parts := by
  unfold identifiers
  rw [List.foldl_append]
  rfl

theorem mem_identifiers (h : .identifier name ∈ parts) : name ∈ identifiers parts := by
  induction parts using List.reverseRecOn with
  | nil => cases h
  | append_singleton parts part ih =>
    rw [identifiers_concat]
    rcases List.mem_append.1 h with hbefore | hlast
    · have hknown := ih hbefore
      split
      · split
        · exact hknown
        · exact List.mem_append_left _ hknown
      · exact hknown
    · cases List.mem_singleton.1 hlast
      dsimp only
      split
      · next hcontains => exact List.contains_iff_mem.1 hcontains
      · exact List.mem_append_right _ List.mem_cons_self

theorem templateText?_written (chunk : String) (rest : List TemplatePart) :
    templateText? ((if chunk.isEmpty then [] else [.literal chunk]) ++ rest) =
      (templateText? rest).map (chunk ++ ·) := by
  split
  · next hempty => simp [String.isEmpty_iff.1 hempty]
  · rfl

end Rule

namespace Literal

variable {arguments : List Argument} {values : String → String}
variable {chunks : List (Option String)} {holes : List Node} {parts : List TemplatePart}
variable {template : String}

/-- Chunks without interpolations are their own template. -/
theorem evaluateParts?_nil (values : String → String)
    (hparts : Collection.templateParts? chunks [] = some parts)
    (htemplate : Rule.templateText? parts = some template) :
    evaluateParts? values chunks [] = some template ∧ joinChunks chunks = template := by
  induction chunks generalizing parts template with
  | nil =>
    cases hparts
    cases htemplate
    exact ⟨rfl, rfl⟩
  | cons chunk chunks ih =>
    cases chunk with
    | none => cases hparts
    | some chunk =>
      obtain ⟨rest, hrest, rfl⟩ := Option.map_eq_some_iff.1 hparts
      rw [Rule.templateText?_written] at htemplate
      obtain ⟨later, hlater, rfl⟩ := Option.map_eq_some_iff.1 htemplate
      obtain ⟨hvalue, hjoin⟩ := ih hrest hlater
      constructor
      · rw [evaluateParts?, hvalue, Option.map_some]
      · rw [← hjoin, joinChunks, List.map_cons, String.join_cons]
        rfl

/-- Filling the template of a literal gives what the literal evaluates to. -/
theorem evaluateParts?_eq_fill (hparts : Collection.templateParts? chunks holes = some parts)
    (htemplate : Rule.templateText? parts = some template)
    (hnames : ∀ name, .identifier name ∈ parts → Lookup.IsName name ∧
      Lookup.argument? arguments name = some (.text (values name)))
    (hwritten : ∀ text ∈ textsBetween chunks holes,
      Lookup.fill arguments text.toList = text.toList) :
    evaluateParts? values chunks holes =
      some (String.ofList (Lookup.fill arguments template.toList)) := by
  -- Behind the last interpolation all chunks are one written text, which is filled as a whole:
  -- a placeholder could reach from one of them into the next.
  induction chunks generalizing holes parts template with
  | nil =>
    cases hparts
    cases htemplate
    rw [evaluateParts?, String.toList_empty, Lookup.fill_nil]
  | cons chunk chunks ih =>
    cases chunk with
    | none => cases hparts
    | some chunk =>
      cases holes with
      | nil =>
        obtain ⟨hvalue, hjoin⟩ := evaluateParts?_nil values hparts htemplate
        have hfill := hwritten template (by rw [← hjoin]; exact List.mem_cons_self)
        rw [hvalue, hfill, String.ofList_toList]
      | cons hole holes =>
        obtain ⟨rest, hrest, rfl⟩ := Option.map_eq_some_iff.1 hparts
        rw [Rule.templateText?_written] at htemplate
        obtain ⟨filled, hfilled, rfl⟩ := Option.map_eq_some_iff.1 htemplate
        have hchunk := hwritten chunk List.mem_cons_self
        rw [evaluateParts?]
        cases hkind : hole.withoutParens.kind with
        | name name =>
          rw [hkind] at hfilled hnames
          obtain ⟨later, hlater, rfl⟩ := Option.map_eq_some_iff.1 hfilled
          obtain ⟨hname, hvalue⟩ := hnames name (List.mem_append_right _ List.mem_cons_self)
          have hlater' := ih hrest hlater
            (fun other hother ↦
              hnames other (List.mem_append_right _ (List.mem_cons_of_mem _ hother)))
            (fun text htext ↦ hwritten text (List.mem_cons_of_mem _ htext))
          have htext : (chunk ++ (Rule.placeholder name ++ later)).toList =
              chunk.toList ++ ((Rule.placeholder name).toList ++ later.toList) := by
            rw [String.toList_append, String.toList_append]
          dsimp only
          rw [hlater', Option.map_some, htext, Lookup.fill_append_placeholder hname hvalue, hchunk,
            String.ofList_append, String.ofList_append, String.ofList_toList, ArgumentValue.render,
            String.ofList_toList, String.append_assoc]
        | _ =>
          rw [hkind] at hfilled
          cases hfilled

end Literal

/-! ## The lookup in the place of a literal -/

def boundTo (values : String → String) (arguments : List LookupArgument) : List Argument :=
  arguments.map fun argument ↦ ⟨argument.name, .text (values argument.expression)⟩

theorem names_boundTo (values : String → String) (arguments : List LookupArgument) :
    (boundTo values arguments).map Argument.name = arguments.map LookupArgument.name := by
  unfold boundTo
  rw [List.map_map]
  rfl

/-- Among the arguments of a call, a name has the value of the expression that it stands for. -/
theorem argument?_boundTo {name : String} {names : List String} (h : name ∈ names)
    (values : String → String) :
    Lookup.argument? (boundTo values (names.map fun name ↦ ⟨name, name⟩)) name =
      some (.text (values name)) := by
  induction names with
  | nil => cases h
  | cons first others ih =>
    unfold Lookup.argument? boundTo
    rw [List.map_cons, List.map_cons, List.find?_cons]
    by_cases hsame : first = name
    · rw [hsame]
      simp
    · have hne : (first == name) = false := beq_eq_false_iff_ne.2 hsame
      have hmem : name ∈ others := by
        rcases List.mem_cons.1 h with heq | hmem
        · exact absurd heq.symm hsame
        · exact hmem
      rw [hne]
      exact ih hmem

namespace Literal

variable {node : Node} {literal : Literal} {site : Site} {text : List Char} {excluded : List String}

/-- A literal whose text means the same to a lookup as to the program: a placeholder may hold its
names, its own text has no placeholder of them, and no expression that counts one of them. -/
structure IsPlain (literal : Literal) (found : Match) : Prop where
  names : ∀ argument ∈ found.arguments, Lookup.IsName argument.name
  written : ∀ text ∈ literal.writtenTexts, ∀ name ∈ Lookup.placeholderNames text.toList,
    name ∉ found.arguments.map LookupArgument.name
  plural : ¬ Lookup.Counts found.template (found.arguments.map LookupArgument.name)

/-- What is found at the site of a literal. -/
theorem exists_parts_of_siteOf? (hliteral : ofContainer? node = some literal)
    (hsite : Collection.siteOf? text excluded node = some site) :
    ∃ parts, Collection.templateParts? literal.chunks literal.holes = some parts ∧
      Rule.templateText? parts = some site.found.template ∧
      site.found.arguments = (Rule.identifiers parts).map (fun name ↦ ⟨name, name⟩) ∧
      site.slot = .expression := by
  unfold ofContainer? at hliteral
  split at hliteral
  · next inner =>
    split at hliteral
    · next hinner =>
      cases hliteral
      simp only [Collection.siteOf?, Collection.templateSite?, hinner] at hsite
      obtain ⟨parts, hparts, hfound⟩ := Option.bind_eq_some_iff.1 hsite
      obtain ⟨found, hmatch, rfl⟩ := Option.map_eq_some_iff.1 hfound
      unfold Rule.evaluate Rule.matchTemplate at hmatch
      dsimp only at hmatch
      split at hmatch
      · next template htemplate =>
        split at hmatch
        · cases hmatch
          exact ⟨parts, hparts, htemplate, rfl, rfl⟩
        · cases hmatch
      · cases hmatch
    · cases hliteral
  · cases hliteral

/-- A plain literal evaluates to what filling its template gives. -/
theorem IsPlain.evaluate?_eq_fill (hplain : literal.IsPlain site.found)
    (hliteral : ofContainer? node = some literal)
    (hsite : Collection.siteOf? text excluded node = some site) (values : String → String) :
    literal.evaluate? values =
      some (String.ofList
        (Lookup.fill (boundTo values site.found.arguments) site.found.template.toList)) := by
  obtain ⟨parts, hparts, htemplate, harguments, -⟩ := exists_parts_of_siteOf? hliteral hsite
  apply evaluateParts?_eq_fill hparts htemplate
  · intro name hname
    have hmem := Rule.mem_identifiers hname
    constructor
    · refine hplain.names ⟨name, name⟩ ?_
      rw [harguments]
      exact List.mem_map.2 ⟨name, hmem, rfl⟩
    · rw [harguments]
      exact argument?_boundTo hmem values
  · intro written hwritten
    apply Lookup.fill_eq_self
    intro name hname
    apply Lookup.argument?_eq_none
    rw [names_boundTo]
    exact hplain.written written hwritten name hname

end Literal

namespace Conversion

variable {options : ConversionOptions} {path : Path} {scope code : String}
variable {before after : KeyedCatalog} {conversion : Conversion} {module : Syntax.Module}
variable {node : Node} {literal : Literal} {call : KeyedSite}

/-- Every template literal of a source is read, after the source was converted, as the text that it
evaluates to. -/
def KeepsMeaning (options : ConversionOptions) (path : Path) (scope code : String)
    (before : KeyedCatalog) : Prop :=
  ∀ module conversion after, Syntax.Module.parse? path.hasMarkup code = some module →
    ofSource options path scope code before = .ok (conversion, after) →
      ∀ node ∈ Node.allOf module.items, ∀ literal, Literal.ofContainer? node = some literal →
        ∀ call ∈ (assignKeys (.start scope) before
            (Collection.ofModule options.excluded module).sites).1,
          Collection.siteOf? module.text options.excluded node = some call.site →
            ∀ values, literal.evaluate? values = some (Lookup.resolve after.entries call.key
              (boundTo values call.site.found.arguments))

/-- Whether a literal of a source is read otherwise than it evaluates, for some values. -/
def changesMeaning (options : ConversionOptions) (path : Path) (scope code : String)
    (before : KeyedCatalog) (values : String → String) : Bool :=
  match Syntax.Module.parse? path.hasMarkup code, ofSource options path scope code before with
  | some module, .ok (_, after) =>
    let calls := (assignKeys (.start scope) before
      (Collection.ofModule options.excluded module).sites).1
    (Node.allOf module.items).any fun node ↦
      match Literal.ofContainer? node with
      | some literal =>
        calls.any fun call ↦
          decide (Collection.siteOf? module.text options.excluded node = some call.site) &&
            decide (literal.evaluate? values ≠ some (Lookup.resolve after.entries call.key
              (boundTo values call.site.found.arguments)))
      | none => false
  | _, _ => false

/-- A source with one literal that is read otherwise is one whose meaning is not kept. -/
theorem not_keepsMeaning (values : String → String)
    (h : changesMeaning options path scope code before values = true) :
    ¬ KeepsMeaning options path scope code before := by
  intro hkeeps
  unfold changesMeaning at h
  split at h
  · next module conversion after hmodule hconverted =>
    obtain ⟨node, hnode, hany⟩ := List.any_eq_true.1 h
    split at hany
    · next literal hliteral =>
      obtain ⟨call, hcall, hdiffers⟩ := List.any_eq_true.1 hany
      obtain ⟨hsite, hne⟩ := Bool.and_eq_true_iff.1 hdiffers
      exact of_decide_eq_true hne (hkeeps module conversion after hmodule hconverted node hnode
        literal hliteral call hcall (of_decide_eq_true hsite) values)
    · cases hany
  · cases h

def showing (literal : String) : String :=
  "import \x7b t \x7d from \"localise-ai-sdk\";\nconst a = <p>\x7b\x60" ++ literal ++ "\x60\x7d</p>;\n"

/-- The catalog in which a greeting is stored without blanks at its edges. -/
def greetings : Catalog :=
  .ofList [("greeting", "Hi \x7b\x7bname\x7d\x7d")]

/-- A literal loses its blanks to the template of another one. Its own text is read as a placeholder
or as a plural expression, and a name with a letter outside of ASCII is no placeholder. -/
theorem not_keepsMeaning_showing :
    ¬ KeepsMeaning plainOptions ⟨"a.tsx"⟩ "a" (showing " Hi $\x7bname\x7d ") (.ofCatalog greetings) ∧
      ¬ KeepsMeaning plainOptions ⟨"a.tsx"⟩ "a" (showing "\x7b\x7bname\x7d\x7d is $\x7bname\x7d")
        (.ofCatalog .empty) ∧
      ¬ KeepsMeaning plainOptions ⟨"a.tsx"⟩ "a" (showing "\x7bn, plural, other \x7bmany\x7d\x7d of $\x7bn\x7d")
        (.ofCatalog .empty) ∧
      ¬ KeepsMeaning plainOptions ⟨"a.tsx"⟩ "a" (showing "Hi $\x7bgröße\x7d") (.ofCatalog .empty) := by
  refine ⟨?_, ?_, ?_, ?_⟩
  · exact not_keepsMeaning (fun _ ↦ "Ana") (by decide +kernel)
  · exact not_keepsMeaning (fun _ ↦ "Ana") (by decide +kernel)
  · exact not_keepsMeaning (fun _ ↦ "1") (by decide +kernel)
  · exact not_keepsMeaning (fun _ ↦ "Ana") (by decide +kernel)

/-- After a conversion a call stands in the place of a plain literal, and its lookup gives what the
literal evaluates to, with the blanks at the edges of the template that the key holds. Where that is
the template of the literal itself, it gives exactly what the literal evaluates to. -/
theorem resolve_plainLiteral {loaded : Catalog} {inserted : List (String × String)}
    (hconverted : ofSource options path scope code
      ((KeyedCatalog.ofCatalog loaded).insertAll inserted) = .ok (conversion, after))
    (hmodule : Syntax.Module.parse? path.hasMarkup code = some module)
    (hcall : call ∈ (assignKeys (.start scope) ((KeyedCatalog.ofCatalog loaded).insertAll inserted)
      (Collection.ofModule options.excluded module).sites).1)
    (hliteral : Literal.ofContainer? node = some literal)
    (hsite : Collection.siteOf? module.text options.excluded node = some call.site)
    (hplain : literal.IsPlain call.site.found) :
    (∃ edits, Edit.applyAll? code edits = some conversion.output ∧ siteEdit call ∈ edits ∧
      (siteEdit call).text = lookupCall call.key call.site.found.arguments) ∧
      ∃ stored, after.get? call.key = some stored ∧
        Text.trim stored = Text.trim call.site.found.template ∧
        ∀ values, ∃ middle,
          literal.evaluate? values = some (Text.lead call.site.found.template ++ middle ++
            Text.trail call.site.found.template) ∧
          Lookup.resolve after.entries call.key (boundTo values call.site.found.arguments) =
            Text.lead stored ++ middle ++ Text.trail stored := by
  have hindexed : ((KeyedCatalog.ofCatalog loaded).insertAll inserted).Indexed :=
    (KeyedCatalog.indexed_ofCatalog loaded).insertAll inserted
  obtain ⟨same, hsame, houtcome⟩ := ofSource_eq_ok_iff.1 hconverted
  cases hmodule.symm.trans hsame
  obtain ⟨added, hassigned, -⟩ := assigned_assignKeys hindexed (.start scope)
    (Collection.ofModule options.excluded module).sites
  obtain ⟨output, happly, houtput⟩ := Option.map_eq_some_iff.1 (ofModule?_eq_some_iff.1 houtcome).2
  cases houtput
  constructor
  · refine ⟨_, happly, List.mem_append_left _ (List.mem_map_of_mem hcall), ?_⟩
    obtain ⟨-, -, -, -, hslot⟩ := Literal.exists_parts_of_siteOf? hliteral hsite
    show replacement call = _
    unfold replacement
    rw [hslot]
  · obtain ⟨stored, hstored, htrim⟩ := hassigned.texts call hcall
    refine ⟨stored, hstored, htrim, fun values ↦ ?_⟩
    have hvisible := Collection.trim_ne_empty_of_mem_sites (site_mem_of_mem_assignKeys hcall)
    have huncounted : ¬ Lookup.Counts call.site.found.template
        ((boundTo values call.site.found.arguments).map Argument.name) := by
      rw [names_boundTo]
      exact hplain.plural
    refine ⟨String.ofList (Lookup.fill (boundTo values call.site.found.arguments)
      (Text.trimChars call.site.found.template.toList)), ?_, ?_⟩
    · rw [hplain.evaluate?_eq_fill hliteral hsite, Lookup.fill_edges]
    · exact Lookup.resolve_of_trim_eq hstored htrim hvisible huncounted

def greeting : Literal where
  chunks := [some " Hi ", some " "]
  holes := [.mk (.name "name") ⟨58, 62⟩ []]

def greetingContainer : Node :=
  .mk .container ⟨50, 66⟩ [.mk (.template greeting.chunks) ⟨51, 65⟩ greeting.holes]

def greetingCall : KeyedSite where
  site := ⟨51, 65, .expression, ⟨.text, " Hi \x7b\x7bname\x7d\x7d ", [⟨"name", "name"⟩]⟩⟩
  key := "greeting"

theorem isPlain_greeting : greeting.IsPlain greetingCall.site.found where
  names := by
    intro argument hargument
    rw [List.mem_singleton.1 hargument]
    exact ⟨'n', ['a', 'm', 'e'], rfl, rfl, List.all_eq_true.1 rfl⟩
  written := by decide +kernel
  plural := by
    rintro ⟨plural, hplural, -⟩
    have hnone : (Plural.expressionOf? greetingCall.site.found.template).isNone = true := by
      decide +kernel
    rw [hplural] at hnone
    cases hnone

theorem resolve_plainLiteral_greeting :
    ∃ conversion after stored middle,
      ofSource plainOptions ⟨"a.tsx"⟩ "a" (showing " Hi $\x7bname\x7d ")
        ((KeyedCatalog.ofCatalog greetings).insertAll []) = .ok (conversion, after) ∧
      after.get? "greeting" = some stored ∧
      greeting.evaluate? (fun _ ↦ "Ana") = some (" " ++ middle ++ " ") ∧
      Lookup.resolve after.entries "greeting" [⟨"name", .text "Ana"⟩] =
        Text.lead stored ++ middle ++ Text.trail stored := by
  have hparsed : (Syntax.Module.parse? (Path.hasMarkup ⟨"a.tsx"⟩)
      (showing " Hi $\x7bname\x7d ")).map (fun module ↦ (assignKeys (.start "a")
        ((KeyedCatalog.ofCatalog greetings).insertAll [])
        (Collection.ofModule plainOptions.excluded module).sites).1) = some [greetingCall] := by
    decide +kernel
  have hok : (ofSource plainOptions ⟨"a.tsx"⟩ "a" (showing " Hi $\x7bname\x7d ")
      ((KeyedCatalog.ofCatalog greetings).insertAll [])).toBool = true := by
    decide +kernel
  obtain ⟨module, hmodule, hcalls⟩ := Option.map_eq_some_iff.1 hparsed
  have hsite : Collection.siteOf? module.text plainOptions.excluded greetingContainer =
      some greetingCall.site := by
    show Collection.templateSite? plainOptions.excluded greetingContainer.parts = _
    decide +kernel
  cases hconverted : ofSource plainOptions ⟨"a.tsx"⟩ "a" (showing " Hi $\x7bname\x7d ")
      ((KeyedCatalog.ofCatalog greetings).insertAll []) with
  | error fault =>
    rw [hconverted] at hok
    cases hok
  | ok outcome =>
    obtain ⟨conversion, after⟩ := outcome
    obtain ⟨-, stored, hstored, -, hresolve⟩ := resolve_plainLiteral hconverted hmodule
      (by rw [hcalls]; exact List.mem_cons_self) rfl hsite isPlain_greeting
    obtain ⟨middle, hvalue, hlookup⟩ := hresolve fun _ ↦ "Ana"
    have hlead : Text.lead greetingCall.site.found.template = " " := by decide +kernel
    have htrail : Text.trail greetingCall.site.found.template = " " := by decide +kernel
    rw [hlead, htrail] at hvalue
    exact ⟨conversion, after, stored, middle, rfl, hstored, hvalue, hlookup⟩

end Conversion

end Phrasebook
