import Phrasebook.Proofs.Path.Parent

/-!
# Specifiers of directories

A specifier has to begin with a step, for a name at its start is taken for a package, and it has to
lead from the directory of the importing module to the directory that is meant, wherever both paths
start from. The names of two paths that stay below their start are all that this depends on. Steps
that lead out of the start are forgotten, so a specifier is right only if both paths take equally
many of them; and a name that begins with two dots is taken for a step upward.
-/

namespace Phrasebook.Path

def Component.stepFrom (place : List String) : Component → List String
  | root => []
  | here => place
  | up => place.dropLast
  | name text => place ++ [text]

def leadsFrom (path : Path) (place : List String) : List String :=
  path.components.foldl Component.stepFrom place

/-- A text under which a module in one directory imports from another one: it begins with a step,
and it leads from the one to the other, whatever place the two paths start from. -/
structure Imports (specifier : String) (origin target : Path) : Prop where
  begins : (Path.mk specifier).components.head? = some .here ∨
    (Path.mk specifier).components.head? = some .up
  leads : ∀ place,
    (Path.mk specifier).leadsFrom (origin.leadsFrom place) = target.leadsFrom place

theorem foldl_up (place names : List String) :
    (List.replicate names.length Component.up).foldl Component.stepFrom (place ++ names) =
      place := by
  induction names using List.reverseRecOn with
  | nil => simp
  | append_singleton names last ih =>
    have hstep : Component.stepFrom (place ++ (names ++ [last])) .up = place ++ names := by
      simp [Component.stepFrom, ← List.append_assoc]
    rw [List.length_append, List.length_singleton, List.replicate_succ, List.foldl_cons, hstep, ih]

theorem foldl_name (place names : List String) :
    (names.map Component.name).foldl Component.stepFrom place = place ++ names := by
  induction names generalizing place with
  | nil => simp
  | cons name others ih => simp [Component.stepFrom, ih]

/-- The number of steps upward that lead out of the start, when `depth` names are below it. -/
def climbsFrom : Nat → List Component → Nat
  | _, [] => 0
  | depth, .name _ :: rest => climbsFrom (depth + 1) rest
  | 0, .up :: rest => climbsFrom 0 rest + 1
  | depth + 1, .up :: rest => climbsFrom depth rest
  | depth, _ :: rest => climbsFrom depth rest

/-- The number of steps upward of a path that lead out of the place it starts from. -/
def climbs (path : Path) : Nat :=
  climbsFrom 0 path.components

def above (count : Nat) (place : List String) : List String :=
  place.take (place.length - count)

theorem above_succ (count : Nat) (place : List String) :
    above (count + 1) place = above count place.dropLast := by
  rw [above, above, List.dropLast_eq_take, List.take_take, List.length_take]
  congr 1
  omega

/-- Paths that take steps out of their start in different numbers lead to different places. -/
theorem above_inj {first second : Nat} (h : ∀ place, above first place = above second place) :
    first = second := by
  have hlength := congrArg List.length (h (List.replicate (first + second) ""))
  simp only [above, List.length_take, List.length_replicate] at hlength
  omega

/-- Names that are left of components, where each step upward takes one away. -/
def namesFrom (names : List String) (components : List Component) : List String :=
  components.foldl
    (fun names part ↦
      match part with
      | .name text => names ++ [text]
      | .up => names.dropLast
      | _ => names)
    names

theorem resolvedNames_eq (path : Path) : path.resolvedNames = namesFrom [] path.components := rfl

/-- Components lead so many steps above the start as lead out of it, and from there to the names
that are left of them. -/
theorem foldl_stepFrom {components : List Component} (hroot : .root ∉ components)
    (place names : List String) :
    components.foldl Component.stepFrom (place ++ names) =
      above (climbsFrom names.length components) place ++ namesFrom names components := by
  induction components generalizing place names with
  | nil => simp [climbsFrom, namesFrom, above]
  | cons component rest ih =>
    have hrest : .root ∉ rest := fun hmem ↦ hroot (List.mem_cons_of_mem _ hmem)
    cases component with
    | root => exact absurd List.mem_cons_self hroot
    | here => cases names <;> exact ih hrest place _
    | name text =>
      have hlength : (names ++ [text]).length = names.length + 1 := by simp
      have hnext := ih hrest place (names ++ [text])
      rw [hlength, ← List.append_assoc] at hnext
      exact hnext
    | up =>
      by_cases hnames : names = []
      · subst hnames
        have hnext := ih hrest place.dropLast []
        rw [List.append_nil] at hnext ⊢
        rw [List.length_nil, climbsFrom, above_succ]
        exact hnext
      · have hlength : names.length = names.dropLast.length + 1 := by
          have hpos := List.length_pos_iff.2 hnames
          rw [List.length_dropLast]
          omega
        rw [List.foldl_cons, Component.stepFrom, List.dropLast_append_of_ne_nil hnames,
          ih hrest place names.dropLast, hlength, climbsFrom]
        rfl

/-- A component is the root of an absolute path, the dot at the start, or what a field stands for.
-/
theorem mem_components {path : Path} {component : Component} (h : component ∈ path.components) :
    (component = .root ∧ path.isAbsolute = true) ∨ component = .here ∨
      ∃ raw ∈ Text.fields '/' path.text.toList, (Piece.inner raw).component? = some component := by
  have htext := Text.intercalate_fields '/' path.text.toList
  obtain ⟨piece, hpiece, hcomponent⟩ := List.mem_filterMap.1 h
  rw [pieces_eq] at hpiece
  revert hpiece htext
  generalize Text.fields '/' path.text.toList = fields
  intro htext hpiece
  unfold piecesOf at hpiece
  split at hpiece
  · next next others =>
    rcases List.mem_cons.1 hpiece with rfl | hinner
    · refine .inl ⟨(Option.some.inj hcomponent).symm, ?_⟩
      rw [isAbsolute, ← htext, List.intercalate_cons_cons]
      rfl
    · obtain ⟨raw, hraw, rfl⟩ := List.mem_map.1 hinner
      exact .inr (.inr ⟨raw, List.mem_cons_of_mem _ hraw, hcomponent⟩)
  · rcases List.mem_cons.1 hpiece with rfl | hinner
    · exact .inr (.inl (Option.some.inj hcomponent).symm)
    · obtain ⟨raw, hraw, rfl⟩ := List.mem_map.1 hinner
      exact .inr (.inr ⟨raw, List.mem_cons_of_mem _ hraw, hcomponent⟩)
  · obtain ⟨raw, hraw, rfl⟩ := List.mem_map.1 hpiece
    exact .inr (.inr ⟨raw, hraw, hcomponent⟩)

theorem not_root_mem_components {path : Path} (h : path.isAbsolute = false) :
    .root ∉ path.components := by
  intro hmem
  rcases mem_components hmem with ⟨-, habsolute⟩ | hhere | ⟨raw, -, hraw⟩
  · rw [h] at habsolute
    cases habsolute
  · cases hhere
  · unfold Piece.inner at hraw
    split_ifs at hraw <;> cases hraw

theorem isName_of_mem_components {path : Path} {text : String}
    (h : .name text ∈ path.components) : IsName text := by
  rcases mem_components h with ⟨hroot, -⟩ | hhere | ⟨raw, hfield, hraw⟩
  · cases hroot
  · cases hhere
  · unfold Piece.inner at hraw
    split_ifs at hraw with hnone hup
    · cases hraw
    · obtain rfl : String.ofList raw = text := Component.name.inj (Option.some.inj hraw)
      simp only [Bool.or_eq_true, List.isEmpty_iff, beq_iff_eq, not_or] at hnone hup
      constructor
      · simpa using Text.not_mem_of_mem_fields hfield
      · simpa using hnone.1
      · simpa using hnone.2
      · simpa using hup

/-- A step upward takes a name away and adds none. -/
theorem mem_namesFrom {components : List Component} {names : List String} {text : String}
    (h : text ∈ namesFrom names components) : text ∈ names ∨ .name text ∈ components := by
  induction components generalizing names with
  | nil => exact .inl h
  | cons component rest ih =>
    cases component with
    | root => exact (ih h).imp_right (List.mem_cons_of_mem _)
    | here => exact (ih h).imp_right (List.mem_cons_of_mem _)
    | up => exact (ih h).imp (List.dropLast_subset _ ·) (List.mem_cons_of_mem _)
    | name other =>
      rcases ih h with hnames | hrest
      · rcases List.mem_append.1 hnames with hmem | hlast
        · exact .inl hmem
        · rw [List.mem_singleton.1 hlast]
          exact .inr List.mem_cons_self
      · exact .inr (List.mem_cons_of_mem _ hrest)

theorem isName_of_mem_resolvedNames {path : Path} {text : String}
    (h : text ∈ path.resolvedNames) : IsName text := by
  rw [resolvedNames_eq] at h
  rcases mem_namesFrom h with hnil | hcomponent
  · exact absurd hnil List.not_mem_nil
  · exact isName_of_mem_components hcomponent

/-- Two lists of names begin with the names that they have in common, and part behind them. -/
theorem exists_commonLength (first second : List String) :
    ∃ shared behind ahead, first = shared ++ behind ∧ second = shared ++ ahead ∧
      commonLength first second = shared.length ∧ (behind.head? = ahead.head? → behind = []) := by
  fun_induction commonLength first second with
  | case1 firsts name seconds ih =>
    obtain ⟨shared, behind, ahead, rfl, rfl, hlength, hpart⟩ := ih
    exact ⟨name :: shared, behind, ahead, rfl, rfl, by rw [hlength, List.length_cons], hpart⟩
  | case2 name firsts other seconds hne =>
    exact ⟨[], _, _, rfl, rfl, rfl, fun hhead ↦ absurd (Option.some.inj hhead) hne⟩
  | case3 firsts seconds hnone =>
    refine ⟨[], _, _, rfl, rfl, rfl, fun hhead ↦ ?_⟩
    cases firsts with
    | nil => rfl
    | cons name others =>
      cases seconds with
      | nil => cases hhead
      | cons other rest => exact (hnone name others other rest rfl rfl).elim

/-! ## The text of a specifier -/

/-- Steps upward and the names of the way down behind them, joined by slashes. -/
def joined (ups : Nat) (names : List String) : String :=
  "/".intercalate (List.replicate ups ".." ++ names)

variable {names : List String} {ups : Nat}

theorem toList_joined (ups : Nat) (names : List String) :
    (joined ups names).toList =
      ['/'].intercalate (List.replicate ups ['.', '.'] ++ names.map String.toList) := by
  rw [joined, String.toList_intercalate, List.map_append, List.map_replicate]
  rfl

/-- The fields of joined steps and names are two dots for each step, and then the names. -/
theorem fields_joined (h : ∀ name ∈ names, IsName name) (hne : 0 < ups ∨ names ≠ []) :
    Text.fields '/' (joined ups names).toList =
      List.replicate ups ['.', '.'] ++ names.map String.toList := by
  rw [toList_joined]
  refine Text.fields_intercalate (fun field hfield ↦ ?_) ?_
  · rcases List.mem_append.1 hfield with hup | hname
    · rw [List.eq_of_mem_replicate hup]
      decide
    · obtain ⟨name, hmem, rfl⟩ := List.mem_map.1 hname
      exact (h name hmem).no_slash
  · rcases hne with hpos | hnames
    · simp [Nat.pos_iff_ne_zero.1 hpos]
    · simp [hnames]

theorem ne_of_mem_fields_joined (h : ∀ name ∈ names, IsName name) {field : List Char}
    (hfield : field ∈ List.replicate ups ['.', '.'] ++ names.map String.toList) :
    field ≠ [] ∧ field ≠ ['.'] := by
  rcases List.mem_append.1 hfield with hup | hname
  · rw [List.eq_of_mem_replicate hup]
    decide
  · obtain ⟨name, hmem, rfl⟩ := List.mem_map.1 hname
    exact ⟨(h name hmem).ne_empty, (h name hmem).ne_here⟩

theorem filterMap_inner (h : ∀ name ∈ names, IsName name) (ups : Nat) :
    ((List.replicate ups ['.', '.'] ++ names.map String.toList).map Piece.inner).filterMap
        (·.component?) =
      List.replicate ups .up ++ names.map .name := by
  have hup : (Piece.inner ['.', '.']).component? = some .up := rfl
  rw [List.map_append, List.filterMap_append, List.map_replicate,
    List.filterMap_replicate_of_some hup, List.map_map, List.filterMap_map,
    List.filterMap_congr (g := fun name ↦ some (Component.name name))]
  · rw [List.filterMap_eq_map']
  · exact fun name hname ↦ by simp [(h name hname).inner]

theorem joined_eq_empty_iff (h : ∀ name ∈ names, IsName name) :
    joined ups names = "" ↔ ups = 0 ∧ names = [] := by
  constructor
  · intro hempty
    by_contra hne
    rw [not_and_or, ← ne_eq, ← Nat.pos_iff_ne_zero] at hne
    have hfields := fields_joined h hne
    rw [hempty] at hfields
    have hmem : [] ∈ List.replicate ups ['.', '.'] ++ names.map String.toList :=
      hfields ▸ List.mem_cons_self
    exact (ne_of_mem_fields_joined h hmem).1 rfl
  · rintro ⟨rfl, rfl⟩
    rfl

/-- Steps upward and names are read back from the text that they are joined to. -/
theorem components_joined (h : ∀ name ∈ names, IsName name) (hne : 0 < ups ∨ names ≠ []) :
    (Path.mk (joined ups names)).components = List.replicate ups .up ++ names.map .name := by
  rw [components, pieces_eq, fields_joined h hne, ← filterMap_inner h ups]
  cases hfields : List.replicate ups ['.', '.'] ++ names.map String.toList with
  | nil => rfl
  | cons first others =>
    have hfirst : first ∈ List.replicate ups ['.', '.'] ++ names.map String.toList :=
      hfields ▸ List.mem_cons_self
    obtain ⟨hempty, hhere⟩ := ne_of_mem_fields_joined h hfirst
    rw [piecesOf_cons hempty hhere]

/-- Behind a dot and a slash, steps upward and names are read back as they were joined. -/
theorem components_here_joined (h : ∀ name ∈ names, IsName name) (hne : 0 < ups ∨ names ≠ []) :
    (Path.mk ("./" ++ joined ups names)).components =
      .here :: (List.replicate ups .up ++ names.map .name) := by
  have htext : ("./" ++ joined ups names).toList = ['.'] ++ '/' :: (joined ups names).toList := by
    rw [String.toList_append]
    rfl
  have hdot : Text.fields '/' ['.'] = [['.']] := rfl
  rw [components, pieces_eq, htext, Text.fields_append_cons, hdot, fields_joined h hne,
    ← filterMap_inner h ups]
  rfl

theorem begins_intercalate (first : List Char) (others : List (List Char)) :
    first <+: ['/'].intercalate (first :: others) := by
  cases others with
  | nil => simp
  | cons second others =>
    rw [List.intercalate_cons_cons, List.append_assoc]
    exact List.prefix_append _ _

/-- Joined texts begin with two dots if there is a step upward, or the first name begins so. -/
theorem startsWith_joined_iff (h : ∀ name ∈ names, IsName name) :
    (joined ups names).startsWith ".." ↔
      0 < ups ∨ ∃ name others, names = name :: others ∧ name.startsWith ".." := by
  have hdots : "..".toList = ['.', '.'] := rfl
  rw [String.startsWith_string_iff, toList_joined, hdots]
  cases ups with
  | succ ups =>
    rw [List.replicate_succ, List.cons_append]
    exact iff_of_true (begins_intercalate _ _) (.inl (Nat.succ_pos ups))
  | zero =>
    cases names with
    | nil => simp
    | cons name others =>
      obtain ⟨rest, hrest⟩ := begins_intercalate name.toList (others.map String.toList)
      -- a name of one character is no dot, so both dots are in the name if they are anywhere
      have hbegins : ['.', '.'] <+: name.toList ++ rest ↔ ['.', '.'] <+: name.toList := by
        obtain ⟨-, hempty, hhere, -⟩ := h name List.mem_cons_self
        rcases hname : name.toList with _ | ⟨c, _ | ⟨d, more⟩⟩
        · exact absurd hname hempty
        · have hdot : '.' ≠ c := fun hsame ↦ hhere (hname.trans (hsame ▸ rfl))
          simp [List.cons_prefix_cons, hdot]
        · simp [List.cons_prefix_cons]
      rw [List.replicate_zero, List.nil_append, List.map_cons, ← hrest, hbegins]
      simp [String.startsWith_string_iff]

/-! ## What a specifier leads to -/

/-- The components of a specifier are steps upward and the names of the way down; the dot in front
is left out before a step upward, and before a name that looks like one. -/
theorem exists_components_specifier (origin target : Path) :
    ∃ shared behind ahead, origin.resolvedNames = shared ++ behind ∧
      target.resolvedNames = shared ++ ahead ∧ (behind.head? = ahead.head? → behind = []) ∧
      (∀ name ∈ ahead, IsName name) ∧
      (Path.mk (specifier origin target)).components =
        (if (joined behind.length ahead).startsWith ".." then [] else [.here]) ++
          (List.replicate behind.length .up ++ ahead.map .name) := by
  obtain ⟨shared, behind, ahead, hsource, hgoal, hlength, hpart⟩ :=
    exists_commonLength origin.resolvedNames target.resolvedNames
  have hnames : ∀ name ∈ ahead, IsName name := fun name hname ↦ by
    have hmem : name ∈ target.resolvedNames := hgoal ▸ List.mem_append_right _ hname
    exact isName_of_mem_resolvedNames hmem
  have hjoined : "/".intercalate
      (List.replicate (origin.resolvedNames.length -
        commonLength origin.resolvedNames target.resolvedNames) ".." ++
          target.resolvedNames.drop (commonLength origin.resolvedNames target.resolvedNames)) =
      joined behind.length ahead := by
    rw [hlength, hsource, hgoal, List.drop_left, List.length_append, Nat.add_sub_cancel_left]
    rfl
  refine ⟨shared, behind, ahead, hsource, hgoal, hpart, hnames, ?_⟩
  unfold specifier
  simp only [hjoined]
  by_cases hdots : (joined behind.length ahead).startsWith ".."
  · rw [if_pos hdots, if_pos hdots, List.nil_append]
    refine components_joined hnames ?_
    rcases (startsWith_joined_iff hnames).1 hdots with hups | ⟨name, others, rfl, -⟩
    · exact .inl hups
    · exact .inr (List.cons_ne_nil _ _)
  · rw [if_neg hdots, if_neg hdots]
    by_cases hempty : joined behind.length ahead = ""
    · obtain ⟨hups, rfl⟩ := (joined_eq_empty_iff hnames).1 hempty
      rw [hups, if_pos (by rw [← hups, hempty]; rfl)]
      rfl
    · rw [if_neg (by rwa [String.isEmpty_iff])]
      refine components_here_joined hnames ?_
      rw [joined_eq_empty_iff hnames, not_and_or, ← ne_eq, ← Nat.pos_iff_ne_zero] at hempty
      exact hempty

/-- Below one place, a specifier leads from the names of the one path to those of the other. -/
theorem leadsFrom_specifier (origin target : Path) (place : List String) :
    (Path.mk (specifier origin target)).leadsFrom (place ++ origin.resolvedNames) =
      place ++ target.resolvedNames := by
  obtain ⟨shared, behind, ahead, hsource, hgoal, -, -, hcomponents⟩ :=
    exists_components_specifier origin target
  have hdot (place : List String) (dot : Prop) [Decidable dot] :
      (if dot then [] else [Component.here]).foldl Component.stepFrom place = place := by
    split <;> rfl
  rw [leadsFrom, hcomponents, hsource, hgoal, List.foldl_append, hdot, List.foldl_append,
    ← List.append_assoc, foldl_up, foldl_name, List.append_assoc]

/-- A specifier begins with a step unless the first name of a way that only leads down begins with
two dots. -/
theorem begins_specifier_iff (origin target : Path) :
    ((Path.mk (specifier origin target)).components.head? = some .here ∨
        (Path.mk (specifier origin target)).components.head? = some .up) ↔
      ∀ name others, target.resolvedNames = origin.resolvedNames ++ name :: others →
        ¬ name.startsWith ".." := by
  obtain ⟨shared, behind, ahead, hsource, hgoal, hpart, hnames, hcomponents⟩ :=
    exists_components_specifier origin target
  have hstarts : (joined behind.length ahead).startsWith ".." ↔
      0 < behind.length ∨ ∃ name others, ahead = name :: others ∧ name.startsWith ".." :=
    startsWith_joined_iff hnames
  rw [hcomponents, hsource, hgoal]
  cases behind with
  | cons first others =>
    have hdots : (joined (first :: others).length ahead).startsWith ".." :=
      hstarts.2 (.inl (Nat.succ_pos _))
    rw [if_pos hdots]
    refine iff_of_true (.inr rfl) fun name names hsame ↦ ?_
    -- the way leads up first, so the names of the other path do not begin with all of these
    rw [List.append_assoc, List.append_cancel_left_eq] at hsame
    exact absurd (hpart (by rw [hsame]; rfl)) (List.cons_ne_nil _ _)
  | nil =>
    simp only [List.append_nil, List.append_cancel_left_eq]
    by_cases hdots : (joined 0 ahead).startsWith ".."
    · obtain ⟨name, others, rfl, hname⟩ := (hstarts.1 hdots).resolve_left (Nat.lt_irrefl 0)
      rw [List.length_nil, if_pos hdots]
      exact iff_of_false (by simp) fun hnone ↦ hnone name others rfl hname
    · rw [List.length_nil, if_neg hdots]
      exact iff_of_true (.inl rfl) fun name others hsame hname ↦
        hdots (hstarts.2 (.inr ⟨name, others, hsame, hname⟩))

/-- The specifier of a directory is right exactly if both paths take equally many steps out of their
start and no name that begins with two dots comes first on a way that only leads down. -/
theorem imports_specifier_iff {origin target : Path} (horigin : origin.isAbsolute = false)
    (htarget : target.isAbsolute = false) :
    Imports (specifier origin target) origin target ↔
      origin.climbs = target.climbs ∧
        ∀ name others, target.resolvedNames = origin.resolvedNames ++ name :: others →
          ¬ name.startsWith ".." := by
  have hleads {path : Path} (h : path.isAbsolute = false) (place : List String) :
      path.leadsFrom place = above path.climbs place ++ path.resolvedNames := by
    have hfold := foldl_stepFrom (not_root_mem_components h) place []
    rwa [List.append_nil] at hfold
  constructor
  · rintro ⟨hbegins, hplaces⟩
    refine ⟨above_inj fun place ↦ ?_, (begins_specifier_iff origin target).1 hbegins⟩
    have hplace := hplaces place
    rw [hleads horigin, hleads htarget, leadsFrom_specifier] at hplace
    exact List.append_cancel_right hplace
  · rintro ⟨hclimbs, hnames⟩
    refine ⟨(begins_specifier_iff origin target).2 hnames, fun place ↦ ?_⟩
    rw [hleads horigin, hleads htarget, leadsFrom_specifier, hclimbs]

theorem imports_specifier_locales :
    Imports (specifier ⟨"src/../app/x"⟩ ⟨"./shared/./locales"⟩) ⟨"src/../app/x"⟩
      ⟨"./shared/./locales"⟩ := by
  refine (imports_specifier_iff (by decide) (by decide)).2 ⟨by decide, fun name others hsame ↦ ?_⟩
  have hhead : some "shared" = some "app" := congrArg List.head? hsame
  exact absurd hhead (by decide)

/-- A directory beside the entry file whose name begins with two dots is imported like a package. -/
theorem not_imports_specifier_dots :
    ¬ Imports (specifier ⟨""⟩ ⟨"..locales"⟩) ⟨""⟩ ⟨"..locales"⟩ := by
  intro h
  exact absurd h.begins (by decide +kernel)

end Phrasebook.Path
