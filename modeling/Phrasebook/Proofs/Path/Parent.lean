import Mathlib.Data.List.DropRight
import Phrasebook.Proofs.Disk.Frame
import Phrasebook.Proofs.Path.Name

/-!
# The directory above a file

The path above a name in a directory is the path of the directory without the slashes and dots at
its end. It leads to where the directory is, so whoever can look for the file finds everything
above it in place.
-/

namespace Phrasebook

theorem Text.not_mem_of_mem_fields {separator : Char} {text field : List Char}
    (h : field ∈ Text.fields separator text) : separator ∉ field := by
  induction text generalizing field with
  | nil => simp_all [Text.fields]
  | cons c rest ih =>
    rw [Text.fields] at h
    by_cases hc : c = separator
    · rw [if_pos hc] at h
      rcases List.mem_cons.1 h with rfl | hmem
      · exact List.not_mem_nil
      · exact ih hmem
    · rw [if_neg hc] at h
      cases hfields : Text.fields separator rest with
      | nil =>
        simp only [hfields, List.mem_singleton] at h
        rw [h, List.mem_singleton]
        exact fun hsame ↦ hc hsame.symm
      | cons first others =>
        simp only [hfields, List.mem_cons] at h
        rcases h with rfl | hmem
        · rw [List.mem_cons, not_or]
          exact ⟨fun hsame ↦ hc hsame.symm, ih (hfields ▸ List.mem_cons_self)⟩
        · exact ih (hfields ▸ List.mem_cons_of_mem _ hmem)

theorem Text.fields_ne_nil (separator : Char) (text : List Char) :
    Text.fields separator text ≠ [] := by
  rw [Text.fields_eq_splitOn]
  exact List.splitOn_ne_nil separator text

theorem Text.intercalate_fields (separator : Char) (text : List Char) :
    [separator].intercalate (Text.fields separator text) = text := by
  rw [Text.fields_eq_splitOn, List.intercalate_splitOn]

/-- Fields that hold no separator are the fields of what they give together. -/
theorem Text.fields_intercalate {separator : Char} {fields : List (List Char)}
    (h : ∀ field ∈ fields, separator ∉ field) (hne : fields ≠ []) :
    Text.fields separator ([separator].intercalate fields) = fields := by
  rw [Text.fields_eq_splitOn, List.splitOn_intercalate separator h hne]

theorem Text.intercalate_begins {separator : List Char} {front : List (List Char)}
    (back : List (List Char)) (hne : front ≠ []) :
    separator.intercalate front <+: separator.intercalate (front ++ back) := by
  induction front with
  | nil => exact absurd rfl hne
  | cons first rest ih =>
    cases rest with
    | nil =>
      cases back with
      | nil => exact List.prefix_rfl
      | cons next others =>
        rw [List.singleton_append, List.intercalate_cons_cons, List.intercalate_singleton,
          List.append_assoc]
        exact List.prefix_append _ _
    | cons second others =>
      rw [List.cons_append, List.cons_append, List.intercalate_cons_cons,
        List.intercalate_cons_cons]
      exact (List.prefix_append_right_inj _).2 (ih (List.cons_ne_nil _ _))

namespace Path

def piecesOf : List (List Char) → List Piece
  | [] :: next :: others => ⟨some .root, []⟩ :: (next :: others).map Piece.inner
  | ['.'] :: others => ⟨some .here, ['.']⟩ :: others.map Piece.inner
  | raw => raw.map Piece.inner

theorem pieces_eq (path : Path) : path.pieces = piecesOf (Text.fields '/' path.text.toList) := rfl

theorem raw_piecesOf (fields : List (List Char)) :
    (piecesOf fields).map (fun piece ↦ piece.raw) = fields := by
  have hinner (others : List (List Char)) :
      (others.map Piece.inner).map (fun piece ↦ piece.raw) = others := by
    rw [List.map_map]
    exact List.map_id others
  unfold piecesOf
  split
  · rw [List.map_cons, hinner]
  · rw [List.map_cons, hinner]
  · exact hinner fields

theorem piecesOf_cons {first : List Char} (hempty : first ≠ []) (hhere : first ≠ ['.'])
    (others : List (List Char)) :
    piecesOf (first :: others) = (first :: others).map Piece.inner := by
  unfold piecesOf
  split <;> simp_all

/-- Fields behind others stand for what they stand for inside of a path. -/
theorem piecesOf_append {front : List (List Char)} (back : List (List Char)) (hne : front ≠ [])
    (hroot : front ≠ [[]]) : piecesOf (front ++ back) = piecesOf front ++ back.map Piece.inner := by
  cases front with
  | nil => exact absurd rfl hne
  | cons first others =>
    by_cases hempty : first = []
    · subst hempty
      cases others with
      | nil => exact absurd rfl hroot
      | cons second others => simp [piecesOf]
    · by_cases hhere : first = ['.']
      · subst hhere
        simp [piecesOf]
      · rw [List.cons_append, piecesOf_cons hempty hhere, piecesOf_cons hempty hhere,
          ← List.cons_append, List.map_append]

/-- What fields before others stand for does not depend on those behind them. -/
theorem exists_piecesOf_append {front : List (List Char)} (hne : front ≠ []) :
    ∃ before, ∀ back, back ≠ [] → piecesOf (front ++ back) = before ++ back.map Piece.inner := by
  by_cases hroot : front = [[]]
  · subst hroot
    refine ⟨[⟨some .root, []⟩], fun back hback ↦ ?_⟩
    cases back with
    | nil => exact absurd rfl hback
    | cons next others => rfl
  · exact ⟨piecesOf front, fun back _ ↦ piecesOf_append back hne hroot⟩

theorem piecesOf_singleton {last : List Char} (h : last ≠ ['.']) :
    piecesOf [last] = [Piece.inner last] := by
  unfold piecesOf
  split <;> simp_all

theorem length_piecesOf (fields : List (List Char)) : (piecesOf fields).length = fields.length := by
  rw [← List.length_map (fun piece ↦ piece.raw), raw_piecesOf]

/-- The first pieces of a path are the pieces of its first fields, unless they are the root. -/
theorem front_of_begins {fields : List (List Char)} {pieces : List Piece}
    (h : pieces <+: piecesOf fields) (hne : pieces ≠ []) :
    (pieces = [⟨some .root, []⟩] ∧ ∃ next others, fields = [] :: next :: others) ∨
      ∃ front back, fields = front ++ back ∧ front ≠ [] ∧ pieces = piecesOf front := by
  have hlength : (fields.take pieces.length).length = pieces.length := by
    rw [List.length_take, min_eq_left]
    exact h.length_le.trans_eq (length_piecesOf fields)
  have hfields := (List.take_append_drop pieces.length fields).symm
  have hfront : fields.take pieces.length ≠ [] := by
    rw [← List.length_pos_iff, hlength]
    exact List.length_pos_iff.2 hne
  revert hfields hfront hlength
  generalize fields.take pieces.length = front
  generalize fields.drop pieces.length = back
  rintro hlength rfl hfront
  by_cases hroot : front = [[]]
  · subst hroot
    cases back with
    | nil => exact .inr ⟨[[]], [], rfl, hfront, h.eq_of_length hlength.symm⟩
    | cons next others =>
      have hfirst : [⟨some .root, []⟩] <+: piecesOf ([[]] ++ next :: others) :=
        List.prefix_append _ _
      have hsame := List.prefix_of_prefix_length_le h hfirst hlength.ge
      exact .inl ⟨hsame.eq_of_length hlength.symm, next, others, rfl⟩
  · have hfirst : piecesOf front <+: piecesOf (front ++ back) := by
      rw [piecesOf_append back hfront hroot]
      exact List.prefix_append _ _
    have hsize : pieces.length = (piecesOf front).length := by
      rw [length_piecesOf, hlength]
    have hsame := List.prefix_of_prefix_length_le h hfirst hsize.le
    exact .inr ⟨front, back, rfl, hfront, hsame.eq_of_length hsize⟩

/-- The pieces of fields are never those of the root alone. -/
theorem piecesOf_ne_root (fields : List (List Char)) (raw : List Char) :
    piecesOf fields ≠ [⟨some .root, raw⟩] := by
  unfold piecesOf
  split
  · simp
  · simp
  · intro h
    obtain ⟨field, -, hfield⟩ := List.map_eq_singleton_iff.1 h
    unfold Piece.inner at hfield
    split_ifs at hfield <;> cases hfield

theorem ofPieces_piecesOf (fields : List (List Char)) :
    (ofPieces (piecesOf fields)).text.toList = ['/'].intercalate fields := by
  have htext : (ofPieces (piecesOf fields)).text =
      "/".intercalate (((piecesOf fields).map (fun piece ↦ piece.raw)).map String.ofList) := by
    rw [List.map_map]
    unfold ofPieces
    split
    · next raw heq => exact absurd heq (piecesOf_ne_root fields raw)
    · rfl
  have htoList : (fields.map String.ofList).map String.toList = fields := by
    simp
  rw [htext, raw_piecesOf, String.toList_intercalate, htoList]
  rfl

/-! ## A path without its end -/

/-- Two lists of pieces are the same but for an empty field at the end of the second one. -/
def UpToSlash (short long : List Piece) : Prop :=
  long = short ∨ long = short ++ [Piece.inner []]

theorem trimPieces_concat {piece : Piece} (before : List Piece)
    (h : piece.component?.isNone = false) : trimPieces (before ++ [piece]) = before ++ [piece] := by
  simp [trimPieces, h]

theorem UpToSlash.trimPieces {short long : List Piece} (h : UpToSlash short long) :
    Path.trimPieces long = Path.trimPieces short := by
  rcases h with rfl | rfl
  · rfl
  · simp [Path.trimPieces, Piece.inner]

theorem trimPieces_trimPieces (pieces : List Piece) :
    trimPieces (trimPieces pieces) = trimPieces pieces :=
  List.rdropWhile_idempotent _ pieces

theorem trimPieces_begins (pieces : List Piece) : trimPieces pieces <+: pieces :=
  List.rdropWhile_prefix _ pieces

/-- The path of the first pieces of a path begins it, and has these pieces. -/
theorem ofPieces_begins {path : Path} {pieces : List Piece} (h : pieces <+: path.pieces)
    (hne : pieces ≠ []) :
    (ofPieces pieces).text.toList <+: path.text.toList ∧
      UpToSlash pieces (ofPieces pieces).pieces := by
  rw [pieces_eq] at h
  have hfields := Text.intercalate_fields '/' path.text.toList
  rcases front_of_begins h hne with
    ⟨rfl, next, others, hroot⟩ | ⟨front, back, hfront, hany, rfl⟩
  · rw [← hfields, hroot, List.intercalate_cons_cons]
    exact ⟨List.prefix_append _ _, .inr rfl⟩
  · have hplain : ∀ field ∈ front, '/' ∉ field := fun field hfield ↦
      Text.not_mem_of_mem_fields (hfront ▸ List.mem_append_left back hfield)
    constructor
    · rw [← hfields, hfront, ofPieces_piecesOf]
      exact Text.intercalate_begins back hany
    · rw [pieces_eq (ofPieces _), ofPieces_piecesOf, Text.fields_intercalate hplain hany]
      exact .inl rfl

/-- A path without the slashes and dots at its end. -/
def trimmed (path : Path) : Path :=
  ofPieces (trimPieces path.pieces)

theorem Piece.isNone_inner {raw : List Char} (hempty : raw ≠ []) (hhere : raw ≠ ['.']) :
    (Piece.inner raw).component?.isNone = false := by
  have hempty' : raw.isEmpty = false := List.isEmpty_eq_false_iff.2 hempty
  have hhere' : (raw == ['.']) = false := beq_eq_false_iff_ne.2 hhere
  unfold Piece.inner
  rw [hempty', hhere', Bool.or_self, if_neg Bool.false_ne_true]
  split_ifs <;> rfl

/-- The first piece of a path that is not empty stands for something. -/
theorem exists_pieces_cons {path : Path} (h : path.text.toList ≠ []) :
    ∃ piece rest, path.pieces = piece :: rest ∧ piece.component?.isNone = false := by
  rw [pieces_eq]
  have htext := Text.intercalate_fields '/' path.text.toList
  cases hfields : Text.fields '/' path.text.toList with
  | nil => exact absurd hfields (Text.fields_ne_nil '/' _)
  | cons first others =>
    by_cases hempty : first = []
    · subst hempty
      cases others with
      | nil =>
        rw [hfields] at htext
        exact absurd htext.symm h
      | cons next others => exact ⟨_, _, rfl, rfl⟩
    · by_cases hhere : first = ['.']
      · subst hhere
        exact ⟨_, _, rfl, rfl⟩
      · exact ⟨_, _, piecesOf_cons hempty hhere others, Piece.isNone_inner hempty hhere⟩

/-- A path that is not empty still has its first piece without its end. -/
theorem exists_trimPieces_cons {path : Path} (h : path.text.toList ≠ []) :
    ∃ piece rest, trimPieces path.pieces = piece :: rest ∧ piece.component?.isNone = false := by
  obtain ⟨piece, rest, hpieces, hsome⟩ := exists_pieces_cons h
  cases htrimmed : trimPieces path.pieces with
  | nil =>
    have hall := List.rdropWhile_eq_nil_iff.1 htrimmed piece (hpieces ▸ List.mem_cons_self)
    rw [hsome] at hall
    cases hall
  | cons first others =>
    have hbegins := trimPieces_begins path.pieces
    rw [htrimmed, hpieces] at hbegins
    exact ⟨first, others, rfl, (List.cons_prefix_cons.1 hbegins).1 ▸ hsome⟩

/-- A path whose first piece stands for something is not empty. -/
theorem text_ne_nil_of_upToSlash {path : Path} {piece : Piece} {rest : List Piece}
    (hsome : piece.component?.isNone = false) (h : UpToSlash (piece :: rest) path.pieces) :
    path.text.toList ≠ [] := by
  intro hnil
  have hempty : path.pieces = [Piece.inner []] := by
    rw [pieces_eq, hnil]
    rfl
  obtain ⟨others, hcons⟩ : ∃ others, path.pieces = piece :: others := by
    rcases h with heq | heq
    · exact ⟨rest, heq⟩
    · exact ⟨rest ++ [Piece.inner []], heq⟩
  rw [hempty] at hcons
  obtain ⟨rfl, -⟩ := List.cons.inj hcons
  cases hsome

/-- A path without its end begins the path, and has the same pieces up to a slash. -/
theorem trimmed_begins {path : Path} (h : path.text.toList ≠ []) :
    path.trimmed.text.toList <+: path.text.toList ∧
      UpToSlash (trimPieces path.pieces) path.trimmed.pieces ∧ path.trimmed.text.toList ≠ [] := by
  obtain ⟨piece, rest, htrimmed, hsome⟩ := exists_trimPieces_cons h
  obtain ⟨hbegins, hpieces⟩ := ofPieces_begins (trimPieces_begins path.pieces)
    (htrimmed ▸ List.cons_ne_nil piece rest)
  have hfirst : UpToSlash (piece :: rest) path.trimmed.pieces := by
    rw [← htrimmed]
    exact hpieces
  exact ⟨hbegins, hpieces, text_ne_nil_of_upToSlash hsome hfirst⟩

theorem trimPieces_trimmed {path : Path} (h : path.text.toList ≠ []) :
    trimPieces path.trimmed.pieces = trimPieces path.pieces := by
  obtain ⟨-, hpieces, -⟩ := trimmed_begins h
  rw [hpieces.trimPieces, trimPieces_trimPieces]

/-- The path above another one has the pieces of the other one before its last component. -/
theorem exists_of_parent? {path parent : Path} (h : path.parent? = some parent) :
    ∃ front last, trimPieces path.pieces = front ++ [last] ∧
      parent = ofPieces (trimPieces front) := by
  unfold parent? at h
  split at h
  · cases h
  · cases h
  · next last others _ hreverse =>
    refine ⟨others.reverse, last, ?_, (Option.some.inj h).symm⟩
    rw [← List.reverse_reverse (trimPieces path.pieces), hreverse, List.reverse_cons]

theorem parent?_of_pieces {path : Path} {before : List Piece} {name : String} {raw : List Char}
    (h : path.pieces = before ++ [⟨some (.name name), raw⟩]) :
    path.parent? = some (ofPieces (trimPieces before)) := by
  unfold parent?
  rw [h, trimPieces_concat _ rfl, List.reverse_append, List.reverse_singleton]
  simp

/-- The pieces of a relative path in a directory are those of the directory, up to a slash at its
end, and those of the fields of the path. -/
theorem pieces_join_of_relative {directory path : Path} (hdirectory : directory.text.toList ≠ [])
    (hpath : path.isAbsolute = false) :
    ∃ before, UpToSlash before directory.pieces ∧
      (directory.join path).pieces =
        before ++ (Text.fields '/' path.text.toList).map Piece.inner ∧
      directory.text.toList <+: (directory.join path).text.toList := by
  have hfields := Text.fields_ne_nil '/' path.text.toList
  have hempty : directory.text.isEmpty = false := by
    rw [Bool.eq_false_iff, ne_eq, String.isEmpty_iff, ← String.toList_eq_nil_iff]
    exact hdirectory
  unfold join
  rw [hpath, Bool.false_or, hempty, if_neg Bool.false_ne_true]
  by_cases hlast : directory.text.toList.getLast? == some '/'
  · obtain ⟨stem, hstem⟩ := List.getLast?_eq_some_iff.1 (beq_iff_eq.1 hlast)
    obtain ⟨before, hbefore⟩ := exists_piecesOf_append (Text.fields_ne_nil '/' stem)
    have hslash : Text.fields '/' (stem ++ ['/']) = Text.fields '/' stem ++ [[]] :=
      Text.fields_append_cons '/' stem []
    rw [if_pos hlast, pieces_eq, pieces_eq, String.toList_append, hstem, hslash,
      hbefore _ (List.cons_ne_nil _ _), List.append_assoc, List.singleton_append,
      Text.fields_append_cons, hbefore _ hfields]
    exact ⟨before, .inr rfl, rfl, by simp⟩
  · have hslash : (directory.text ++ "/" ++ path.text).toList =
        directory.text.toList ++ '/' :: path.text.toList := by
      rw [String.toList_append, String.toList_append, List.append_assoc]
      rfl
    have hroot : Text.fields '/' directory.text.toList ≠ [[]] := by
      intro hroot
      have hnil := Text.intercalate_fields '/' directory.text.toList
      rw [hroot] at hnil
      exact hdirectory hnil.symm
    rw [if_neg hlast]
    refine ⟨directory.pieces, .inl rfl, ?_, ?_⟩
    · change piecesOf (Text.fields '/' (directory.text ++ "/" ++ path.text).toList) = _
      rw [hslash, Text.fields_append_cons, piecesOf_append _ (Text.fields_ne_nil '/' _) hroot]
      rfl
    · change _ <+: (directory.text ++ "/" ++ path.text).toList
      rw [hslash]
      exact List.prefix_append _ _

/-- The pieces of a name in a directory are those of the directory, up to a slash at its end, and
the name. -/
theorem pieces_join_name (directory : Path) {name : String} (h : IsName name) :
    ∃ before, UpToSlash before directory.pieces ∧
      (directory.join ⟨name⟩).pieces = before ++ [⟨some (.name name), name.toList⟩] := by
  have hname : Text.fields '/' name.toList = [name.toList] := Text.fields_eq_singleton h.no_slash
  by_cases hdirectory : directory.text.toList = []
  · obtain ⟨text⟩ := directory
    obtain rfl : text = "" := String.toList_eq_nil_iff.1 hdirectory
    have hjoin : join ⟨""⟩ ⟨name⟩ = ⟨name⟩ := by
      unfold join
      rw [if_pos (by simp)]
    refine ⟨[], .inr rfl, ?_⟩
    rw [hjoin, pieces_eq, hname, ← h.inner]
    exact piecesOf_singleton h.ne_here
  · obtain ⟨before, hbefore, hpieces, -⟩ := pieces_join_of_relative hdirectory h.not_isAbsolute
    refine ⟨before, hbefore, ?_⟩
    rw [hpieces, hname, List.map_singleton, h.inner]

/-- Besides slashes, a relative path in a directory is made up of the two texts. -/
theorem mem_join {directory path : Path} {c : Char} (hc : c ≠ '/')
    (hpath : path.isAbsolute = false) :
    c ∈ (directory.join path).text.toList ↔
      c ∈ directory.text.toList ∨ c ∈ path.text.toList := by
  unfold join
  rw [hpath, Bool.false_or]
  split
  · next hempty =>
    rw [String.isEmpty_iff.1 hempty]
    simp
  · split
    · rw [String.toList_append, List.mem_append]
    · simp [hc]

theorem isAbsolute_join {directory path : Path} (hpath : path.isAbsolute = false) :
    (directory.join path).isAbsolute = directory.isAbsolute := by
  by_cases hdirectory : directory.text.toList = []
  · obtain ⟨text⟩ := directory
    obtain rfl : text = "" := String.toList_eq_nil_iff.1 hdirectory
    have hjoin : join ⟨""⟩ path = path := by
      unfold join
      rw [if_pos (by simp)]
    rw [hjoin, hpath]
    rfl
  · obtain ⟨-, -, -, rest, hrest⟩ := pieces_join_of_relative hdirectory hpath
    unfold isAbsolute
    rw [← hrest, List.head?_append_of_ne_nil _ hdirectory]

theorem parent?_join (directory : Path) {name : String} (h : IsName name) :
    (directory.join ⟨name⟩).parent? = some directory.trimmed := by
  obtain ⟨before, hbefore, hpieces⟩ := pieces_join_name directory h
  rw [parent?_of_pieces hpieces, trimmed, hbefore.trimPieces]

end Path

end Phrasebook
