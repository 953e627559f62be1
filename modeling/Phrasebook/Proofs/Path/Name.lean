import Phrasebook.Disk

/-!
# The name at the end of a path

A path that ends in a name leads to a place that ends in it, whatever stands before it and however
the directories on the way are written. So the files that a command writes are kept apart by their
names alone.
-/

namespace Phrasebook

theorem Text.fields_eq_splitOn (separator : Char) (text : List Char) :
    Text.fields separator text = text.splitOn separator := by
  induction text with
  | nil => rfl
  | cons c rest ih =>
    rw [List.splitOn_cons_eq_if_modifyHead, Text.fields, ← ih]
    by_cases h : c = separator
    · simp [h]
    · have hne : Text.fields separator rest ≠ [] := ih ▸ List.splitOn_ne_nil separator rest
      simp only [h, if_false, beq_iff_eq]
      cases hfields : Text.fields separator rest with
      | nil => exact absurd hfields hne
      | cons field others => rfl

theorem Text.fields_eq_singleton {separator : Char} {text : List Char} (h : separator ∉ text) :
    Text.fields separator text = [text] := by
  rw [Text.fields_eq_splitOn, List.splitOn_eq_singleton h]

theorem Text.fields_append_cons (separator : Char) (front back : List Char) :
    Text.fields separator (front ++ separator :: back) =
      Text.fields separator front ++ Text.fields separator back := by
  simp only [Text.fields_eq_splitOn, List.splitOn_append_cons_self]

/-- A text behind another one, without a separator in it, belongs to the last field. -/
theorem Text.fields_append (separator : Char) (text : List Char) :
    ∃ front last, separator ∉ last ∧ ∀ ending, separator ∉ ending →
      Text.fields separator (text ++ ending) = front ++ [last ++ ending] := by
  by_cases hmem : separator ∈ text
  · obtain ⟨behind, before, hreverse, hbehind⟩ :=
      List.eq_append_cons_of_mem (List.mem_reverse.2 hmem)
    have htext : text = before.reverse ++ separator :: behind.reverse := by
      have hboth := congrArg List.reverse hreverse
      simpa using hboth
    refine ⟨Text.fields separator before.reverse, behind.reverse, by simpa using hbehind,
      fun ending hending ↦ ?_⟩
    have hlast : separator ∉ behind.reverse ++ ending := by
      simp [hbehind, hending]
    rw [htext, List.append_assoc, List.cons_append, Text.fields_append_cons,
      Text.fields_eq_singleton hlast]
  · refine ⟨[], text, hmem, fun ending hending ↦ ?_⟩
    rw [Text.fields_eq_singleton (by simp [hmem, hending]), List.nil_append]

namespace Path

/-- A text that names something in a directory: one component, written without a slash. -/
structure IsName (name : String) : Prop where
  no_slash : '/' ∉ name.toList
  ne_empty : name.toList ≠ []
  ne_here : name.toList ≠ ['.']
  ne_up : name.toList ≠ ['.', '.']

namespace IsName

variable {name : String}

theorem inner (h : IsName name) :
    Piece.inner name.toList = ⟨some (.name name), name.toList⟩ := by
  have hempty : name.toList.isEmpty = false := List.isEmpty_eq_false_iff.2 h.ne_empty
  have hhere : (name.toList == ['.']) = false := beq_eq_false_iff_ne.2 h.ne_here
  have hup : (name.toList == ['.', '.']) = false := beq_eq_false_iff_ne.2 h.ne_up
  simp [Piece.inner, hempty, hhere, hup]

theorem not_isAbsolute (h : IsName name) : isAbsolute ⟨name⟩ = false :=
  beq_eq_false_iff_ne.2 fun hhead ↦ h.no_slash (List.mem_of_mem_head? hhead)

/-- A text with an extension behind it is a name, unless there are slashes in it. -/
theorem withExtension {text extension : String} (htext : '/' ∉ text.toList)
    (hextension : '/' ∉ extension.toList) (hsize : 2 ≤ extension.length) :
    IsName (text ++ "." ++ extension) := by
  have hsize' : 2 ≤ extension.toList.length := by rwa [String.length_toList]
  have hlist : (text ++ "." ++ extension).toList = text.toList ++ '.' :: extension.toList := by
    rw [String.toList_append, String.toList_append, List.append_assoc]
    rfl
  have hlong : 3 ≤ (text ++ "." ++ extension).toList.length := by
    rw [hlist, List.length_append, List.length_cons]
    omega
  constructor
  · simp [hlist, htext, hextension]
  all_goals
    intro h
    rw [h] at hlong
    simp at hlong

end IsName

/-- The last field of a path that a name was joined to is that name. -/
theorem fields_join (directory : Path) {name : String} (h : IsName name) :
    ∃ front, Text.fields '/' (directory.join ⟨name⟩).text.toList = front ++ [name.toList] := by
  have hname : Text.fields '/' name.toList = [name.toList] := Text.fields_eq_singleton h.no_slash
  unfold join
  rw [h.not_isAbsolute, Bool.false_or]
  by_cases hempty : directory.text.isEmpty
  · exact ⟨[], by rw [if_pos hempty, hname]; rfl⟩
  · rw [if_neg hempty]
    by_cases hlast : directory.text.toList.getLast? == some '/'
    · obtain ⟨stem, hstem⟩ := List.getLast?_eq_some_iff.1 (beq_iff_eq.1 hlast)
      refine ⟨Text.fields '/' stem, ?_⟩
      rw [if_pos hlast, String.toList_append, hstem, List.append_assoc, List.singleton_append,
        Text.fields_append_cons, hname]
    · refine ⟨Text.fields '/' directory.text.toList, ?_⟩
      have hslash : "/".toList = ['/'] := rfl
      rw [if_neg hlast, String.toList_append, String.toList_append, List.append_assoc, hslash,
        List.singleton_append, Text.fields_append_cons, hname]

/-- The pieces of a path end in what its last field stands for, unless that is a dot or alone. -/
theorem pieces_of_fields {path : Path} {front : List (List Char)} {last : List Char}
    (h : Text.fields '/' path.text.toList = front ++ [last]) (hhere : last ≠ ['.']) :
    ∃ before, path.pieces = before ++ [Piece.inner last] := by
  unfold pieces
  rw [h]
  match front with
  | [] =>
    refine ⟨[], ?_⟩
    simp only [List.nil_append]
    split <;> simp_all
  | first :: others =>
    by_cases hroot : first = []
    · subst hroot
      cases others with
      | nil => exact ⟨[⟨some .root, []⟩], rfl⟩
      | cons second others =>
        exact ⟨⟨some .root, []⟩ :: (second :: others).map Piece.inner, by simp⟩
    · by_cases hdot : first = ['.']
      · subst hdot
        exact ⟨⟨some .here, ['.']⟩ :: others.map Piece.inner, by simp⟩
      · refine ⟨(first :: others).map Piece.inner, ?_⟩
        simp only [List.cons_append]
        split <;> simp_all

/-- The name that is joined to a directory is the last piece of the path. -/
theorem pieces_join (directory : Path) {name : String} (h : IsName name) :
    ∃ before, (directory.join ⟨name⟩).pieces = before ++ [⟨some (.name name), name.toList⟩] := by
  obtain ⟨front, hfields⟩ := fields_join directory h
  rw [← h.inner]
  exact pieces_of_fields hfields h.ne_here

theorem fileName?_join (directory : Path) {name : String} (h : IsName name) :
    (directory.join ⟨name⟩).fileName? = some name := by
  obtain ⟨front, hpieces⟩ := pieces_join directory h
  simp [fileName?, components, hpieces]

/-- A path whose text ends in a dot and an extension has a name that ends in them. -/
theorem exists_fileName? {path : Path} {stem extension : String}
    (h : path.text = stem ++ "." ++ extension) (hslash : '/' ∉ extension.toList)
    (hsize : 2 ≤ extension.length) :
    ∃ front, path.fileName? = some (front ++ "." ++ extension) := by
  obtain ⟨fields, last, hlast, hfields⟩ := Text.fields_append '/' stem.toList
  have hname : IsName (String.ofList last ++ "." ++ extension) :=
    IsName.withExtension (by simpa using hlast) hslash hsize
  have hending := hfields ('.' :: extension.toList) (by simp [hslash])
  have htext : path.text.toList = stem.toList ++ '.' :: extension.toList := by
    rw [h]
    simp
  have htoList : (String.ofList last ++ "." ++ extension).toList =
      last ++ '.' :: extension.toList := by simp
  rw [← htext, ← htoList] at hending
  obtain ⟨before, hpieces⟩ := pieces_of_fields hending hname.ne_here
  refine ⟨String.ofList last, ?_⟩
  rw [fileName?, components, hpieces, hname.inner]
  simp

/-- A file named by a stem, a dot and an extension has that extension, or none at all. -/
theorem extension?_of_fileName? {path : Path} {stem extension : String}
    (h : path.fileName? = some (stem ++ "." ++ extension)) (hdot : '.' ∉ extension.toList) :
    path.extension? = none ∨ path.extension? = some extension := by
  have hname : (stem ++ "." ++ extension).toList.reverse =
      extension.toList.reverse ++ '.' :: stem.toList.reverse := by simp
  have hafter : ((stem ++ "." ++ extension).toList.reverse.takeWhile (· != '.')).reverse =
      extension.toList := by
    rw [hname, List.takeWhile_append_of_pos]
    · simp
    · intro c hc
      exact bne_iff_ne.2 fun hsame ↦ hdot (hsame ▸ List.mem_reverse.1 hc)
  unfold extension?
  rw [h, Option.bind_some, splitName, hafter]
  split
  · exact .inl rfl
  · exact .inr (by simp)

end Path

namespace Disk

variable {disk : Disk} {place goal : Place} {path : Path} {name : String}

theorem step_silent {piece : Path.Piece} (hpiece : piece.component? = none)
    (h : disk.step place piece = .ok goal) : goal = place := by
  unfold step at h
  rw [hpiece] at h
  split at h
  · cases h
  · cases h
  · exact (Except.ok.inj h).symm

theorem step_name {piece : Path.Piece} (hpiece : piece.component? = some (.name name))
    (h : disk.step place piece = .ok goal) : goal = place ++ [name] := by
  unfold step at h
  rw [hpiece] at h
  split at h
  · cases h
  · cases h
  · simp only at h
    split at h
    · cases h
    · exact (Except.ok.inj h).symm

theorem follow_cons_ok {piece : Path.Piece} {rest : List Path.Piece}
    (h : disk.follow place (piece :: rest) = .ok goal) :
    ∃ next, disk.step place piece = .ok next ∧ disk.follow next rest = .ok goal := by
  cases hstep : disk.step place piece with
  | error fault => simp [follow, hstep, Except.bind] at h
  | ok next => exact ⟨next, rfl, by simpa [follow, hstep, Except.bind] using h⟩

/-- Pieces that name nothing and do not lead upward lead nowhere. -/
theorem follow_silent {pieces : List Path.Piece}
    (hsilent : pieces.filterMap (·.component?) = []) (h : disk.follow place pieces = .ok goal) :
    goal = place := by
  induction pieces generalizing place with
  | nil => exact (Except.ok.inj h).symm
  | cons piece rest ih =>
    obtain ⟨next, hstep, hfollow⟩ := follow_cons_ok h
    rw [List.filterMap_eq_nil_iff] at hsilent
    have hpiece : piece.component? = none := hsilent piece List.mem_cons_self
    have hrest : rest.filterMap (·.component?) = [] :=
      List.filterMap_eq_nil_iff.2 fun other hother ↦ hsilent other (List.mem_cons_of_mem _ hother)
    rw [ih hrest hfollow, step_silent hpiece hstep]

theorem follow_getLast {pieces : List Path.Piece}
    (hlast : (pieces.filterMap (·.component?)).getLast? = some (.name name))
    (h : disk.follow place pieces = .ok goal) : goal.getLast? = some name := by
  induction pieces generalizing place with
  | nil => simp at hlast
  | cons piece rest ih =>
    obtain ⟨next, hstep, hfollow⟩ := follow_cons_ok h
    by_cases hrest : rest.filterMap (·.component?) = []
    · have hpiece : piece.component? = some (.name name) := by
        cases hcomponent : piece.component? with
        | none => simp [hcomponent, hrest] at hlast
        | some component => simpa [List.filterMap_cons, hcomponent, hrest] using hlast
      rw [follow_silent hrest hfollow, step_name hpiece hstep, List.getLast?_concat]
    · refine ih ?_ hfollow
      cases hcomponent : piece.component? with
      | none => simpa [List.filterMap_cons, hcomponent] using hlast
      | some component =>
        obtain ⟨last, hsome⟩ := Option.ne_none_iff_exists'.1
          fun hnone ↦ hrest (List.getLast?_eq_none_iff.1 hnone)
        rw [List.filterMap_cons, hcomponent, List.getLast?_cons, hsome] at hlast
        rw [hsome]
        exact hlast

/-- A path that ends in a name denotes a place that ends in this name. -/
theorem locate_getLast (hname : path.fileName? = some name) (h : disk.locate path = .ok place) :
    place.getLast? = some name := by
  unfold locate placeOf at h
  split at h
  · cases h
  · split at h
    · cases h
    · refine follow_getLast ?_ h
      unfold Path.fileName? Path.components at hname
      split at hname
      · next heq =>
        cases hname
        exact heq
      · cases hname

end Disk

end Phrasebook
