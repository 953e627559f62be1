import Phrasebook.Scan

/-!
# What a scan finds

A scan finds files of the disk only, and only files that are sources by their names.
-/

namespace Phrasebook.Scan

variable {disk : Disk} {options : Options} {patterns : List Glob.Pattern} {path other : Path}

/-- A file of the disk that is a source by its name. -/
structure IsSourceFile (disk : Disk) (path : Path) : Prop where
  isFile : disk.isFile path = true
  isSource : isSource path = true

theorem mem_insertPath {known : List Path} (h : other ∈ insertPath path known) :
    other = path ∨ other ∈ known := by
  induction known with
  | nil => exact .inl (List.mem_singleton.1 h)
  | cons first rest ih =>
    unfold insertPath at h
    split at h
    · exact .inr h
    · split at h
      · exact List.mem_cons.1 h
      · rcases List.mem_cons.1 h with rfl | hrest
        · exact .inr List.mem_cons_self
        · exact (ih hrest).imp_right (List.mem_cons_of_mem _)

theorem mem_foldl_insertPath {paths known : List Path}
    (h : other ∈ paths.foldl (fun known path ↦ insertPath path known) known) :
    other ∈ known ∨ other ∈ paths := by
  induction paths generalizing known with
  | nil => exact .inl h
  | cons first rest ih =>
    rcases ih h with hknown | hrest
    · rcases mem_insertPath hknown with rfl | hknown
      · exact .inr List.mem_cons_self
      · exact .inl hknown
    · exact .inr (List.mem_cons_of_mem _ hrest)

/-- Whatever is listed below a directory is a file. -/
theorem isFile_of_mem_filesBelow {files : List Path} (h : filesBelow disk path = .ok files)
    (hmem : other ∈ files) : disk.isFile other = true := by
  unfold filesBelow at h
  cases hfind : disk.find path with
  | error fault =>
    rw [hfind] at h
    cases h
  | ok node =>
    rw [hfind] at h
    cases h
    split at hmem
    · cases hmem
    · cases node with
      | file contents => rw [List.mem_singleton.1 hmem, Disk.isFile, hfind]
      | directory => exact (List.mem_filter.1 hmem).2

/-- Adding what is in a directory adds source files only. -/
theorem isSourceFile_addDirectory {found : Found} {directory : Path}
    (hfound : ∀ path ∈ found.files, IsSourceFile disk path) :
    ∀ path ∈ (addDirectory disk options patterns found directory).files,
      IsSourceFile disk path := by
  unfold addDirectory
  split
  · exact hfound
  · next files hfiles =>
    intro path hpath
    rcases mem_foldl_insertPath hpath with hknown | hsource
    · exact hfound path hknown
    · obtain ⟨hbelow, hkept⟩ := List.mem_filter.1 hsource
      exact ⟨isFile_of_mem_filesBelow hfiles hbelow, (Bool.and_eq_true_iff.1 hkept).1⟩

/-- Every file that a scan finds is a file of the disk and named as a source. -/
theorem isSourceFile_of_mem_files (h : path ∈ (files disk options).files) :
    IsSourceFile disk path := by
  have hall : ∀ (directories : List Path) (found : Found),
      (∀ path ∈ found.files, IsSourceFile disk path) →
      ∀ path ∈ (directories.foldl
        (addDirectory disk options (patternsOf options.ignores).1) found).files,
        IsSourceFile disk path := by
    intro directories
    induction directories with
    | nil => exact fun _ hfound ↦ hfound
    | cons directory rest ih => exact fun _ hfound ↦ ih _ (isSourceFile_addDirectory hfound)
  exact hall _ _ (fun path hpath ↦ by cases hpath) path h

end Phrasebook.Scan
