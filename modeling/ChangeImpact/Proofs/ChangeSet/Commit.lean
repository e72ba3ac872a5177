/-
This file shows that the modules of a commit are the directories of its files without the source
roots in front.
-/

import ChangeImpact.ChangeSet.Commit
import ChangeImpact.Proofs.ChangeSet.FilePath
import ChangeImpact.Proofs.Distinct

namespace ChangeImpact.ChangeSet

open FilePath

/-- The path of a file as it is usually written: names with slashes between them, with or without
the current directory in front. -/
structure PlainFile where
  fromHere : Bool
  names : List String
  plain : ∀ name ∈ names, IsPlain name

/-- The directories behind a source root, if it comes first and others follow it. -/
def dropRoot (root : String) : List String → List String
  | first :: next :: rest => if first = root then next :: rest else first :: next :: rest
  | directories => directories

namespace PlainFile

def text (file : PlainFile) : String :=
  (if file.fromHere then "./" else "") ++ "/".intercalate file.names

def directories (file : PlainFile) : List String :=
  file.names.dropLast

/-- The directory of the file without the source roots at its front; a file at the top has none. -/
def module? (file : PlainFile) : Option String :=
  match file.directories with
  | [] => none
  | directories => some ("/".intercalate (dropRoot "lib" (dropRoot "src" directories)))

end PlainFile

section Roots

variable {root : String} {directories : List String}

theorem dropRoot_subset (root : String) (directories : List String) :
    dropRoot root directories ⊆ directories := by
  unfold dropRoot
  split
  · split_ifs
    · exact List.subset_cons_self _ _
    · exact List.Subset.refl _
  · exact List.Subset.refl _

theorem dropRoot_ne_nil (nonempty : directories ≠ []) : dropRoot root directories ≠ [] := by
  unfold dropRoot
  split
  · split_ifs <;> exact List.cons_ne_nil _ _
  · exact nonempty

theorem dropStart_of_apart {start characters : List Char}
    (apart : ¬ start <+: characters) : dropStart start characters = characters := by
  rw [dropStart, if_neg (List.isPrefixOf_iff_prefix.not.mpr apart)]

theorem dropStart_append (start rest : List Char) : dropStart start (start ++ rest) = rest := by
  rw [dropStart, if_pos (List.isPrefixOf_iff_prefix.mpr (List.prefix_append _ _)),
    List.drop_left]

/-- A root is dropped as a whole directory, and only in front of another one. -/
theorem dropStart_intercalate (root : String) (whole : '/' ∉ root.toList)
    (undivided : ∀ directory ∈ directories, '/' ∉ directory.toList) :
    dropStart (root.toList ++ ['/']) ("/".intercalate directories).toList =
      ("/".intercalate (dropRoot root directories)).toList := by
  match directories with
  | [] => exact dropStart_of_apart (by simp)
  | [only] =>
      refine dropStart_of_apart fun starts => undivided only List.mem_cons_self ?_
      rw [String.intercalate_singleton] at starts
      exact starts.subset (by simp)
  | first :: next :: rest =>
      have text : ("/".intercalate (first :: next :: rest)).toList =
          first.toList ++ ['/'] ++ ("/".intercalate (next :: rest)).toList := by
        rw [String.intercalate_cons_cons, String.toList_append, String.toList_append]
        rfl
      rw [dropRoot]
      split_ifs with isRoot
      · rw [text, isRoot, dropStart_append]
      · refine dropStart_of_apart ?_
        rintro ⟨others, same⟩
        rw [text, List.append_assoc, List.append_assoc, List.singleton_append,
          List.singleton_append] at same
        -- Both texts are cut at their slashes, so that only the first parts are compared.
        have heads := congrArg (List.splitOn '/') same
        rw [List.splitOn_append_cons_self, List.splitOn_append_cons_self,
          List.splitOn_eq_singleton whole,
          List.splitOn_eq_singleton (undivided first List.mem_cons_self)] at heads
        exact isRoot (String.toList_inj.mp (List.cons.inj heads).1).symm

theorem dropSourceRoots_intercalate
    (undivided : ∀ directory ∈ directories, '/' ∉ directory.toList) :
    dropSourceRoots ("/".intercalate directories).toList =
      ("/".intercalate (dropRoot "lib" (dropRoot "src" (dropRoot "." directories)))).toList := by
  have here := dropStart_intercalate "." (by decide) undivided
  have undivided : ∀ directory ∈ dropRoot "." directories, '/' ∉ directory.toList :=
    fun directory member => undivided directory (dropRoot_subset _ _ member)
  have source := dropStart_intercalate "src" (by decide) undivided
  have undivided : ∀ directory ∈ dropRoot "src" (dropRoot "." directories),
      '/' ∉ directory.toList :=
    fun directory member => undivided directory (dropRoot_subset _ _ member)
  have library := dropStart_intercalate "lib" (by decide) undivided
  rw [← library, ← source, ← here]
  rfl

end Roots

section Modules

variable {directories : List String}

/-- Plain directories are not joined to an empty path or to that of the current directory. -/
theorem intercalate_of_plain (nonempty : directories ≠ [])
    (plain : ∀ directory ∈ directories, IsPlain directory) :
    ("/".intercalate directories).toList ≠ [] ∧
      ("/".intercalate directories).toList ≠ ['.'] := by
  have cut := Text.splitAt_intercalate nonempty fun name member => (plain name member).undivided
  have busy := isIdle_eq_false_of_mem_map plain
  constructor
  · intro empty
    rw [empty] at cut
    exact absurd (busy [] (by rw [← cut]; decide)) (by decide)
  · intro here
    rw [here] at cut
    exact absurd (busy ['.'] (by rw [← cut]; decide)) (by decide)

namespace PlainFile

/-- The current directory, if the path starts from it. -/
def lead (file : PlainFile) : List String :=
  if file.fromHere then ["."] else []

theorem plain_directories (file : PlainFile) : ∀ name ∈ file.directories, IsPlain name :=
  fun name member => file.plain name (List.dropLast_subset file.names member)

theorem parent?_text (file : PlainFile) (nonempty : file.names ≠ []) :
    (ofText file.text).parent? = some ("/".intercalate (file.lead ++ file.directories)).toList := by
  obtain ⟨fromHere, names, plain⟩ := file
  cases fromHere with
  | false =>
      simp only [text, lead, Bool.false_eq_true, if_false, String.empty_append, List.nil_append]
      exact parent?_ofText_intercalate nonempty plain
  | true => exact parent?_ofText_here nonempty plain

/-- The current directory is dropped if a directory follows it. -/
theorem dropRoot_lead (file : PlainFile) (nested : file.directories ≠ []) :
    dropRoot "." (file.lead ++ file.directories) = file.directories := by
  have plain := file.plain_directories
  unfold lead
  obtain ⟨first, rest, same⟩ := List.exists_cons_of_ne_nil nested
  rw [same] at plain ⊢
  split_ifs
  · rfl
  · cases rest with
    | nil => rfl
    | cons next rest => exact if_neg (plain first List.mem_cons_self).away

theorem undivided_lead (file : PlainFile) :
    ∀ name ∈ file.lead ++ file.directories, '/' ∉ name.toList := by
  intro name member
  rcases List.mem_append.mp member with isLead | isDirectory
  · unfold lead at isLead
    split_ifs at isLead
    · rw [List.mem_singleton.mp isLead]
      decide
    · cases isLead
  · exact (file.plain_directories name isDirectory).undivided

end PlainFile

theorem moduleOfFile?_of_top (file : PlainFile) (top : file.directories = []) :
    moduleOfFile? file.text = none := by
  by_cases nonempty : file.names = []
  · rw [PlainFile.text, nonempty]
    cases file.fromHere <;> decide +kernel
  · rw [moduleOfFile?, file.parent?_text nonempty, top, PlainFile.lead]
    cases file.fromHere <;> decide +kernel

/-- The module of a file is read off its path. -/
theorem moduleOfFile?_text (file : PlainFile) : moduleOfFile? file.text = file.module? := by
  cases before : file.directories with
  | nil => rw [moduleOfFile?_of_top file before, PlainFile.module?, before]
  | cons first rest =>
      have nested : file.directories ≠ [] := before ▸ List.cons_ne_nil first rest
      have nonempty : file.names ≠ [] := by
        intro empty
        rw [PlainFile.directories, empty] at nested
        exact nested rfl
      have dropped : dropSourceRoots ("/".intercalate (file.lead ++ file.directories)).toList =
          ("/".intercalate (dropRoot "lib" (dropRoot "src" file.directories))).toList := by
        rw [dropSourceRoots_intercalate file.undivided_lead, file.dropRoot_lead nested]
      have plain : ∀ name ∈ dropRoot "lib" (dropRoot "src" file.directories), IsPlain name :=
        fun name member => file.plain_directories name
          (dropRoot_subset _ _ (dropRoot_subset _ _ member))
      have kept := intercalate_of_plain (dropRoot_ne_nil (dropRoot_ne_nil nested)) plain
      rw [moduleOfFile?, file.parent?_text nonempty, Option.map_some, dropped,
        Option.filter_some_pos (by simpa using kept), Option.map_some, String.ofList_toList,
        PlainFile.module?, before]

/-- A directory is no source root for starting like one. -/
example : ["./src/lib/core/a.rs", "srcfoo/b.rs", "src/c.rs", "lib/src/d.rs", "e.rs"].map
    moduleOfFile? = [some "core", some "srcfoo", some "src", some "src", none] := by
  decide +kernel

end Modules

/-- The modules of files are their directories without the source roots in front, each listed once
and where it first occurs. Further files add those of their modules that are new. -/
theorem modulesOfFiles_eq :
    (∀ files : List PlainFile,
      modulesOfFiles (files.map PlainFile.text) = (files.filterMap PlainFile.module?).eraseDups) ∧
    (∀ files : List String, (modulesOfFiles files).Nodup) ∧
    ∀ files others : List String,
      modulesOfFiles (files ++ others) =
        modulesOfFiles files ++
          (modulesOfFiles others).filter fun found => !(modulesOfFiles files).contains found := by
  refine ⟨fun files => ?_, fun files => distinct_nodup _, fun files others => ?_⟩
  · have read : moduleOfFile? ∘ PlainFile.text = PlainFile.module? := funext moduleOfFile?_text
    rw [modulesOfFiles, distinct_eq_eraseDups, List.filterMap_map, read]
  · rw [modulesOfFiles, List.filterMap_append, distinct_append]
    rfl

end ChangeImpact.ChangeSet
