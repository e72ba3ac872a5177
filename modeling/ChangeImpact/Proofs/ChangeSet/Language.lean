/-
This file shows which language is taken for that of most files: no other has more files, and those
that have as many are seen later.
-/

import ChangeImpact.ChangeSet.Language
import ChangeImpact.Proofs.ChangeSet.FilePath
import ChangeImpact.Proofs.Distinct

namespace ChangeImpact.Language

/-- The extension of the file, in whatever case, is listed for some language. -/
def IsKnown (file : String) : Prop :=
  ∃ stem extension language, stem ≠ [] ∧ '.' ∉ extension ∧
    (FilePath.ofText file).name? = some (stem ++ '.' :: extension) ∧
    (String.ofList (extension.map Char.toLower), language) ∈ extensions

/-- The number of files in a language, whichever of its extensions they have. -/
def filesIn (language : String) (files : List String) : Nat :=
  files.countP (ofFile? · == some language)

/-- The place of the first file in a language, which lies behind all files if there is none. -/
def firstIn (language : String) (files : List String) : Nat :=
  files.findIdx (ofFile? · == some language)

/-- No language has more files, and the others with as many are seen later. -/
structure Leads (files : List String) (language : String) : Prop where
  most : ∀ other, filesIn other files ≤ filesIn language files
  first : ∀ other, other ≠ language → filesIn other files = filesIn language files →
    firstIn language files < firstIn other files

section Files

variable {file language other : String} {files : List String}

theorem ofFile?_eq_some_iff :
    ofFile? file = some language ↔ ∃ extension,
      (FilePath.ofText file).extension? = some extension ∧
        extensions.lookup (String.ofList (extension.map Char.toLower)) = some language :=
  Option.bind_eq_some_iff

theorem mem_extensions_of_ofFile? (found : ofFile? file = some language) :
    language ∈ extensions.map Prod.snd := by
  obtain ⟨extension, _, listed⟩ := ofFile?_eq_some_iff.mp found
  obtain ⟨before, after, same, _⟩ := List.lookup_eq_some_iff.mp listed
  rw [same]
  simp

theorem ofFile?_ne_unknown (file : String) : ofFile? file ≠ some "unknown" :=
  fun found => absurd (mem_extensions_of_ofFile? found) (by decide)

/-- A file has a language exactly if its extension is known. -/
theorem isSome_ofFile?_iff : (ofFile? file).isSome = true ↔ IsKnown file := by
  simp only [Option.isSome_iff_exists, ofFile?_eq_some_iff, FilePath.extension?_eq_some_iff]
  constructor
  · rintro ⟨language, extension, ⟨stem, nonempty, apart, isName⟩, listed⟩
    obtain ⟨before, after, same, _⟩ := List.lookup_eq_some_iff.mp listed
    exact ⟨stem, extension, language, nonempty, apart, isName, by rw [same]; simp⟩
  · rintro ⟨stem, extension, language, nonempty, apart, isName, member⟩
    have listed : (extensions.lookup (String.ofList (extension.map Char.toLower))).isSome := by
      rw [List.lookup_isSome_iff]
      exact ⟨_, member, BEq.rfl⟩
    obtain ⟨first, listed⟩ := Option.isSome_iff_exists.mp listed
    exact ⟨first, extension, ⟨stem, nonempty, apart, isName⟩, listed⟩

theorem filesIn_eq_count (language : String) (files : List String) :
    filesIn language files = (files.filterMap ofFile?).count language := by
  rw [List.count_filterMap, filesIn]

/-- Of two languages with as many files one is seen first. -/
theorem eq_of_leads (leads : Leads files language) (others : Leads files other) :
    language = other := by
  by_contra apart
  have same : filesIn language files = filesIn other files :=
    Nat.le_antisymm (others.most language) (leads.most other)
  have earlier := leads.first other (Ne.symm apart) same.symm
  exact Nat.lt_asymm earlier (others.first language apart same)

theorem firstIn_lt_length_iff :
    firstIn language files < files.length ↔ language ∈ files.filterMap ofFile? := by
  simp only [firstIn, List.findIdx_lt_length, beq_iff_eq, List.mem_filterMap]

/-- Further files do not change where a language was first seen. -/
theorem firstIn_append_of_mem (further : List String)
    (member : language ∈ files.filterMap ofFile?) :
    firstIn language (files ++ further) = firstIn language files := by
  have inside := firstIn_lt_length_iff.mpr member
  rw [firstIn] at inside ⊢
  rw [List.findIdx_append, if_pos inside, firstIn]

theorem length_le_firstIn_append (further : List String)
    (fresh : language ∉ files.filterMap ofFile?) :
    files.length ≤ firstIn language (files ++ further) := by
  have outside := firstIn_lt_length_iff.not.mpr fresh
  rw [firstIn] at outside ⊢
  rw [List.findIdx_append, if_neg outside]
  exact Nat.le_add_left _ _

/-- Languages are listed in the order in which they are first seen. -/
theorem pairwise_firstIn (files : List String) :
    (files.filterMap ofFile?).eraseDups.Pairwise fun earlier later =>
      firstIn earlier files < firstIn later files := by
  induction files using List.reverseRecOn with
  | nil => exact .nil
  | append_singleton files last ih =>
      have kept : (files.filterMap ofFile?).eraseDups.Pairwise fun earlier later =>
          firstIn earlier (files ++ [last]) < firstIn later (files ++ [last]) := by
        refine ih.imp_of_mem fun first second sooner => ?_
        rwa [firstIn_append_of_mem _ (List.mem_eraseDups.mp first),
          firstIn_append_of_mem _ (List.mem_eraseDups.mp second)]
      cases found : ofFile? last with
      | none => simpa [found] using kept
      | some language =>
          rw [List.filterMap_append, List.filterMap_cons_some found, List.filterMap_nil,
            eraseDups_concat]
          split_ifs with old
          · exact kept
          · refine List.pairwise_append.mpr ⟨kept, List.pairwise_singleton _ _, ?_⟩
            intro earlier member later isLast
            rw [List.mem_eraseDups] at member
            rw [List.mem_singleton.mp isLast, firstIn_append_of_mem _ member]
            exact Nat.lt_of_lt_of_le (firstIn_lt_length_iff.mpr member)
              (length_le_firstIn_append _ old)

end Files

section Counts

variable {language : String} {languages : List String} {counts : List (String × Nat)}
  {entry : String × Nat}

/-- A language that is listed already is counted in its place. -/
theorem count_map_of_mem {tally : String → Nat} (nodup : languages.Nodup)
    (member : language ∈ languages) :
    count language (languages.map fun counted => (counted, tally counted)) =
      languages.map fun counted =>
        (counted, tally counted + if counted = language then 1 else 0) := by
  induction languages with
  | nil => cases member
  | cons first rest ih =>
      obtain ⟨fresh, nodup⟩ := List.nodup_cons.mp nodup
      rw [List.map_cons, List.map_cons, count]
      by_cases isFirst : first = language
      · subst isFirst
        have others : ∀ counted ∈ rest, counted ≠ first := by
          rintro counted isRest rfl
          exact fresh isRest
        rw [if_pos rfl, if_pos rfl, List.cons.injEq]
        refine ⟨rfl, List.map_congr_left fun counted member => ?_⟩
        rw [if_neg (others counted member), Nat.add_zero]
      · have later : language ∈ rest := (List.mem_cons.mp member).resolve_left (Ne.symm isFirst)
        rw [if_neg isFirst, if_neg isFirst, ih nodup later, Nat.add_zero]

/-- A language that is seen for the first time comes last. -/
theorem count_of_not_mem (fresh : language ∉ counts.map Prod.fst) :
    count language counts = counts ++ [(language, 1)] := by
  induction counts with
  | nil => rfl
  | cons first rest ih =>
      rw [List.map_cons, List.mem_cons, not_or] at fresh
      rw [count, if_neg (Ne.symm fresh.1), ih fresh.2, List.cons_append]

/-- The languages are listed once each, and with each of them how often it was seen. -/
theorem foldl_count (languages : List String) :
    languages.foldl (fun counts language => count language counts) [] =
      languages.eraseDups.map fun language => (language, languages.count language) := by
  induction languages using List.reverseRecOn with
  | nil => rfl
  | append_singleton languages last ih =>
      rw [List.foldl_append, ih, List.foldl_cons, List.foldl_nil, eraseDups_concat]
      split_ifs with old
      · have nodup : languages.eraseDups.Nodup :=
          distinct_eq_eraseDups languages ▸ distinct_nodup languages
        rw [count_map_of_mem nodup (List.mem_eraseDups.mpr old)]
        simp only [List.count_append, List.count_singleton, beq_iff_eq, @eq_comm _ last]
      · have fresh : last ∉ (languages.eraseDups.map fun language =>
            (language, languages.count language)).map Prod.fst := by
          simpa [List.mem_eraseDups] using old
        rw [count_of_not_mem fresh, List.map_append]
        congr 1
        · refine List.map_congr_left fun language member => ?_
          have other : language ≠ last := by
            rintro rfl
            exact old (List.mem_eraseDups.mp member)
          rw [List.count_append, List.count_singleton, if_neg (by simpa using Ne.symm other)]
          rfl
        · simp [List.count_eq_zero.mpr old]

/-- This entry is kept when all have been looked at. -/
def leader? (counts : List (String × Nat)) : Option (String × Nat) :=
  counts.foldl (fun best entry =>
    match best with
    | none => some entry
    | some kept => if kept.2 < entry.2 then some entry else some kept) none

theorem leader?_concat (counts : List (String × Nat)) (entry : String × Nat) :
    leader? (counts ++ [entry]) =
      match leader? counts with
      | none => some entry
      | some kept => if kept.2 < entry.2 then some entry else some kept := by
  rw [leader?, List.foldl_append]
  rfl

theorem leader?_eq_none_iff : leader? counts = none ↔ counts = [] := by
  cases counts using List.reverseRecOn with
  | nil => exact iff_of_true rfl rfl
  | append_singleton counts last =>
      refine iff_of_false (fun isNone => ?_) (by simp)
      rw [leader?_concat] at isNone
      cases earlier : leader? counts with
      | none =>
          rw [earlier] at isNone
          cases isNone
      | some kept =>
          rw [earlier] at isNone
          dsimp only at isNone
          split_ifs at isNone

/-- The counts before the greatest one are smaller, and none after it is greater. -/
theorem exists_split_of_leader? (found : leader? counts = some entry) :
    ∃ before after, counts = before ++ entry :: after ∧
      (∀ other ∈ before, other.2 < entry.2) ∧ ∀ other ∈ after, other.2 ≤ entry.2 := by
  induction counts using List.reverseRecOn generalizing entry with
  | nil => cases found
  | append_singleton counts last ih =>
      rw [leader?_concat] at found
      cases earlier : leader? counts with
      | none =>
          rw [earlier] at found
          obtain rfl := Option.some.inj found
          rw [leader?_eq_none_iff.mp earlier]
          exact ⟨[], [], rfl, by simp, by simp⟩
      | some kept =>
          obtain ⟨before, after, rfl, less, atMost⟩ := ih earlier
          rw [earlier] at found
          dsimp only at found
          split_ifs at found with greater
          · obtain rfl := Option.some.inj found
            refine ⟨_, [], rfl, fun other member => ?_, by simp⟩
            rw [List.mem_append, List.mem_cons] at member
            rcases member with isBefore | rfl | isAfter
            · exact Nat.lt_trans (less other isBefore) greater
            · exact greater
            · exact Nat.lt_of_le_of_lt (atMost other isAfter) greater
          · obtain rfl := Option.some.inj found
            refine ⟨before, after ++ [last], by simp, less, fun other member => ?_⟩
            rcases List.mem_append.mp member with isAfter | isLast
            · exact atMost other isAfter
            · rw [List.mem_singleton.mp isLast]
              exact Nat.le_of_not_lt greater

theorem mem_of_leader? (found : leader? counts = some entry) : entry ∈ counts := by
  obtain ⟨before, after, rfl, _⟩ := exists_split_of_leader? found
  exact List.mem_append_right _ List.mem_cons_self

end Counts

section Primary

variable {files : List String} {entry : String × Nat}

/-- The entries that the languages of the files are counted in. -/
def countsOf (files : List String) : List (String × Nat) :=
  (files.filterMap ofFile?).foldl (fun counts language => count language counts) []

theorem countsOf_eq (files : List String) :
    countsOf files =
      (files.filterMap ofFile?).eraseDups.map fun language =>
        (language, filesIn language files) := by
  simp only [countsOf, foldl_count, filesIn_eq_count]

theorem primary_eq (files : List String) :
    primary files = ((leader? (countsOf files)).map Prod.fst).getD "unknown" := rfl

/-- A language of some file is counted with its number of files. -/
theorem mem_countsOf_iff {language : String} {number : Nat} :
    (language, number) ∈ countsOf files ↔
      language ∈ files.filterMap ofFile? ∧ filesIn language files = number := by
  simp [countsOf_eq, List.mem_eraseDups]

theorem filesIn_pos_iff {language : String} :
    0 < filesIn language files ↔ language ∈ files.filterMap ofFile? := by
  rw [filesIn_eq_count, List.count_pos_iff]

theorem pairwise_countsOf (files : List String) :
    (countsOf files).Pairwise fun earlier later =>
      firstIn earlier.1 files < firstIn later.1 files := by
  rw [countsOf_eq, List.pairwise_map]
  exact pairwise_firstIn files

/-- The language that is found leads. -/
theorem leads_of_leader? (found : leader? (countsOf files) = some entry) :
    Leads files entry.1 := by
  obtain ⟨before, after, split, less, atMost⟩ := exists_split_of_leader? found
  obtain ⟨occurs, own⟩ := mem_countsOf_iff.mp (mem_of_leader? found)
  have place {other : String} (occurs : other ∈ files.filterMap ofFile?) :
      (other, filesIn other files) ∈ before ∨ (other, filesIn other files) = entry ∨
        (other, filesIn other files) ∈ after := by
    have member := mem_countsOf_iff.mpr ⟨occurs, rfl⟩
    rwa [split, List.mem_append, List.mem_cons] at member
  constructor
  · intro other
    rw [own]
    by_cases occurs : other ∈ files.filterMap ofFile?
    · rcases place occurs with isBefore | rfl | isAfter
      · exact Nat.le_of_lt (less _ isBefore)
      · exact Nat.le_refl _
      · exact atMost _ isAfter
    · rw [Nat.eq_zero_of_not_pos (filesIn_pos_iff.not.mpr occurs)]
      exact Nat.zero_le _
  · intro other apart same
    have alsoOccurs : other ∈ files.filterMap ofFile? := by
      rwa [← filesIn_pos_iff, same, filesIn_pos_iff]
    rcases place alsoOccurs with isBefore | rfl | isAfter
    · exact absurd (same.trans own) (Nat.ne_of_lt (less _ isBefore))
    · exact absurd rfl apart
    · have order := pairwise_countsOf files
      rw [split] at order
      exact List.rel_of_pairwise_cons (List.pairwise_append.mp order).2.1 isAfter

theorem leader?_countsOf_eq_none_iff :
    leader? (countsOf files) = none ↔ ∀ file ∈ files, ¬ IsKnown file := by
  rw [leader?_eq_none_iff, countsOf_eq, List.map_eq_nil_iff]
  simp only [List.eq_nil_iff_forall_not_mem, List.mem_eraseDups, List.mem_filterMap,
    ← isSome_ofFile?_iff, Option.isSome_iff_exists]
  constructor
  · rintro empty file member ⟨language, found⟩
    exact empty language ⟨file, member, found⟩
  · rintro unknown language ⟨file, member, found⟩
    exact unknown file member ⟨language, found⟩

/-- The language of most files is unknown exactly if the extensions of all files are. Otherwise it
is the one that leads. -/
theorem primary_eq_iff_leads (files : List String) :
    (primary files = "unknown" ↔ ∀ file ∈ files, ¬ IsKnown file) ∧
      ((∃ file ∈ files, IsKnown file) →
        ∀ language, primary files = language ↔ Leads files language) := by
  rw [← leader?_countsOf_eq_none_iff, primary_eq]
  cases found : leader? (countsOf files) with
  | none =>
      refine ⟨iff_of_true rfl rfl, fun ⟨file, member, known⟩ => ?_⟩
      exact absurd known (leader?_countsOf_eq_none_iff.mp found file member)
  | some entry =>
      have leads := leads_of_leader? found
      refine ⟨iff_of_false ?_ (Option.some_ne_none _), fun _ language => ⟨?_, ?_⟩⟩
      · intro isUnknown
        obtain ⟨occurs, _⟩ := mem_countsOf_iff.mp (mem_of_leader? found)
        obtain ⟨file, _, own⟩ := List.mem_filterMap.mp occurs
        exact ofFile?_ne_unknown file (own.trans (congrArg some isUnknown))
      · rintro rfl
        exact leads
      · exact eq_of_leads leads

/-- Two files are in each of two languages here, and the first file decides. -/
theorem primary_eq_iff_leads_tie :
    (∃ file ∈ ["web/a.js", "b.go", "README", "c.JSX", "d.Go"], IsKnown file) ∧
      Leads ["web/a.js", "b.go", "README", "c.JSX", "d.Go"] "javascript" := by
  have known : ∃ file ∈ ["web/a.js", "b.go", "README", "c.JSX", "d.Go"], IsKnown file :=
    ⟨"b.go", by decide, isSome_ofFile?_iff.mp (by decide +kernel)⟩
  exact ⟨known, ((primary_eq_iff_leads _).2 known "javascript").mp (by decide +kernel)⟩

end Primary

end ChangeImpact.Language
