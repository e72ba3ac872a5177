/-
This file tells the languages of files by their extensions.
-/

import ChangeImpact.ChangeSet.FilePath

namespace ChangeImpact.Language

def extensions : List (String × String) :=
  [("go", "go"), ("js", "javascript"), ("jsx", "javascript"), ("ts", "typescript"),
   ("tsx", "typescript"), ("py", "python"), ("java", "java"), ("rs", "rust"), ("rb", "ruby"),
   ("php", "php"), ("cs", "csharp")]

/-- The language of a file, whatever the case of its extension. -/
def ofFile? (file : String) : Option String := do
  let extension ← (FilePath.ofText file).extension?
  extensions.lookup (String.ofList (extension.map Char.toLower))

/-- Counts one more file of a language; languages stay in the order in which they were seen. -/
def count (language : String) : List (String × Nat) → List (String × Nat)
  | [] => [(language, 1)]
  | (counted, files) :: rest =>
    if counted = language then (counted, files + 1) :: rest
    else (counted, files) :: count language rest

/-- The first language with the greatest count. -/
def mostFrequent? (counts : List (String × Nat)) : Option String :=
  (counts.foldl (fun best entry =>
    match best with
    | none => some entry
    | some kept => if kept.2 < entry.2 then some entry else some kept) none).map Prod.fst

/-- The language of most files. -/
def primary (files : List String) : String :=
  let counts := (files.filterMap ofFile?).foldl (fun counts language => count language counts) []
  (mostFrequent? counts).getD "unknown"

end ChangeImpact.Language
