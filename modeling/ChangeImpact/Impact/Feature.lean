/-
This file infers the features of a product that a module is likely to back.
-/

import ChangeImpact.Text.Casing
import ChangeImpact.Text.Segment

namespace ChangeImpact.Impact

def mentions (text word : String) : Bool :=
  Text.containsWord text.toList word.toList

/-- A segment of a path that holds one of these words names a feature itself. -/
def featureWords : List String :=
  ["service", "handler", "controller", "api"]

/-- Features by convention: the languages that have it, the part of the path that shows it, and its
name. -/
def featureConventions : List (List String × String × String) :=
  [(["go"], "cmd/", "CLI Commands"),
   (["go"], "pkg/", "Core Libraries"),
   (["go"], "internal/", "Internal APIs"),
   (["javascript", "typescript"], "components", "UI Components"),
   (["javascript", "typescript"], "services", "Business Services"),
   (["javascript", "typescript"], "utils", "Utility Functions"),
   (["python"], "models", "Data Models"),
   (["python"], "views", "View Layer"),
   (["python"], "serializers", "Data Serialization"),
   (["rust"], "bin/", "CLI Commands")]

def namedFeatures (path : String) : List String :=
  ((Text.segments path).filter fun segment => featureWords.any (mentions segment)).map
    Text.capitalize

def conventionalFeatures (path language : String) : List String :=
  (featureConventions.filter fun (languages, part, _) =>
    languages.contains language && mentions path part).map fun (_, _, feature) => feature

/-- The features of a module; a module without any is counted as core. -/
def features (path language : String) : List String :=
  match namedFeatures path ++ conventionalFeatures path language with
  | [] => ["Core Functionality"]
  | found => found

end ChangeImpact.Impact
