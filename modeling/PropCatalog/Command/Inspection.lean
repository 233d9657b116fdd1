import PropCatalog.Json.Value
import PropCatalog.Metadata.Attach

/-!
# Reports on inspected files

What was found in each of some files, as lines for a reader or as a JSON document.
-/

namespace PropCatalog

open Component

/-- The mark of success. -/
def successMark : String := "✓"

/-- The mark of failure. -/
def failureMark : String := "✘"

/-- The word for a kind of component in a document. -/
def Component.Kind.word : Kind → String
  | .classDeclaration => "class"
  | .functionDeclaration => "function"
  | .functionValue => "functionValue"

/-- The words for a kind of component in a line. -/
def Component.Kind.label : Kind → String
  | .functionValue => "function value"
  | k => k.word

/-- The report on a component as a JSON object. -/
def ComponentReport.toJson (c : ComponentReport) : Json :=
  .object [("name", .text c.name), ("kind", .text c.kind.word),
    ("properties", .texts c.properties), ("emitted", .bool c.emitted)]

/-- The members of a report as a JSON object. -/
def Report.members (r : Report) : List (String × Json) := [
  ("library", .text r.library), ("alias", .text r.alias),
  ("components", .array (r.components.map ComponentReport.toJson))]

/-- A file with the report on it, or with what went wrong. -/
structure InspectedFile where
  path : String
  outcome : Except String Report

/-- Inspected files in order, and how many paths could not be walked. -/
structure Inspection where
  files : List InspectedFile
  skipped : Nat

/-- Text and a line end. -/
def line (s : String) : String := s ++ "\n"

/-- The warning about paths that could not be walked, if there are any. -/
def skippedWarning (skipped : Nat) : String :=
  if skipped = 0 then ""
  else line ("warning: " ++ toString skipped ++ " path(s) could not be accessed")

/-- A count with the word for one or for several. -/
def counted (n : Nat) (one several : String) : String :=
  toString n ++ " " ++ (if n = 1 then one else several)

namespace ComponentReport

/-- The line on a component. -/
def text (c : ComponentReport) : String :=
  let named := c.name ++ " (" ++ c.kind.label ++ "): "
  line (if c.emitted then "  " ++ successMark ++ " " ++ named ++ ", ".intercalate c.properties
    else "  - " ++ named ++ "no propTypes")

end ComponentReport

namespace InspectedFile

/-- The report on a file, if there is one. -/
def report? (f : InspectedFile) : Option Report := f.outcome.toOption

/-- Whether something went wrong with a file. -/
def isFailed (f : InspectedFile) : Bool := f.report?.isNone

/-- The lines on a file.  A file without components is passed over unless everything is wanted. -/
def text (verbose : Bool) (f : InspectedFile) : String :=
  match f.outcome with
  | .error message => line (failureMark ++ " " ++ f.path ++ ": " ++ message)
  | .ok r =>
      if verbose || !r.components.isEmpty then
        line (f.path ++ " (library " ++ r.library ++ ", alias " ++ r.alias ++ ")")
          ++ String.join (r.components.map ComponentReport.text)
      else ""

/-- A file as a JSON object. -/
def toJson (f : InspectedFile) : Json :=
  .object (("path", .text f.path) :: match f.outcome with
    | .error message => [("error", .text message)]
    | .ok r => r.members)

end InspectedFile

namespace Inspection

/-- The reports on the files that could be inspected. -/
def reports (i : Inspection) : List Report := i.files.filterMap InspectedFile.report?

/-- How many components were found. -/
def componentCount (i : Inspection) : Nat :=
  (i.reports.map fun r => r.components.length).foldr (· + ·) 0

/-- How many components have metadata. -/
def emittedCount (i : Inspection) : Nat := (i.reports.map Report.emittedCount).foldr (· + ·) 0

/-- How many properties were found. -/
def propertyCount (i : Inspection) : Nat := (i.reports.map Report.propertyCount).foldr (· + ·) 0

/-- How many files could not be inspected. -/
def failureCount (i : Inspection) : Nat := (i.files.filter InspectedFile.isFailed).length

/-- The line that sums up. -/
def summary (i : Inspection) : String :=
  let failures := i.failureCount
  line ((if failures = 0 then successMark else failureMark) ++ " Inspected "
    ++ counted i.files.length "file" "files" ++ ": "
    ++ counted i.componentCount "component" "components" ++ ", "
    ++ toString i.emittedCount ++ " with metadata, "
    ++ counted i.propertyCount "property" "properties"
    ++ (if failures = 0 then "" else ", " ++ counted failures "parse error" "parse errors"))

/-- The report as lines. -/
def text (i : Inspection) (verbose : Bool) : String :=
  String.join (i.files.map (InspectedFile.text verbose)) ++ skippedWarning i.skipped ++ line ""
    ++ i.summary

/-- The report as a JSON document. -/
def toJson (i : Inspection) : Json :=
  .object [("files", .array (i.files.map InspectedFile.toJson)),
    ("summary", .object [("files", .ofNat i.files.length), ("components", .ofNat i.componentCount),
      ("emitted", .ofNat i.emittedCount), ("properties", .ofNat i.propertyCount),
      ("parseErrors", .ofNat i.failureCount)])]

end Inspection

end PropCatalog
