import PropCatalog.Json.Value
import PropCatalog.Options

/-!
# Settings of a project

Where to look for source files, which of them to leave out, and the names to work with.  Every
setting has a default.
-/

namespace PropCatalog

/-- The settings of a project. -/
structure Settings where
  /-- Files to leave out: patterns, or places below the scanned directory. -/
  ignores : List String := []
  /-- Directories to scan: patterns, or places below the source root. -/
  includes : List String := []
  /-- The directory that holds the sources. -/
  sourceRoot : String := "./"
  /-- Whether files that hold tests are left out. -/
  ignoreTestFiles : Bool := true
  /-- The names to work with. -/
  options : Options := {}
deriving DecidableEq, Repr, Inhabited

/-- The names as a JSON object. -/
def Options.toJson (o : Options) : Json :=
  .object [("librarySource", .text o.librarySource), ("defaultAlias", .text o.defaultAlias),
    ("metadataField", .text o.metadataField), ("libraryBaseName", .text o.libraryBaseName)]

namespace Settings

/-- The settings as a JSON object, with every field spelled out. -/
def toJson (s : Settings) : Json :=
  .object [("ignores", .texts s.ignores), ("includes", .texts s.includes),
    ("sourceRoot", .text s.sourceRoot), ("ignoreTestFiles", .bool s.ignoreTestFiles),
    ("transform", s.options.toJson)]

/-- The text of a settings file. -/
def render (s : Settings) : String := s.toJson.pretty

/-- The name of a settings file. -/
def fileName : String := ".ptmetarc.json"

end Settings

end PropCatalog
