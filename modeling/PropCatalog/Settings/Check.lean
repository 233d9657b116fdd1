import PropCatalog.Files.Glob
import PropCatalog.Settings.Basic
import PropCatalog.Text.Blank

/-!
# Settings that make sense

Every ignore entry must be a pattern, and so must every include entry with a wildcard.  No name may
be blank.
-/

namespace PropCatalog.Settings

/-- What is wrong with settings. -/
inductive Objection where
  | badIgnore (entry : String) (error : Glob.Error)
  | badInclude (entry : String) (error : Glob.Error)
  | blankName (field : String)
deriving DecidableEq, Repr

/-- The wording of an objection. -/
def Objection.message : Objection → String
  | badIgnore entry error =>
      "Invalid glob pattern in 'ignores': \"" ++ entry ++ "\": " ++ error.message
  | badInclude entry error =>
      "Invalid glob pattern in 'includes': \"" ++ entry ++ "\": " ++ error.message
  | blankName field => "'transform." ++ field ++ "' must not be empty"

/-- The objection to an entry that is to be a pattern. -/
def patternObjection? (objection : String → Glob.Error → Objection) (entry : String) :
    Option Objection :=
  match Glob.compile entry with
  | .ok _ => none
  | .error e => some (objection entry e)

/-- The names with their fields. -/
def namedOptions (o : Options) : List (String × String) := [
  ("librarySource", o.librarySource), ("defaultAlias", o.defaultAlias),
  ("metadataField", o.metadataField), ("libraryBaseName", o.libraryBaseName)]

/-- All objections to settings, the first of which is reported. -/
def objections (s : Settings) : List Objection :=
  s.ignores.filterMap (patternObjection? .badIgnore)
    ++ (s.includes.filter Glob.hasWildcard).filterMap (patternObjection? .badInclude)
    ++ (((namedOptions s.options).filter fun n => Text.isBlank n.2).map fun n =>
        .blankName n.1)

/-- Accept settings to which there is no objection. -/
def check (s : Settings) : Except Objection Settings :=
  match s.objections with
  | [] => .ok s
  | o :: _ => .error o

end PropCatalog.Settings
