import PropCatalog.Files.Disk
import PropCatalog.Settings.Check
import PropCatalog.Settings.Decode

/-!
# Finding the settings of a project

The settings file is looked for in a directory and in those that its path says it lies in, up to
the first that holds a repository.  Without a file the defaults are used.
-/

namespace PropCatalog

/-- The entry that marks the directory of a repository. -/
def repositoryMark : String := ".git"

/-- The first settings file in a list of directories, none of which before it holds a
repository. -/
def Disk.firstSettings? (disk : Disk) : List Path → Option Path
  | [] => none
  | dir :: dirs =>
      let candidate := dir.child Settings.fileName
      if disk.isFile candidate then some candidate
      else if disk.exists? (dir.child repositoryMark) then none
      else disk.firstSettings? dirs

/-- The settings file for a directory. -/
def Disk.settingsFile? (disk : Disk) (start : Path) : Option Path :=
  disk.firstSettings? start.ancestors

/-- Why settings cannot be loaded from a file. -/
inductive LoadError where
  | unreadable (path : Path) (fault : FileFault)
  | undecodable (path : Path) (error : Settings.DecodeError)
  | unacceptable (path : Path) (objection : Settings.Objection)
deriving DecidableEq, Repr

/-- The wording of an error. -/
def LoadError.message : LoadError → String
  | unreadable path fault =>
      "Failed to read ptmeta settings from " ++ path.text ++ ": " ++ fault.message
  | undecodable path error =>
      path.text ++ " is not a valid ptmeta config (expected `includes`, `ignores`, `sourceRoot`, "
        ++ "`ignoreTestFiles` and a `transform` object): " ++ error.message
  | unacceptable path objection =>
      "Invalid scan or transform settings in " ++ path.text ++ ": " ++ objection.message

/-- Settings, and the file they come from if they are not the defaults. -/
structure LoadedSettings where
  settings : Settings
  path : Option Path
deriving DecidableEq, Repr

/-- Load settings from a file. -/
def Disk.loadFrom (disk : Disk) (path : Path) : Except LoadError LoadedSettings := do
  let text ← (disk.readText path).mapError (.unreadable path)
  let decoded ← (Settings.parse text).mapError (.undecodable path)
  let settings ← decoded.check.mapError (.unacceptable path)
  return ⟨settings, some path⟩

/-- The settings for a directory. -/
def Disk.loadSettings (disk : Disk) (start : Path) : Except LoadError LoadedSettings :=
  match disk.settingsFile? start with
  | none => .ok ⟨{}, none⟩
  | some path => disk.loadFrom path

end PropCatalog
