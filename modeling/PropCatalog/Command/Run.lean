import PropCatalog.Command.Arguments
import PropCatalog.Command.Inspection
import PropCatalog.Files.Scan
import PropCatalog.Settings.Locate
import PropCatalog.Source.Attach

/-!
# Running commands

A command takes a disk and gives an outcome: an exit code, what is printed, and the disk
afterwards.  Everything is read before anything is written.
-/

namespace PropCatalog

/-- What a command leaves behind. -/
structure Outcome where
  exit : Nat
  /-- Why the command itself failed, if it did. -/
  error : Option String := none
  output : String := ""
  warnings : String := ""
  disk : Disk

namespace Command

/-- The text that explains the commands. -/
def helpText : String :=
  "Compile-time propTypes metadata for React components, without a runtime prop-types dependency\n"
    ++ "\n"
    ++ "Usage: proptypes-meta [COMMAND]\n"
    ++ "\n"
    ++ "Commands:\n"
    ++ "  inspect    Report the components, propTypes, and metadata the transform finds in source "
    ++ "files\n"
    ++ "  transform  Attach metadata to components and print the transformed sources (or write them "
    ++ "with --write / --out-dir)\n"
    ++ "  init       Initialize a new .ptmetarc.json configuration file\n"
    ++ "  help       Print this message or the help of the given subcommand(s)\n"
    ++ "\n"
    ++ "Options:\n"
    ++ "  -h, --help     Print help\n"
    ++ "  -V, --version  Print version\n"

/-! ## Settings file -/

/-- Write a settings file with the defaults, unless there is something under its name. -/
def runInit (disk : Disk) : Outcome :=
  let path : Path := ⟨Settings.fileName⟩
  if disk.exists? path then
    { exit := 1, warnings := line ("Error: " ++ Settings.fileName ++ " already exists"), disk }
  else
    match disk.writeText path (Settings.render {}) with
    | .ok written =>
        { exit := 0, output := line (successMark ++ " Created " ++ Settings.fileName)
          disk := written }
    | .error fault =>
        { exit := 2, disk
          error := some ("Failed to write " ++ Settings.fileName ++ ": " ++ fault.message) }

/-! ## Source files -/

/-- The directory to scan when no paths are given: the source root of the settings, taken from the
directory that the command works in. -/
def scanBase (root : Path) (sourceRoot : Path) : Path :=
  if sourceRoot.isAbsolute then sourceRoot
  else if root.components.all (· == .here) then sourceRoot
  else root.join (sourceRoot.withoutHere?.getD sourceRoot)

/-- The files that one path argument stands for. -/
def filesAt (disk : Disk) (settings : Settings) (p : Path) : Except String ScanResult :=
  if disk.isDirectory p then
    .ok (disk.scan ⟨p, [], settings.ignores, settings.ignoreTestFiles⟩)
  else if disk.isFile p then .ok ⟨[p.text], 0⟩
  else .error ("Path does not exist: " ++ p.text)

/-- The files that a command works on. -/
def resolveFiles (disk : Disk) (settings : Settings) (root : Path) (paths : List Path) :
    Except String ScanResult :=
  if paths.isEmpty then
    .ok (disk.scan ⟨scanBase root ⟨settings.sourceRoot⟩, settings.includes, settings.ignores,
      settings.ignoreTestFiles⟩)
  else do
    let results ← paths.mapM (filesAt disk settings)
    return ⟨Text.ascending (results.flatMap ScanResult.files),
      (results.map ScanResult.skipped).foldr (· + ·) 0⟩

/-- Settings, files and warnings for a command on source files. -/
structure Sources where
  settings : Settings
  found : ScanResult
  /-- What is printed about the settings. -/
  notes : String

/-- The note that there is no settings file. -/
def defaultsNote : String :=
  line ("Note: No " ++ Settings.fileName ++ " found, using default configuration")

/-- Find settings and files.  On failure there may be notes already. -/
def findSources (disk : Disk) (paths : List Path) (sourceRoot : Option Path) (verbose : Bool) :
    Except (String × String) Sources := do
  let root := sourceRoot.getD ⟨"."⟩
  let loaded ← (disk.loadSettings root).mapError fun e => (e.message, "")
  let notes := if verbose && loaded.path.isNone then defaultsNote else ""
  let found ← (resolveFiles disk loaded.settings root paths).mapError fun e => (e, notes)
  return ⟨loaded.settings, found, notes⟩

/-- The outcome of a command that could not find what it works on. -/
def failed (disk : Disk) (e : String × String) : Outcome :=
  { exit := 2, error := some e.1, warnings := e.2, disk }

/-- Attach metadata to the text of a file. -/
def attachFile (disk : Disk) (options : Options) (file : String) :
    Except String (Report × String) := do
  let path : Path := ⟨file⟩
  let text ← (disk.readText path).mapError fun fault =>
    "Failed to read file: " ++ file ++ ": " ++ fault.message
  match Source.attach? (.ofPath path) text options with
  | some result => .ok result
  | none => .error (Source.unreadableMessage path)

/-! ## Inspecting -/

/-- Inspect files. -/
def inspectFiles (disk : Disk) (options : Options) (files : List String) : List InspectedFile :=
  files.map fun file => ⟨file, (attachFile disk options file).map Prod.fst⟩

/-- Report what is found in source files. -/
def runInspect (disk : Disk) (c : InspectCommand) : Outcome :=
  match findSources disk c.paths c.sourceRoot c.verbose with
  | .error e => failed disk e
  | .ok sources =>
      let inspection : Inspection :=
        ⟨inspectFiles disk sources.settings.options sources.found.files, sources.found.skipped⟩
      { exit := if inspection.failureCount = 0 then 0 else 1
        output := if c.json then line inspection.toJson.pretty else inspection.text c.verbose
        warnings := sources.notes
        disk }

/-! ## Transforming -/

/-- Where results go. -/
inductive Destination where
  | print
  | inPlace
  | directory (dir : Path)
deriving DecidableEq, Repr

/-- Where the results of a command go. -/
def destination (c : TransformCommand) : Destination :=
  match c.outDir with
  | some dir => .directory dir
  | none => if c.write then .inPlace else .print

/-- The path below a directory that keeps the names of a path and nothing else of it. -/
def outPath (dir : Path) (file : String) : Path :=
  dir.join ⟨"/".intercalate (Path.mk file).names⟩

/-- The line about a file that was written. -/
def writtenLine (target : String) (r : Report) : String :=
  line (successMark ++ " " ++ target ++ " (" ++ toString r.emittedCount ++ " of "
    ++ toString r.components.length ++ " components with metadata)")

/-- Write a text to a file. -/
def writeFile (disk : Disk) (target : Path) (text : String) : Except String Disk :=
  (disk.writeText target text).mapError fun fault =>
    "Failed to write file: " ++ target.text ++ ": " ++ fault.message

/-- Write a text to a file in a directory that may have to be made.  On failure the directories that
have been made stay. -/
def writeBelow (disk : Disk) (target : Path) (text : String) : Except (String × Disk) Disk := do
  let ready ← match target.parent? with
    | none => .ok disk
    | some parent => (disk.makeDirectories parent).mapError fun e =>
        ("Failed to create directory: " ++ parent.text ++ ": " ++ e.1.message, e.2)
  (writeFile ready target text).mapError fun message => (message, ready)

/-- Put a result where it goes.  The outcome so far is extended; headers are printed when there are
several files.  On failure there is the disk as it was left. -/
def deliver (destination : Destination) (headers : Bool) (file : String) (r : Report)
    (code : String) (o : Outcome) : Except (String × Disk) Outcome :=
  match destination with
  | .print =>
      .ok { o with output := o.output ++ (if headers then line ("// " ++ file) else "") ++ code }
  | .inPlace => do
      let disk ← (writeFile o.disk ⟨file⟩ code).mapError fun message => (message, o.disk)
      return { o with disk, output := o.output ++ writtenLine file r }
  | .directory dir => do
      let target := outPath dir file
      let disk ← writeBelow o.disk target code
      return { o with disk, output := o.output ++ writtenLine target.text r }

/-- Deliver results in order.  The first that cannot be delivered ends the command. -/
def deliverAll (destination : Destination) (headers : Bool) :
    List (String × Except String (Report × String)) → Outcome → Outcome
  | [], o => o
  | (file, .error message) :: results, o =>
      deliverAll destination headers results
        { o with
          exit := 1
          warnings := o.warnings ++ line (failureMark ++ " " ++ file ++ ": " ++ message) }
  | (file, .ok (r, code)) :: results, o =>
      match deliver destination headers file r code o with
      | .ok next => deliverAll destination headers results next
      | .error e => { o with exit := 2, error := some e.1, disk := e.2 }

/-- The reports of the results that succeeded. -/
def succeeded (results : List (String × Except String (Report × String))) : List Report :=
  results.filterMap fun r => r.2.toOption.map Prod.fst

/-- The lines that sum up what was written. -/
def transformSummary (results : List (String × Except String (Report × String))) : String :=
  let reports := succeeded results
  line "" ++ line ("Transformed " ++ toString reports.length ++ " of " ++ toString results.length
    ++ " files, " ++ toString ((reports.map Report.emittedCount).foldr (· + ·) 0)
    ++ " with metadata")

/-- Attach metadata to source files and deliver the results. -/
def runTransform (disk : Disk) (c : TransformCommand) : Outcome :=
  match findSources disk c.paths c.sourceRoot c.verbose with
  | .error e => failed disk e
  | .ok sources =>
      let target := destination c
      let results := sources.found.files.map fun file =>
        (file, attachFile disk sources.settings.options file)
      let start : Outcome := { exit := 0, warnings := sources.notes, disk }
      let o := deliverAll target (1 < results.length) results start
      if o.error.isSome then o
      else
        { o with
          warnings := o.warnings ++ skippedWarning sources.found.skipped
          output := o.output ++ (if target = .print then "" else transformSummary results) }

/-! ## All commands -/

/-- Run a command. -/
def run (disk : Disk) : Command → Outcome
  | .usage => { exit := 0, output := helpText, disk }
  | .init => runInit disk
  | .inspect c => runInspect disk c
  | .transform c => runTransform disk c

end Command

end PropCatalog
