import PropCatalog.Command.Run

/-!
# The command line

The program reads what lies below its working directory, runs the command on it, prints what the
command prints and writes the files that the command changed.
-/

namespace PropCatalog.Program

/-- What the bytes of a file hold. -/
def contentOf (bytes : ByteArray) : Content :=
  match String.fromUTF8? bytes with
  | some s => .text s
  | none => .bytes bytes.toList

/-- Read an entry of a directory with everything below it. -/
partial def readEntry (entry : IO.FS.DirEntry) : IO (String × Node) := do
  if ← entry.path.isDir then
    let entries ← (← entry.path.readDir).toList.mapM readEntry
    return (entry.fileName, .directory entries)
  else
    return (entry.fileName, .file (contentOf (← IO.FS.readBinFile entry.path)))

/-- Read the disk as far as it lies below the working directory. -/
def readDisk : IO Disk := do
  let dir ← IO.currentDir
  let entries ← (← dir.readDir).toList.mapM readEntry
  let place := (Path.mk dir.toString).names
  return ⟨(Node.directory []).insert place (.directory entries), place⟩

/-- Write a file that a command changed. -/
def writeChange (change : Path × Content) : IO Unit := do
  if let some parent := change.1.parent? then
    unless parent.text.isEmpty do IO.FS.createDirAll parent.text
  match change.2 with
  | .text s => IO.FS.writeFile change.1.text s
  | .bytes values => IO.FS.writeBinFile change.1.text ⟨values.toArray⟩

/-- What is said about a command line that names no command to run. -/
def usageText : UsageError → String
  | .displayHelp => Command.helpText
  | .displayVersion => "proptypes-meta 0.1.0\n"
  | .unknownArgument => "error: unexpected argument found\n"
  | .invalidSubcommand => "error: unrecognized subcommand\n"
  | .invalidValue => "error: a value is required but none was supplied\n"
  | .argumentConflict => "error: an argument cannot be used with another or twice\n"
  | .tooManyValues => "error: unexpected value found\n"

/-- Run a command on the files below the working directory. -/
def perform (command : Command) : IO UInt32 := do
  let disk ← readDisk
  let outcome := command.run disk
  (disk.changes outcome.disk).forM writeChange
  IO.print outcome.output
  IO.eprint outcome.warnings
  if let some message := outcome.error then IO.eprintln ("Error: " ++ message)
  return outcome.exit.toUInt32

end PropCatalog.Program

open PropCatalog in
/-- Run the command that the arguments ask for. -/
def main (arguments : List String) : IO UInt32 := do
  match Command.parse arguments with
  | .ok command => Program.perform command
  | .error e =>
      if e.exit = 0 then IO.print (Program.usageText e) else IO.eprint (Program.usageText e)
      return e.exit.toUInt32
