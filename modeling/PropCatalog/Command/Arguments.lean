import PropCatalog.Files.Path

/-!
# Command lines

A command line names a command and gives it flags, options and paths.  The value of an option and
a run of paths are gathered first and checked only when the next flag or option is taken or the
line ends, so an unknown argument right after them is reported before what is wrong with them.
-/

namespace PropCatalog

/-- What is asked for instead of a command, or what is wrong with a command line. -/
inductive UsageError where
  | unknownArgument
  | invalidSubcommand
  | invalidValue
  | argumentConflict
  | tooManyValues
  | displayHelp
  | displayVersion
deriving DecidableEq, Repr

/-- The exit code. -/
def UsageError.exit : UsageError → Nat
  | displayHelp | displayVersion => 0
  | _ => 2

/-- What to inspect. -/
structure InspectCommand where
  paths : List Path
  json : Bool
  sourceRoot : Option Path
  verbose : Bool
deriving DecidableEq, Repr

/-- Where the results of a transformation go. -/
structure TransformCommand where
  paths : List Path
  write : Bool
  outDir : Option Path
  sourceRoot : Option Path
  verbose : Bool
deriving DecidableEq, Repr

/-- What a command line asks for. -/
inductive Command where
  | usage
  | init
  | inspect (command : InspectCommand)
  | transform (command : TransformCommand)
deriving DecidableEq, Repr

namespace Command

/-- What a command takes. -/
structure Shape where
  /-- Flags by their long names, and their letters. -/
  flags : List (String × Option Char)
  /-- Options with a value. -/
  options : List String
  /-- Whether paths may be given. -/
  takesPaths : Bool

/-- The flag that asks for help. -/
def helpFlag : String × Option Char := ("help", some 'h')

/-- The flag that asks for details. -/
def verboseFlag : String × Option Char := ("verbose", some 'v')

/-- What `init` takes. -/
def initShape : Shape := ⟨[helpFlag], [], false⟩

/-- What `inspect` takes. -/
def inspectShape : Shape := ⟨[("json", none), verboseFlag, helpFlag], ["source-root"], true⟩

/-- What `transform` takes. -/
def transformShape : Shape :=
  ⟨[("write", none), verboseFlag, helpFlag], ["out-dir", "source-root"], true⟩

/-- What values are being gathered for. -/
inductive Slot where
  | paths
  | option (name : String)
deriving DecidableEq, Repr

/-- What has been taken from a command line. -/
structure Taken where
  flags : List String := []
  options : List (String × String) := []
  paths : List String := []
  /-- Values that have been gathered but not checked, latest first. -/
  pending : Option (Slot × List String) := none
  /-- Whether the next word is the value of an option. -/
  awaiting : Bool := false
  /-- Whether everything that follows is a path. -/
  trailing : Bool := false
deriving Repr

namespace Taken

/-- Check the values that have been gathered and keep them. -/
def settle (t : Taken) : Except UsageError Taken :=
  match t.pending with
  | none => .ok t
  | some (.paths, values) =>
      if values.contains "" then .error .invalidValue
      else .ok { t with pending := none, paths := t.paths ++ values.reverse }
  | some (.option name, values) =>
      match values with
      | [] => .error .invalidValue
      | value :: _ =>
          if (t.options.lookup name).isSome then .error .argumentConflict
          else if value = "" then .error .invalidValue
          else .ok { t with pending := none, options := (name, value) :: t.options }

/-- Take a flag. -/
def flag (t : Taken) (name : String) : Except UsageError Taken := do
  let t ← t.settle
  if name = "help" then .error .displayHelp
  else if t.flags.contains name then .error .argumentConflict
  else .ok { t with flags := name :: t.flags, awaiting := false }

/-- Take letters of flags. -/
def letters (shape : Shape) (t : Taken) : List Char → Except UsageError Taken
  | [] => .ok t
  | c :: cs =>
      match shape.flags.find? fun f => f.2 == some c with
      | none => .error .unknownArgument
      | some f => do letters shape (← t.flag f.1) cs

/-- Split a long argument at its first equals sign. -/
def splitLong (cs : List Char) : String × Option String :=
  let name := cs.takeWhile (· != '=')
  (String.ofList name,
    if name.length < cs.length then some (String.ofList (cs.drop (name.length + 1))) else none)

/-- Take a long argument, without its dashes. -/
def long (shape : Shape) (t : Taken) (cs : List Char) : Except UsageError Taken :=
  let (name, value) := splitLong cs
  if shape.options.contains name then do
    let t ← t.settle
    match value with
    | some v => settle { t with pending := some (.option name, [v]), awaiting := false }
    | none => .ok { t with pending := some (.option name, []), awaiting := true }
  else if (shape.flags.lookup name).isSome then
    match value with
    | some _ => .error .tooManyValues
    | none => t.flag name
  else .error .unknownArgument

/-- Take a word that is neither flag nor option. -/
def word (shape : Shape) (t : Taken) (s : String) : Except UsageError Taken :=
  if t.awaiting && !t.trailing then
    match t.pending with
    | some (slot, values) =>
        .ok { t with pending := some (slot, s :: values), awaiting := false }
    | none => .ok { t with awaiting := false }
  else if !shape.takesPaths then .error .unknownArgument
  else
    match t.pending with
    | some (.paths, values) => .ok { t with pending := some (.paths, s :: values) }
    | _ => do
        let t ← t.settle
        .ok { t with pending := some (.paths, [s]), awaiting := false }

/-- Take an argument. -/
def argument (shape : Shape) (t : Taken) (s : String) : Except UsageError Taken :=
  if t.trailing then t.word shape s
  else
    match s.toList with
    | ['-', '-'] => .ok { t with trailing := true }
    | '-' :: '-' :: cs => t.long shape cs
    | '-' :: c :: cs => t.letters shape (c :: cs)
    | _ => t.word shape s

/-- Take all arguments and check what has been gathered at the end. -/
def all (shape : Shape) (arguments : List String) : Except UsageError Taken := do
  let t ← arguments.foldlM (argument shape) {}
  t.settle

/-- Whether a flag was given. -/
def has (t : Taken) (name : String) : Bool := t.flags.contains name

/-- The value of an option, as a path. -/
def path? (t : Taken) (name : String) : Option Path := (t.options.lookup name).map Path.mk

end Taken

/-- The arguments of `inspect`. -/
def readInspect (arguments : List String) : Except UsageError Command := do
  let t ← Taken.all inspectShape arguments
  return .inspect ⟨t.paths.map Path.mk, t.has "json", t.path? "source-root", t.has "verbose"⟩

/-- The arguments of `transform`.  Results go to the files themselves or to a directory, not
both. -/
def readTransform (arguments : List String) : Except UsageError Command := do
  let t ← Taken.all transformShape arguments
  if t.has "write" && (t.path? "out-dir").isSome then .error .argumentConflict
  else
    return .transform ⟨t.paths.map Path.mk, t.has "write", t.path? "out-dir",
      t.path? "source-root", t.has "verbose"⟩

/-- The arguments of `init`. -/
def readInit (arguments : List String) : Except UsageError Command := do
  let _ ← Taken.all initShape arguments
  return .init

/-- The commands by name, with what reads their arguments. -/
def readers : List (String × (List String → Except UsageError Command)) := [
  ("inspect", readInspect), ("transform", readTransform), ("init", readInit)]

/-- Whether a word names a command that help can be asked for. -/
def isName (s : String) : Bool := s = "help" || (readers.lookup s).isSome

/-- What `help` with the words after it asks for. -/
def readHelp : List String → UsageError
  | [] => .displayHelp
  | [s] => if isName s then .displayHelp else .invalidSubcommand
  | _ => .invalidSubcommand

/-- What a group of letters before any command asks for. -/
def readLetters : List Char → UsageError
  | 'h' :: _ => .displayHelp
  | 'V' :: _ => .displayVersion
  | _ => .unknownArgument

/-- What a long argument before any command asks for. -/
def readLong (cs : List Char) : UsageError :=
  match Taken.splitLong cs with
  | ("help", none) => .displayHelp
  | ("version", none) => .displayVersion
  | ("help", some _) => .tooManyValues
  | ("version", some _) => .tooManyValues
  | _ => .unknownArgument

/-- What a command line asks for. -/
def parse : List String → Except UsageError Command
  | [] => .ok .usage
  | first :: rest =>
      match first.toList with
      | ['-', '-'] =>
          match rest with
          | [] => .ok .usage
          | s :: _ => .error (if isName s then .unknownArgument else .invalidSubcommand)
      | '-' :: '-' :: cs => .error (readLong cs)
      | '-' :: c :: cs => .error (readLetters (c :: cs))
      | _ =>
          if first = "help" then .error (readHelp rest)
          else
            match readers.lookup first with
            | some read => read rest
            | none => .error .invalidSubcommand

end Command

end PropCatalog
