import PropCatalog.Files.Path

/-!
# Files and directories

A disk is a tree of directories with a working directory in it.  A path is looked up piece by piece
from the root or from the working directory, and every piece, an empty one after a slash included,
asks for a directory to stand in.

Main statement: `Node.get?_insert_self`, that what is written at a place is read there.
-/

namespace PropCatalog

/-- What a file holds: text, or bytes that are no text. -/
inductive Content where
  | text (value : String)
  | bytes (values : List UInt8)
deriving DecidableEq, Repr

/-- A file, or a directory with its entries. -/
inductive Node where
  | file (content : Content)
  | directory (entries : List (String × Node))
deriving Repr

namespace Node

instance : Inhabited Node := ⟨.directory []⟩

/-- Whether a node is a directory. -/
def isDirectory : Node → Bool
  | .directory _ => true
  | .file _ => false

/-- The entries of a directory, and none for a file. -/
def entries : Node → List (String × Node)
  | .directory es => es
  | .file _ => []

/-- The node that names lead to. -/
def get? : List String → Node → Option Node
  | [], n => some n
  | name :: names, n => (n.entries.lookup name).bind (get? names)

/-- Entries with a node under a name, in the place of what was there or else at the end. -/
def setEntry (name : String) (node : Node) : List (String × Node) → List (String × Node)
  | [] => [(name, node)]
  | (other, n) :: es =>
      if other = name then (other, node) :: es else (other, n) :: setEntry name node es

/-- A node with another one where names lead.  Directories that are missing on the way are made; a
file on the way stays what it is. -/
def insert : Node → List String → Node → Node
  | _, [], new => new
  | .file c, _ :: _, _ => .file c
  | .directory es, name :: names, new =>
      .directory (setEntry name (insert ((es.lookup name).getD (.directory [])) names new) es)

/-- Whether the names lead through directories only, as far as they lead anywhere. -/
def isOpen : List String → Node → Bool
  | [], _ => true
  | _ :: _, .file _ => false
  | name :: names, .directory es => ((es.lookup name).map (isOpen names)).getD true

mutual

/-- Every file below a node, with the names that lead to it. -/
def files : Node → List (List String × Content)
  | .file c => [([], c)]
  | .directory es => filesOfEntries es

/-- Every file below the entries of a directory. -/
def filesOfEntries : List (String × Node) → List (List String × Content)
  | [] => []
  | (name, n) :: es => (n.files.map fun f => (name :: f.1, f.2)) ++ filesOfEntries es

end

theorem lookup_setEntry_self (name : String) (node : Node) (es : List (String × Node)) :
    (setEntry name node es).lookup name = some node := by
  induction es with
  | nil => simp [setEntry]
  | cons e es ih =>
    obtain ⟨other, n⟩ := e
    by_cases h : other = name
    · simp [setEntry, h]
    · simp [setEntry, h, List.lookup_cons, beq_false_of_ne (Ne.symm h), ih]

theorem lookup_setEntry_of_ne {name other : String} (h : other ≠ name) (node : Node)
    (es : List (String × Node)) :
    (setEntry name node es).lookup other = es.lookup other := by
  induction es with
  | nil => simp [setEntry, List.lookup_cons, beq_false_of_ne h]
  | cons e es ih =>
    obtain ⟨first, n⟩ := e
    by_cases hf : first = name
    · subst hf
      simp [setEntry, List.lookup_cons, beq_false_of_ne h]
    · by_cases ho : other = first <;> simp [setEntry, hf, List.lookup_cons, ho, ih]

/-- What was written at a place is read there, if the way to it was open. -/
theorem get?_insert_self (new : Node) (names : List String) (n : Node)
    (h : n.isOpen names = true) : (n.insert names new).get? names = some new := by
  induction names generalizing n with
  | nil => simp [insert, get?]
  | cons name names ih =>
    cases n with
    | file c => simp [isOpen] at h
    | directory es =>
      simp only [insert, get?, entries, lookup_setEntry_self, Option.bind_some]
      apply ih
      cases hl : es.lookup name with
      | none => cases names <;> simp [isOpen]
      | some m => simpa [isOpen, hl] using h

end Node

/-! ## Faults -/

/-- Why an operation on files fails. -/
inductive FileFault where
  | notFound
  | alreadyThere
  | notDirectory
  | isDirectory
  | notText
deriving DecidableEq, Repr

/-- The wording of a fault. -/
def FileFault.message : FileFault → String
  | notFound => "No such file or directory (os error 2)"
  | alreadyThere => "File exists (os error 17)"
  | notDirectory => "Not a directory (os error 20)"
  | isDirectory => "Is a directory (os error 21)"
  | notText => "stream did not contain valid UTF-8"

/-! ## Disks -/

/-- A tree of files, and the names that lead from its root to the working directory. -/
structure Disk where
  root : Node
  workingDirectory : List String
deriving Repr

namespace Disk

/-- Follow pieces from a directory, given by the names that lead to it. -/
def follow (disk : Disk) : List String → List String → Except FileFault (List String)
  | place, [] => .ok place
  | place, piece :: pieces =>
      match disk.root.get? place with
      | some (.directory es) =>
          if piece = "" || piece = "." then follow disk place pieces
          else if piece = ".." then follow disk place.dropLast pieces
          else if (es.lookup piece).isSome then follow disk (place ++ [piece]) pieces
          else .error .notFound
      | some (.file _) => .error .notDirectory
      | none => .error .notFound

/-- Where the pieces of a path start. -/
def origin (disk : Disk) (p : Path) : List String :=
  if p.isAbsolute then [] else disk.workingDirectory

/-- The names that lead from the root to what a path names. -/
def locate (disk : Disk) (p : Path) : Except FileFault (List String) :=
  if p.text = "" then .error .notFound else disk.follow (disk.origin p) p.pieces

/-- What a path names. -/
def get? (disk : Disk) (p : Path) : Option Node :=
  match disk.locate p with
  | .ok place => disk.root.get? place
  | .error _ => none

/-- Whether there is anything at a path. -/
def exists? (disk : Disk) (p : Path) : Bool := (disk.get? p).isSome

/-- Whether there is a file at a path. -/
def isFile (disk : Disk) (p : Path) : Bool :=
  match disk.get? p with
  | some (.file _) => true
  | _ => false

/-- Whether there is a directory at a path. -/
def isDirectory (disk : Disk) (p : Path) : Bool :=
  match disk.get? p with
  | some (.directory _) => true
  | _ => false

/-- The text of the file at a path. -/
def readText (disk : Disk) (p : Path) : Except FileFault String := do
  match disk.root.get? (← disk.locate p) with
  | some (.file (.text s)) => .ok s
  | some (.file (.bytes _)) => .error .notText
  | some (.directory _) => .error .isDirectory
  | none => .error .notFound

/-- The directory that something at a path would be made in, and its name there.  Slashes at the
end do not count. -/
def slot (disk : Disk) (p : Path) : Except FileFault (List String × String) :=
  match p.pieces.reverse.dropWhile (· = "") with
  | [] => .error (if p.text = "" then .notFound else .alreadyThere)
  | last :: before => do
      let place ← disk.follow (disk.origin p) before.reverse
      match disk.root.get? place with
      | some (.directory _) => .ok (place, last)
      | some (.file _) => .error .notDirectory
      | none => .error .notFound

/-- Make a directory. -/
def makeDirectory (disk : Disk) (p : Path) : Except FileFault Disk := do
  let (place, name) ← disk.slot p
  if name = "." || name = ".." then .error .alreadyThere
  else
    let target := place ++ [name]
    if (disk.root.get? target).isSome then .error .alreadyThere
    else .ok { disk with root := disk.root.insert target (.directory []) }

/-- Make the first of some paths a directory, each path lying in the one after it, and first make
those that are missing on the way.  What has been made before a fault stays. -/
def makeChain (disk : Disk) : List Path → Except (FileFault × Disk) Disk
  | [] => .error (.notFound, disk)
  | p :: ancestors =>
      if p.text = "" then .ok disk
      else
        match disk.makeDirectory p with
        | .ok made => .ok made
        | .error .notFound => do
            let base ← disk.makeChain ancestors
            match base.makeDirectory p with
            | .ok made => .ok made
            | .error fault => if base.isDirectory p then .ok base else .error (fault, base)
        | .error fault => if disk.isDirectory p then .ok disk else .error (fault, disk)

/-- Make a directory together with those that its text says it lies in. -/
def makeDirectories (disk : Disk) (p : Path) : Except (FileFault × Disk) Disk :=
  disk.makeChain p.ancestors

/-- Write a text to a file, which is made if it is missing. -/
def writeText (disk : Disk) (p : Path) (text : String) : Except FileFault Disk := do
  let (place, name) ← disk.slot p
  if name = "." || name = ".." then .error .isDirectory
  else
    let target := place ++ [name]
    match disk.root.get? target with
    | some (.directory _) => .error .isDirectory
    | _ => .ok { disk with root := disk.root.insert target (.file (.text text)) }

/-- The files below the working directory. -/
def workingFiles (disk : Disk) : List (List String × Content) :=
  ((disk.root.get? disk.workingDirectory).map Node.files).getD []

/-- The files below the working directory that are new or hold something new. -/
def changes (before after : Disk) : List (Path × Content) :=
  let known := before.workingFiles
  (after.workingFiles.filter fun f => known.lookup f.1 != some f.2).map fun f =>
    (⟨"/".intercalate f.1⟩, f.2)

/-- The place that components lead to by themselves from another one, whatever there is. -/
def placeFrom (place : List String) : List Path.Component → List String
  | [] => place
  | .root :: components => placeFrom [] components
  | .here :: components => placeFrom place components
  | .up :: components => placeFrom place.dropLast components
  | .name x :: components => placeFrom (place ++ [x]) components

/-- A disk with the given directories and files, whose paths start in the working directory, and with
nothing else. -/
def ofFiles (directories : List Path) (files : List (Path × Content)) : Disk :=
  let workingDirectory := ["project"]
  let place (p : Path) := placeFrom workingDirectory p.components
  let withDirectories := directories.foldl (fun n p =>
    if (n.get? (place p)).isSome then n else n.insert (place p) (.directory []))
    (.directory [("project", .directory [])])
  let withFiles := files.foldl (fun n f => n.insert (place f.1) (.file f.2)) withDirectories
  ⟨withFiles, workingDirectory⟩

end Disk

end PropCatalog
