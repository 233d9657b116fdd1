import PropCatalog.Files.Disk
import PropCatalog.Files.Glob

/-!
# Directories that a pattern names

A pattern for paths is taken component by component, starting at the root or in the working
directory.  A component without wildcards is followed as it is, one with wildcards is matched
against the names in the directory, and `**` leads to everything below.
-/

namespace PropCatalog

namespace Node

mutual

/-- Everything strictly below a node, each with its path, given the path of the node. -/
def descendants (path : Path) : Node → List (Path × Node)
  | .file _ => []
  | .directory es => descendantsOfEntries path es

/-- The entries of a directory and everything below them. -/
def descendantsOfEntries (path : Path) : List (String × Node) → List (Path × Node)
  | [] => []
  | (name, n) :: es =>
      (path.child name, n) :: (n.descendants (path.child name) ++ descendantsOfEntries path es)

end

end Node

namespace Disk

/-- Whether a path says nothing but "here". -/
def isHere (p : Path) : Bool := p.components == [.here]

/-- What the paths of things in a directory start with.  Nothing is said of the directory if that
is "here". -/
def stem (p : Path) : Path := if isHere p then ⟨""⟩ else p

/-- The directory at a path, or an empty one. -/
def directoryAt (disk : Disk) (p : Path) : Node := (disk.get? p).getD (.directory [])

/-- The path of a component without wildcards, if it leads anywhere. -/
def step? (disk : Disk) (p : Path) (name : String) : Option Path :=
  let next := (stem p).child name
  let leads := if name = "." || name = ".." then disk.isDirectory p else disk.exists? next
  if leads then some next else none

/-- The paths of the entries that a component with wildcards matches.  The directory itself and the
one above it are matched only by a pattern that names the leading dot. -/
def matching (disk : Disk) (p : Path) (g : Glob) : List Path :=
  if disk.isDirectory p then
    let names := (disk.directoryAt p).entries.map Prod.fst
    let dots := if g.hasLeadingDot then [".", ".."].filter g.isMatch else []
    (names.filter g.isMatch).map (stem p).child ++ dots.map p.child
  else []

/-- Whether the last name of a path matches a pattern. -/
def namedBy (g : Glob) (p : Path) : Bool := (p.fileName?.map g.isMatch).getD false

mutual

/-- The paths that components lead to from a path. -/
def expand (disk : Disk) : List Glob → Path → List Path
  | [], p => [p]
  | g :: gs, p =>
      match g.literal? with
      | some name => ((disk.step? p name).map (expand disk gs)).getD []
      | none =>
          if g.isRecursive then expandBelow disk gs p
          else (disk.matching p g).flatMap (expand disk gs)

/-- The paths that components lead to from anywhere below a path.  Without components these are the
directories below. -/
def expandBelow (disk : Disk) : List Glob → Path → List Path
  | [], p =>
      (((disk.directoryAt p).descendants (stem p)).filter fun e => e.2.isDirectory).map Prod.fst
  | g :: gs, p =>
      if g.isRecursive then expandBelow disk gs p
      else
        ((((disk.directoryAt p).descendants (stem p)).map Prod.fst).filter (namedBy g)).flatMap
          (expand disk gs)

end

/-- The components of a pattern for paths.  A slash at the end adds none. -/
def patternPieces (pattern : Path) : List String :=
  let pieces := if pattern.isAbsolute then pattern.pieces.tail else pattern.pieces
  if pieces.getLast? == some "" then pieces.dropLast else pieces

/-- The directories that a pattern for paths names, unless it or one of its components is no
pattern. -/
def glob? (disk : Disk) (pattern : Path) : Option (List Path) := do
  let _ ← Glob.compile? pattern.text
  let components ← (patternPieces pattern).mapM Glob.compile?
  if components.isEmpty then return []
  let start : Path := if pattern.isAbsolute then ⟨"/"⟩ else ⟨"."⟩
  return (disk.expand components start).filter disk.isDirectory

end Disk

end PropCatalog
