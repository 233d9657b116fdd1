import PropCatalog.Files.Expand
import PropCatalog.Source.Dialect
import PropCatalog.Text.Ascending

/-!
# Finding source files

A scan walks one or more roots and keeps the source files that no ignore entry excludes.
Directories of packages and hidden directories are not entered below a root.
-/

namespace PropCatalog

/-- The patterns of files that hold tests. -/
def testPatterns : List String := [
  "**/*.test.tsx", "**/*.test.ts", "**/*.test.jsx", "**/*.test.js",
  "**/*.spec.tsx", "**/*.spec.ts", "**/*.spec.jsx", "**/*.spec.js",
  "**/__tests__/**"]

/-- Whether a directory of this name is not entered. -/
def isSkippedName (name : String) : Bool :=
  name == "node_modules" || name.toList.head? == some '.'

namespace Node

mutual

/-- The files found by walking a node, each with its path, given the path of the node. -/
def walk (path : Path) : Node → List Path
  | .file _ => [path]
  | .directory es => walkEntries path es

/-- The files found by walking the entries of a directory. -/
def walkEntries (path : Path) : List (String × Node) → List Path
  | [] => []
  | (name, n) :: es =>
      (if n.isDirectory && isSkippedName name then [] else n.walk (path.child name))
        ++ walkEntries path es

end

end Node

/-- What is left out of a scan: paths below some places, and paths that match a pattern. -/
structure Ignores where
  places : List Path
  patterns : List Glob
deriving DecidableEq, Repr

namespace Ignores

/-- The ignores that entries describe.  An entry without wildcards is a place below the base, and
an entry that is no pattern is dropped. -/
def ofEntries (base : Path) (entries : List String) (tests : Bool) : Ignores where
  places := (entries.filter fun e => !Glob.hasWildcard e).map fun e => base.join ⟨e⟩
  patterns := ((entries.filter Glob.hasWildcard) ++ (if tests then testPatterns else [])).filterMap
    Glob.compile?

/-- Whether a path is left out. -/
def excludes (i : Ignores) (p : Path) : Bool :=
  i.places.any p.startsWith || i.patterns.any fun g => g.isMatch p.text

end Ignores

/-- What to scan. -/
structure ScanRequest where
  base : Path
  includes : List String := []
  ignores : List String := []
  ignoreTestFiles : Bool := true
deriving DecidableEq, Repr

/-- The files that a scan found, and how many roots could not be walked. -/
structure ScanResult where
  files : List String
  skipped : Nat
deriving DecidableEq, Repr

namespace Disk

/-- The roots that an include entry asks for. -/
def includeRoots (disk : Disk) (base : Path) (entry : String) : List Path :=
  let path := base.join ⟨entry⟩
  if Glob.hasWildcard entry then (disk.glob? path).getD []
  else if disk.exists? path then [path] else []

/-- The roots of a scan. -/
def scanRoots (disk : Disk) (request : ScanRequest) : List Path :=
  if request.includes.isEmpty then [request.base]
  else request.includes.flatMap (disk.includeRoots request.base)

/-- Find source files. -/
def scan (disk : Disk) (request : ScanRequest) : ScanResult :=
  let ignores := Ignores.ofEntries request.base request.ignores request.ignoreTestFiles
  let roots := disk.scanRoots request
  let found := roots.flatMap fun root => ((disk.get? root).map (Node.walk root)).getD []
  let kept := found.filter fun p => Source.isSource p && !ignores.excludes p
  ⟨Text.ascending (kept.map Path.text), (roots.filter fun root => !disk.exists? root).length⟩

end Disk

end PropCatalog
