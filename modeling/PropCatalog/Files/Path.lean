/-!
# Paths

A path is a text.  Its components are what its pieces between slashes say: a leading slash is the
root, repeated slashes and pieces `.` past the first one count for nothing, `..` is a step up, and
every other piece is a name.  Operations that keep a path's text (joining, parents) work on the
pieces, and comparisons work on the components.

Main statements: an absolute path joined to a directory stays as it is (`join_of_isAbsolute`), and so
does every path joined to the empty one (`join_empty`).
-/

namespace PropCatalog

/-- A path to a file or directory. -/
structure Path where
  text : String
deriving DecidableEq, Repr

namespace Path

/-- What a piece of a path says. -/
inductive Component where
  | root
  | here
  | up
  | name (value : String)
deriving DecidableEq, Repr

/-- Cut a list of characters at every slash. -/
def cut : List Char → List (List Char)
  | [] => [[]]
  | c :: cs =>
      if c = '/' then [] :: cut cs
      else
        match cut cs with
        | [] => [[c]]
        | piece :: pieces => (c :: piece) :: pieces

/-- The texts between the slashes of a path. -/
def pieces (p : Path) : List String := (cut p.text.toList).map String.ofList

/-- Whether a path starts at the root. -/
def isAbsolute (p : Path) : Bool := p.text.toList.head? == some '/'

/-- The component that a piece stands for, unless it counts for nothing. -/
def Component.ofPiece? (piece : String) : Option Component :=
  if piece = "" || piece = "." then none
  else if piece = ".." then some .up
  else some (.name piece)

/-- The components of a path. -/
def components (p : Path) : List Component :=
  match p.pieces with
  | [] => []
  | first :: rest =>
      let head :=
        if first = "." then some Component.here
        else if p.isAbsolute then some .root
        else Component.ofPiece? first
      head.toList ++ rest.filterMap Component.ofPiece?

/-- A component's name, if it has one. -/
def Component.name? : Component → Option String
  | .name x => some x
  | _ => none

/-- The names among the components of a path. -/
def names (p : Path) : List String := p.components.filterMap Component.name?

/-- Whether the components of one path begin those of another. -/
def startsWith (p base : Path) : Bool := base.components.isPrefixOf p.components

/-- Append a path to a directory.  An absolute path replaces the directory. -/
def join (dir : Path) (p : Path) : Path :=
  if p.isAbsolute || dir.text = "" then p
  else if dir.text.toList.getLast? == some '/' then ⟨dir.text ++ p.text⟩
  else ⟨dir.text ++ "/" ++ p.text⟩

/-- Append a name to a directory. -/
def child (dir : Path) (name : String) : Path := dir.join ⟨name⟩

/-- The last component of a path, if it is a name. -/
def fileName? (p : Path) : Option String := p.components.getLast?.bind Component.name?

/-- The extension of a file name: what follows its last dot, unless the name has no dot but the
first character. -/
def nameExtension? (name : String) : Option String :=
  let reversed := name.toList.reverse
  let tail := reversed.takeWhile (· != '.')
  if tail.length + 1 < reversed.length then some (String.ofList tail.reverse) else none

/-- The extension of a path. -/
def extension? (p : Path) : Option String := p.fileName?.bind nameExtension?

/-! ## Parents -/

/-- Reversed pieces without those at the front that count for nothing. -/
def dropIdle : List String → List String
  | [] => []
  | [piece] => if piece = "" then [] else [piece]
  | piece :: q :: ps =>
      if piece = "" || piece = "." then dropIdle (q :: ps) else piece :: q :: ps

/-- The texts of the directories that reversed pieces lie in, nearest first, ending with `top`. -/
def directories (top : String) : List String → List String
  | [] => [top]
  | piece :: ps =>
      if piece = "" || (piece = "." && !ps.isEmpty) then directories top ps
      else "/".intercalate (piece :: ps).reverse :: directories top ps

/-- A path and the directories that its text says it lies in, nearest first.  The last of them is
the root or the empty path. -/
def ancestors (p : Path) : List Path :=
  match dropIdle p.pieces.reverse with
  | [] => [p]
  | _ :: ps => p :: (directories (if p.isAbsolute then "/" else "") ps).map Path.mk

/-- The directory that a path's text says it lies in. -/
def parent? (p : Path) : Option Path := p.ancestors[1]?

/-- A path without one leading `.` component.  The pieces next to it and at the end that count for
nothing go too. -/
def withoutHere? (p : Path) : Option Path :=
  match p.pieces with
  | "." :: rest =>
      let kept := rest.dropWhile fun piece => piece = "" || piece = "."
      some ⟨"/".intercalate (kept.reverse.dropWhile fun piece => piece = "" || piece = ".").reverse⟩
  | _ => none

theorem join_of_isAbsolute {dir p : Path} (h : p.isAbsolute = true) : dir.join p = p := by
  simp [join, h]

@[simp] theorem join_empty (p : Path) : (⟨""⟩ : Path).join p = p := by
  simp [join]

end Path

end PropCatalog
