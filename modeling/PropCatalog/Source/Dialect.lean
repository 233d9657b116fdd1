import PropCatalog.Files.Path

/-!
# Dialects of source text

The extension of a path says whether it names source text at all, and in which dialect: whether
types may be written, and whether markup may.
-/

namespace PropCatalog.Source

/-- A dialect of source text. -/
structure Dialect where
  /-- Whether types may be written. -/
  typed : Bool
  /-- Whether markup may be written. -/
  markup : Bool
deriving DecidableEq, Repr

/-- The extensions of source text. -/
def extensions : List String := ["js", "jsx", "mjs", "cjs", "ts", "tsx", "mts", "cts"]

/-- Whether a path names source text. -/
def isSource (p : Path) : Bool :=
  match p.extension? with
  | some e => extensions.contains e
  | none => false

/-- The dialect of the text at a path. -/
def Dialect.ofPath (p : Path) : Dialect :=
  match p.extension? with
  | some "ts" | some "mts" | some "cts" => ⟨true, false⟩
  | some "tsx" => ⟨true, true⟩
  | _ => ⟨false, true⟩

end PropCatalog.Source
