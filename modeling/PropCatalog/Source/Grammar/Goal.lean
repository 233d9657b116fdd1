import PropCatalog.Source.Dialect
import PropCatalog.Source.Reader

/-!
# Goals of the grammar

The rules of the grammar refer to each other in circles.  Each rule is written with a parameter
that reads the goals it refers to, and the circle is closed once, in `Source.Grammar.Module`, by a
recursion on a bound.
-/

namespace PropCatalog.Source

/-- What a rule of the grammar can ask to be read. -/
inductive Goal where
  | statement
  | expression
  | assignment
  /-- Operands joined by operators that bind at least as tightly as the level says. -/
  | binary (level : Nat)
  | unary
  | pattern
  | markup
deriving DecidableEq, Repr

/-- A reader for every goal, and the dialect to read. -/
structure Grammar where
  dialect : Dialect
  read : Goal → Reader Tree

end PropCatalog.Source
