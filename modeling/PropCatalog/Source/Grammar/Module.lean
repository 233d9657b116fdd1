import PropCatalog.Component.Survey
import PropCatalog.Source.Grammar.Statement

/-!
# Reading a module

Here the rules of the grammar are tied together.  A rule asks for a goal only after it has consumed
a token or to step down to a lower rule, so a bound proportional to the length of the text is never
reached before the text ends.
-/

namespace PropCatalog.Source

namespace Grammar

/-- The rule for each goal. -/
def rule (g : Grammar) : Goal → Reader Tree
  | .statement => statement g
  | .expression => expression g
  | .assignment => assignment g
  | .binary level => binary g level
  | .unary => unary g
  | .pattern => pattern g
  | .markup => markup g

/-- Read a goal with rules nested at most so deep. -/
def readGoal (dialect : Dialect) : Nat → Goal → Reader Tree
  | 0, _ => failure
  | n + 1, goal => rule ⟨dialect, readGoal dialect n⟩ goal

/-- The grammar of a dialect with rules nested at most so deep. -/
def ofDepth (dialect : Dialect) (depth : Nat) : Grammar := ⟨dialect, readGoal dialect depth⟩

/-- The items of a module up to the end of the text. -/
def items (g : Grammar) : Reader (List Tree) :=
  Reader.many do
    if ← Reader.isNext .finish then return none
    return some (← item g)

end Grammar

/-- A module as it was read, with the comments that stand before its statements. -/
structure Document where
  contents : Module
  comments : List Comment
deriving DecidableEq, Repr

/-- Read source text. -/
def Document.read? (dialect : Dialect) (text : String) : Option Document := do
  let start := Cursor.start text
  let depth := 4 * start.rest.length + 8
  let (body, finish) ← (Grammar.ofDepth dialect depth).items start
  let last ← finish.next
  return ⟨⟨.span ⟨0, finish.offset⟩, body, .null⟩, last.after.comments.reverse⟩

end PropCatalog.Source
