import PropCatalog.Component.Survey

/-!
# Fresh names

A base text is brought into a normal form from which an endless family of candidate names is
made.  The fresh name of a module is the first candidate that none of its identifiers uses.  Only
as many candidates as the module has identifiers can be taken, so one more than that is enough to
look at.
-/

namespace PropCatalog.Metadata

/-- Whether a character can stand in a candidate name. -/
def isNameChar (c : Char) : Bool := c.isAlphanum || c = '_' || c = '$'

/-- The normal form of a base: letters, digits, `_` and `$` only, no `_` in front and no digit at
the end; and never empty. -/
def baseName (base : String) : String :=
  let kept := (base.toList.filter isNameChar).dropWhile (· = '_')
  let trimmed := (kept.reverse.dropWhile Char.isDigit).reverse
  if trimmed.isEmpty then "ref" else String.ofList trimmed

/-- The candidate with a number, counted from one: `_name`, `_name2`, `_name3` and so on. -/
def candidate (name : String) (i : Nat) : String :=
  if i > 1 then "_" ++ name ++ toString i else "_" ++ name

/-- The first candidate for a base that is not among the used names. -/
def freshNameAmong (used : List String) (base : String) : String :=
  ((List.range (used.length + 1)).map fun i => candidate (baseName base) (i + 1)).find?
    (fun name => !used.contains name) |>.getD ""

/-- A name made from a base that no identifier of a module uses. -/
def freshName (m : Module) (base : String) : String :=
  freshNameAmong m.identifiers base

end PropCatalog.Metadata
