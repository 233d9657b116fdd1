import PropCatalog.Source.Grammar.Goal

/-!
# Types, patterns and parameters

What stands on the binding side of a declaration: a name or a pattern, with a type in the dialects
that have types.
-/

namespace PropCatalog.Source.Grammar

open Reader

/-! ## Types -/

/-- The words that are types of their own. -/
def typeKeywords : List String := [
  "any", "unknown", "number", "object", "boolean", "bigint", "string", "symbol", "void",
  "undefined", "null", "never"]

/-- A name after a dot that extends the name of a type, if one is next. -/
def qualification? (start : Nat) (left : Tree) : Reader (Option Tree) := do
  unless ← takes (.mark ".") do return none
  let right ← anyName
  return some (node .tsQualifiedName [← spanFrom start, left, right])

/-- A type: a keyword or a name, which may be qualified. -/
def typeName : Reader Tree := do
  let start ← position
  let w ← anyWord
  if typeKeywords.contains w then
    return node .tsKeywordType [← spanFrom start, .text w]
  if w == "this" then
    return node .tsThisType [← spanFrom start]
  guard (isIdentifier w)
  let first := reference (← spanFrom start) w
  let name ← extendAll (qualification? start) first
  return node .tsTypeReference [← spanFrom start, name, .null]

/-- Consume a mark that only dialects with types have, if it is next, and say whether it was. -/
def typedMark (g : Grammar) (m : String) : Reader Bool :=
  if g.dialect.typed then takes (.mark m) else return false

/-- A type after a colon, if the dialect has types and a colon is next. -/
def ascription (g : Grammar) : Reader Tree := do
  unless g.dialect.typed do return .null
  let start ← position
  unless ← takes (.mark ":") do return .null
  let type ← typeName
  return node .tsTypeAscription [← spanFrom start, type]

/-! ## Patterns -/

/-- The key of a property: a name, a literal or an expression in brackets. -/
def propertyKey (g : Grammar) : Reader Tree := do
  let l ← look
  match l.token with
  | .word _ => anyName
  | .string _ _ => stringLiteral
  | .number _ => numberLiteral
  | .mark "[" =>
      mark "["
      let e ← g.read .assignment
      mark "]"
      return node .computedKey [← spanFrom l.start, e]
  | _ => failure

/-- A pattern with the value it takes when there is none. -/
def patternElement (g : Grammar) : Reader Tree := do
  let start ← position
  if ← takes (.mark "...") then
    let dots ← spanFrom start
    let rest ← g.read .pattern
    return node .restElement [← spanFrom start, dots, rest, .null]
  let left ← g.read .pattern
  unless ← takes (.mark "=") do return left
  let right ← g.read .assignment
  return node .assignmentPattern [← spanFrom start, left, right]

/-- The value after an equals sign, if there is one. -/
def initialValue (g : Grammar) : Reader Tree := do
  if ← takes (.mark "=") then g.read .assignment else return .null

/-- A property of an object pattern. -/
def patternProperty (g : Grammar) : Reader Tree := do
  let l ← look
  if l.token == .mark "..." then return ← patternElement g
  let second ← lookSecond
  match l.token, second.token with
  | .word w, .mark "," | .word w, .mark "\x7d" | .word w, .mark "=" =>
      guard (isIdentifier w)
      set l.after
      let key := binding (← spanFrom l.start) w false .null
      let value ← initialValue g
      return node .assignmentPatternProperty [← spanFrom l.start, key, value]
  | _, _ =>
      let key ← propertyKey g
      mark ":"
      let value ← patternElement g
      return node .keyValuePattern [key, value]

/-- A name or a pattern, with its type.  A question mark before the type makes it optional. -/
def pattern (g : Grammar) : Reader Tree := do
  let l ← look
  match l.token with
  | .word w =>
      guard (isIdentifier w)
      set l.after
      let span ← spanFrom l.start
      let optional ← typedMark g "?"
      return binding span w optional (← ascription g)
  | .mark "\x7b" =>
      mark "\x7b"
      let properties ← series "\x7d" (patternProperty g)
      let span ← spanFrom l.start
      return node .objectPattern [span, .list properties, .bool false, ← ascription g]
  | .mark "[" =>
      mark "["
      let elements ← series "]" do
        if ← isMark "," then return .null
        patternElement g
      let span ← spanFrom l.start
      return node .arrayPattern [span, .list elements, .bool false, ← ascription g]
  | _ => failure

/-! ## Functions -/

/-- The parameters of a function, each a node of its own. -/
def parameters (g : Grammar) : Reader Tree := do
  mark "("
  let params ← series ")" do
    let start ← position
    let p ← patternElement g
    return node .parameter [← spanFrom start, .list [], p]
  return .list params

/-- Statements in braces. -/
def block (g : Grammar) : Reader Tree := do
  let start ← position
  mark "\x7b"
  let statements ← many do
    if ← isMark "\x7d" then return none
    return some (← g.read .statement)
  mark "\x7d"
  return node .blockStatement [← spanFrom start, context, .list statements]

/-- What follows the name of a function: its parameters, its result type and its body.  The parts
stand in the order that every kind of function shares. -/
def functionParts (g : Grammar) (start : Nat) (async : Bool) : Reader (List Tree) := do
  let params ← parameters g
  let result ← ascription g
  let body ← block g
  return [params, .list [], ← spanFrom start, context, body, .bool false, .bool async, .null,
    result]

end PropCatalog.Source.Grammar
