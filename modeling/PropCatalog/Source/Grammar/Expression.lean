import PropCatalog.Source.Grammar.Binding
import PropCatalog.Source.Grammar.Markup

/-!
# Expressions

From what stands alone (names, literals, anything in brackets) through accesses and calls, unary
and binary operators and conditionals to assignments.
-/

namespace PropCatalog.Source.Grammar

open Reader

/-! ## Functions and classes -/

/-- A function expression, from its keyword on. -/
def functionExpression (g : Grammar) (start : Nat) (async : Bool) : Reader Tree := do
  word "function"
  let name ← if ← isMark "(" then pure .null else identifier
  return node .functionExpression (name :: (← functionParts g start async))

/-- Whether a token after a word shows that the word is the key of a class member. -/
def endsKey (t : Token) : Bool := ["=", "(", ";", "\x7d", ":", "?", "!"].any fun m => t == .mark m

/-- A method or a field of a class. -/
def classMember (g : Grammar) : Reader Tree := do
  let start ← position
  let static ← modifier "static" fun l => endsKey l.token
  let async ← modifier "async" fun l => endsKey l.token || l.newLine
  let key ← propertyKey g
  if ← isMark "(" then
    match key, static with
    | .node (.name "constructor") _, false =>
        let params ← parameters g
        let body ← block g
        return node .constructorMember
          [← spanFrom start, context, key, params, body, .null, .bool false]
    | _, _ =>
        let parts ← functionParts g start async
        return node .classMethod
          [← spanFrom start, key, node .functionPart parts, .text "method", .bool static, .null,
           .bool false, .bool false, .bool false]
  guard (!async)
  let optional ← typedMark g "?"
  let definite ← typedMark g "!"
  let type ← ascription g
  let value ← initialValue g
  semicolon
  return node .classProperty
    [← spanFrom start, key, value, type, .bool static, .list [], .null, .bool false,
     .bool optional, .bool false, .bool false, .bool false, .bool definite]

/-- A call or an access that extends an expression, if one is next. -/
def access? (g : Grammar) (start : Nat) (left : Tree) : Reader (Option Tree) := do
  if ← takes (.mark ".") then
    let property ← anyName
    return some (.member (← spanFrom start) left property)
  let bracket ← position
  if ← takes (.mark "[") then
    let e ← g.read .expression
    mark "]"
    let property := node .computedKey [← spanFrom bracket, e]
    return some (.member (← spanFrom start) left property)
  return none

/-- An element of an argument list or an array, with the dots before it. -/
def argument (g : Grammar) : Reader Tree := do
  let start ← position
  let spread ← if ← takes (.mark "...") then spanFrom start else pure .null
  return .argument spread (← g.read .assignment)

/-- The arguments of a call. -/
def callArguments (g : Grammar) : Reader Tree := do
  mark "("
  let items ← series ")" (argument g)
  return .list items

/-- What an expression can be extended by: an access, a call, or a mark that it is not null. -/
def suffix? (g : Grammar) (start : Nat) (left : Tree) : Reader (Option Tree) := do
  match ← access? g start left with
  | some e => return some e
  | none =>
      if ← isMark "(" then
        let arguments ← callArguments g
        return some (.call (← spanFrom start) context left arguments .null)
      if g.dialect.typed && !(← isNewLine) && (← isMark "!") then
        mark "!"
        return some (node .tsNonNull [← spanFrom start, left])
      return none

/-- The class that another one extends: an expression with accesses and calls. -/
def superClass (g : Grammar) (primary : Reader Tree) : Reader Tree := do
  unless ← takes (.word "extends") do return .null
  let start ← position
  extendAll (suffix? g start) (← primary)

/-- What follows the name of a class, in the order that both kinds of class share. -/
def classParts (g : Grammar) (primary : Reader Tree) (start : Nat) : Reader (List Tree) := do
  let parent ← superClass g primary
  mark "\x7b"
  let members ← many do
    let _ ← many do
      if ← takes (.mark ";") then return some ()
      return none
    if ← isMark "\x7d" then return none
    return some (← classMember g)
  mark "\x7d"
  return [← spanFrom start, context, .list [], .list members, parent, .bool false, .null, .null,
    .list []]

/-- A class expression. -/
def classExpression (g : Grammar) (primary : Reader Tree) : Reader Tree := do
  let start ← position
  word "class"
  let name ← if (← isWord "extends") || (← isMark "\x7b") then pure .null else identifier
  return node .classExpression (name :: (← classParts g primary start))

/-! ## Literals -/

/-- The elements of an array. -/
def arrayExpression (g : Grammar) : Reader Tree := do
  let start ← position
  mark "["
  let elements ← series "]" do
    if ← isMark "," then return .null
    argument g
  return node .arrayExpression [← spanFrom start, .list elements]

/-- A property of an object. -/
def objectProperty (g : Grammar) : Reader Tree := do
  let l ← look
  if ← takes (.mark "...") then
    let dots ← spanFrom l.start
    return node .spreadElement [dots, ← g.read .assignment]
  let second ← lookSecond
  match l.token, second.token with
  | .word w, .mark "," | .word w, .mark "\x7d" =>
      guard (isIdentifier w)
      identifier
  | _, _ =>
      let async ← modifier "async" fun l =>
        [",", "\x7d", ":", "("].any fun m => l.token == .mark m
      let key ← propertyKey g
      if ← isMark "(" then
        return node .methodProperty (key :: (← functionParts g l.start async))
      guard (!async)
      mark ":"
      return .keyValue key (← g.read .assignment)

/-- An object literal. -/
def objectExpression (g : Grammar) : Reader Tree := do
  let start ← position
  mark "\x7b"
  let properties ← series "\x7d" (objectProperty g)
  return .object (← spanFrom start) (.list properties)

/-- An expression in parentheses. -/
def parenthesis (g : Grammar) : Reader Tree := do
  let start ← position
  mark "("
  let e ← g.read .expression
  mark ")"
  return .parenthesis (← spanFrom start) e

/-! ## Operands -/

/-- A word that begins an expression of its own kind. -/
def keywordExpression? (w : String) (span : Tree) : Option Tree :=
  match w with
  | "this" => some (node .thisExpression [span])
  | "null" => some (node .nullLiteral [span])
  | "true" => some (node .booleanLiteral [span, .bool true])
  | "false" => some (node .booleanLiteral [span, .bool false])
  | "super" => some (node .superKeyword [span])
  | _ => none

/-- An operand other than a class. -/
def plainOperand (g : Grammar) : Reader Tree := do
  let l ← look
  match l.token with
  | .word "function" => functionExpression g l.start false
  | .word w =>
      set l.after
      if w == "async" then
        let second ← look
        if second.token == .word "function" && !second.newLine then
          return ← functionExpression g l.start true
      let span ← spanFrom l.start
      match keywordExpression? w span with
      | some e => return e
      | none =>
          guard (isIdentifier w)
          return reference span w
  | .number _ => numberLiteral
  | .string _ _ => stringLiteral
  | .mark "[" => arrayExpression g
  | .mark "\x7b" => objectExpression g
  | .mark "(" => parenthesis g
  | .mark "<" =>
      guard g.dialect.markup
      markup g
  | _ => failure

/-- An operand. -/
def operand (g : Grammar) : Reader Tree := do
  if ← isWord "class" then classExpression g (plainOperand g) else plainOperand g

/-- `new` with what is made and its arguments. -/
def newExpression (g : Grammar) : Reader Tree := do
  let start ← position
  word "new"
  let inner ← position
  let callee ← extendAll (access? g inner) (← operand g)
  let arguments ← if ← isMark "(" then callArguments g else pure .null
  return node .newExpression [← spanFrom start, context, callee, arguments, .null]

/-- What a chain of accesses and calls begins with: an operand or `new`. -/
def chainHead (g : Grammar) : Reader Tree := do
  if ← isWord "new" then newExpression g else operand g

/-- An operand with its accesses and calls. -/
def chain (g : Grammar) : Reader Tree := do
  let start ← position
  extendAll (suffix? g start) (← chainHead g)

/-! ## Operators -/

/-- The marks that are unary operators. -/
def unaryMarks : List String := ["!", "-", "+", "~"]

/-- The words that are unary operators. -/
def unaryWords : List String := ["typeof", "void", "delete"]

/-- The unary operator that a token is. -/
def unaryOperator? : Token → Option String
  | .mark m => if unaryMarks.contains m then some m else none
  | .word w => if unaryWords.contains w then some w else none
  | _ => none

/-- An operand with the operators before it. -/
def unary (g : Grammar) : Reader Tree := do
  let l ← look
  match unaryOperator? l.token with
  | some operator =>
      set l.after
      let e ← g.read .unary
      return node .unaryExpression [← spanFrom l.start, .text operator, e]
  | none =>
      if l.token == .word "await" then
        set l.after
        let e ← g.read .unary
        return node .awaitExpression [← spanFrom l.start, e]
      if l.token == .mark "<" && g.dialect.typed && !g.dialect.markup then
        set l.after
        let type ← typeName
        mark ">"
        let e ← g.read .unary
        return node .tsTypeAssertion [← spanFrom l.start, e, type]
      chain g

/-- The binary operators, loosest first. -/
def binaryLevels : List (List String) := [
  ["??"], ["||"], ["&&"], ["|"], ["^"], ["&"], ["==", "!=", "===", "!=="],
  ["<", ">", "<=", ">=", "instanceof", "in"], ["<<", ">>", ">>>"], ["+", "-"], ["*", "/", "%"],
  ["**"]]

/-- How tightly comparisons bind, and with them type assertions. -/
def comparisonLevel : Nat := 7

/-- A token as an operator. -/
def operatorSpelling? : Token → Option String
  | .mark m => some m
  | .word w => some w
  | _ => none

/-- The binary operator that a token is, with how tightly it binds. -/
def binaryOperator? (t : Token) : Option (String × Nat) := do
  let spelling ← operatorSpelling? t
  let level := binaryLevels.findIdx fun operators => operators.contains spelling
  if level < binaryLevels.length then some (spelling, level) else none

/-- What is asserted of an expression, after `as`. -/
def assertion (start : Nat) (left : Tree) : Reader Tree := do
  if ← takes (.word "const") then
    return node .tsConstAssertion [← spanFrom start, left]
  let type ← typeName
  return node .tsAsExpression [← spanFrom start, left, type]

/-- An operator with its right side, or a type assertion, that extends an expression. -/
def operation? (g : Grammar) (start level : Nat) (left : Tree) : Reader (Option Tree) := do
  let l ← look
  if g.dialect.typed && l.token == .word "as" && !l.newLine && level ≤ comparisonLevel then
    set l.after
    return some (← assertion start left)
  match binaryOperator? l.token with
  | none => return none
  | some (operator, bound) =>
      if bound < level then return none
      set l.after
      let right ← g.read (.binary (if operator == "**" then bound else bound + 1))
      return some (node .binaryExpression [← spanFrom start, .text operator, left, right])

/-- Operands joined by operators that bind at least as tightly as a level. -/
def binary (g : Grammar) (level : Nat) : Reader Tree := do
  let start ← position
  extendAll (operation? g start level) (← unary g)

/-- An expression with at most a question at its top. -/
def conditional (g : Grammar) : Reader Tree := do
  let start ← position
  let test ← binary g 0
  unless ← takes (.mark "?") do return test
  let yes ← g.read .assignment
  mark ":"
  let no ← g.read .assignment
  return node .conditionalExpression [← spanFrom start, test, yes, no]

/-! ## Arrows and assignments -/

/-- The parameters of an arrow function, and its result type. -/
def arrowParameters (g : Grammar) : Reader (Tree × Tree) := do
  if ← takes (.mark "(") then
    let params ← series ")" (patternElement g)
    return (.list params, ← ascription g)
  let (start, w) ← identifierWord
  return (.list [binding (← spanFrom start) w false .null], .null)

/-- The arrow, which stands on the line of what comes before it. -/
def arrowMark : Reader Unit := do
  guard (!(← isNewLine))
  mark "=>"

/-- An arrow function. -/
def arrow (g : Grammar) : Reader Tree := do
  let start ← position
  let async ← modifier "async" fun l => l.newLine || l.token == .mark "=>"
  let (params, result) ← arrowParameters g
  arrowMark
  let body ← if ← isMark "\x7b" then block g else g.read .assignment
  return node .arrowFunction
    [← spanFrom start, context, params, body, .bool async, .bool false, .null, result]

/-- The operators that assign. -/
def assignmentMarks : List String := [
  "=", "+=", "-=", "*=", "/=", "%=", "**=", "<<=", ">>=", ">>>=", "&=", "|=", "^=", "&&=", "||=",
  "??="]

/-- Whether an expression can be assigned to. -/
def isTarget : Tree → Bool
  | .parenthesis _ e => isTarget e
  | .node (.identifier _) _ => true
  | .node (.known .memberExpression) _ => true
  | .node (.known .tsAsExpression) _ => true
  | .node (.known .tsNonNull) _ => true
  | .node (.known .tsTypeAssertion) _ => true
  | _ => false

/-- An assignment or anything that binds more tightly. -/
def assignment (g : Grammar) : Reader Tree :=
  arrow g <|> do
    let start ← position
    let left ← conditional g
    let l ← look
    match l.token with
    | .mark m =>
        unless assignmentMarks.contains m do return left
        guard (isTarget left)
        set l.after
        let right ← g.read .assignment
        return .assignment (← spanFrom start) (.text m) left right
    | _ => return left

/-- Assignments separated by commas. -/
def expression (g : Grammar) : Reader Tree := do
  let start ← position
  let first ← assignment g
  let others ← many do
    unless ← takes (.mark ",") do return none
    return some (← assignment g)
  if others.isEmpty then return first
  return node .sequenceExpression [← spanFrom start, .list (first :: others)]

end PropCatalog.Source.Grammar
