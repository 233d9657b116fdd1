import PropCatalog.Source.Grammar.Expression

/-!
# Statements and module items

Statements may stand anywhere, imports and exports only at the top of a module.
-/

namespace PropCatalog.Source.Grammar

open Reader

/-! ## Declarations -/

/-- One variable of a declaration. -/
def declarator (g : Grammar) : Reader Tree := do
  let start ← position
  let target ← g.read .pattern
  let init ← initialValue g
  return .declarator (← spanFrom start) target init (.bool false)

/-- A declaration of variables, without its end. -/
def variableDeclaration (g : Grammar) : Reader Tree := do
  let start ← position
  let keyword ← anyWord
  let first ← declarator g
  let others ← many do
    unless ← takes (.mark ",") do return none
    return some (← declarator g)
  return .variableDeclaration (← spanFrom start) context (.text keyword) (.bool false)
    (.list (first :: others))

/-- A declaration of variables with its end, which belongs to it. -/
def variableStatement (g : Grammar) : Reader Tree := do
  let .variableDeclaration (.span span) context keyword declare declarators ←
    variableDeclaration g | failure
  semicolon
  return .variableDeclaration (← spanFrom span.start) context keyword declare declarators

/-- A function with a name. -/
def functionDeclaration (g : Grammar) : Reader Tree := do
  let start ← position
  let async ← takes (.word "async")
  word "function"
  let name ← identifier
  return node .functionDeclaration (name :: .bool false :: (← functionParts g start async))

/-- A class with a name. -/
def classDeclaration (g : Grammar) : Reader Tree := do
  let start ← position
  word "class"
  let name ← identifier
  return node .classDeclaration
    (name :: .bool false :: (← classParts g (plainOperand g) start))

/-- What kind of declaration the next tokens begin. -/
def declaration? (g : Grammar) : Reader (Option (Reader Tree)) := do
  match (← look).token with
  | .word "const" => return some (variableStatement g)
  | .word "var" => return some (variableStatement g)
  | .word "let" =>
      match (← lookSecond).token with
      | .word w => return if isIdentifier w then some (variableStatement g) else none
      | .mark "\x7b" => return some (variableStatement g)
      | .mark "[" => return some (variableStatement g)
      | _ => return none
  | .word "function" => return some (functionDeclaration g)
  | .word "class" => return some (classDeclaration g)
  | .word "async" =>
      let second ← lookSecond
      return if second.token == .word "function" && !second.newLine then
          some (functionDeclaration g)
        else none
  | _ => return none

/-! ## Statements -/

/-- `if` with its branches. -/
def ifStatement (g : Grammar) : Reader Tree := do
  let start ← position
  word "if"
  mark "("
  let test ← g.read .expression
  mark ")"
  let yes ← g.read .statement
  let no ← if ← takes (.word "else") then g.read .statement else pure .null
  return node .ifStatement [← spanFrom start, test, yes, no]

/-- `return` with what it returns. -/
def returnStatement (g : Grammar) : Reader Tree := do
  let start ← position
  word "return"
  let l ← look
  let argument ←
    if l.newLine || [.mark ";", .mark "\x7d", .finish].contains l.token then pure .null
    else g.read .expression
  semicolon
  return node .returnStatement [← spanFrom start, argument]

/-- An expression as a statement. -/
def expressionStatement (g : Grammar) : Reader Tree := do
  let start ← position
  let e ← g.read .expression
  semicolon
  return .expressionStatement (← spanFrom start) e

/-- A statement. -/
def statement (g : Grammar) : Reader Tree := do
  match ← declaration? g with
  | some declaration => declaration
  | none =>
      let l ← look
      match l.token with
      | .mark "\x7b" => block g
      | .mark ";" =>
          mark ";"
          return node .emptyStatement [← spanFrom l.start]
      | .word "if" => ifStatement g
      | .word "return" => returnStatement g
      | _ => expressionStatement g

/-! ## Imports and exports -/

/-- A named import. -/
def importSpecifier : Reader Tree := do
  let start ← position
  let l ← look
  let second ← lookSecond
  if second.token == .word "as" then
    let imported ← anyReference
    word "as"
    let bound ← identifier
    return node .importNamed [← spanFrom start, bound, imported, .bool false]
  let .word w := l.token | failure
  guard (isIdentifier w)
  let bound ← identifier
  return node .importNamed [← spanFrom start, bound, .null, .bool false]

/-- Everything of a module under one name. -/
def importAll : Reader Tree := do
  let start ← position
  mark "*"
  word "as"
  let bound ← identifier
  return node .importNamespace [← spanFrom start, bound]

/-- What is imported apart from the default. -/
def importedNames : Reader (List Tree) := do
  if ← isMark "*" then return [← importAll]
  mark "\x7b"
  series "\x7d" importSpecifier

/-- What is imported. -/
def importClause : Reader (List Tree) := do
  if (← isMark "*") || (← isMark "\x7b") then return ← importedNames
  let start ← position
  let bound ← identifier
  let default := node .importDefault [← spanFrom start, bound]
  unless ← takes (.mark ",") do return [default]
  return default :: (← importedNames)

/-- An import. -/
def importItem : Reader Tree := do
  let start ← position
  word "import"
  let specifiers ← match (← look).token with
    | .string _ _ => pure []
    | _ => do
        let specifiers ← importClause
        word "from"
        pure specifiers
  let source ← stringLiteral
  semicolon
  return node .importDeclaration
    [← spanFrom start, .list specifiers, source, .bool false, .null, .text "evaluation"]

/-- A name that is exported. -/
def exportSpecifier : Reader Tree := do
  let start ← position
  let name ← anyReference
  let other ← if ← takes (.word "as") then anyReference else pure .null
  return node .exportSpecifier [← spanFrom start, name, other, .bool false]

/-- The module that names are exported from. -/
def exportSource : Reader Tree := do
  word "from"
  stringLiteral

/-- A default export. -/
def exportDefault (g : Grammar) (start : Nat) : Reader Tree := do
  word "default"
  let l ← look
  match l.token with
  | .word "class" =>
      let c ← classExpression g (plainOperand g)
      return node .exportDefaultDeclaration [← spanFrom start, c]
  | .word "function" =>
      let f ← functionExpression g l.start false
      return node .exportDefaultDeclaration [← spanFrom start, f]
  | _ =>
      if l.token == .word "async" then
        let second ← lookSecond
        if second.token == .word "function" && !second.newLine then
          set l.after
          let f ← functionExpression g l.start true
          return node .exportDefaultDeclaration [← spanFrom start, f]
      let e ← g.read .assignment
      semicolon
      return node .exportDefaultExpression [← spanFrom start, e]

/-- An export. -/
def exportItem (g : Grammar) : Reader Tree := do
  let start ← position
  word "export"
  match (← look).token with
  | .word "default" => exportDefault g start
  | .mark "*" =>
      mark "*"
      let names ← if ← takes (.word "as") then do
          let inner ← position
          let name ← anyReference
          pure [node .exportNamespace [← spanFrom inner, name]]
        else pure []
      let source ← exportSource
      semicolon
      if names.isEmpty then
        return node .exportAll [← spanFrom start, source, .bool false, .null]
      return node .exportNamed [← spanFrom start, .list names, source, .bool false, .null]
  | .mark "\x7b" =>
      mark "\x7b"
      let specifiers ← series "\x7d" exportSpecifier
      let source ← if ← isWord "from" then exportSource else pure .null
      semicolon
      return node .exportNamed [← spanFrom start, .list specifiers, source, .bool false, .null]
  | _ =>
      let some declaration ← declaration? g | failure
      let d ← declaration
      return node .exportDeclaration [← spanFrom start, d]

/-- An item of a module. -/
def item (g : Grammar) : Reader Tree := do
  match (← look).token with
  | .word "import" => importItem
  | .word "export" => exportItem g
  | _ => g.read .statement

end PropCatalog.Source.Grammar
