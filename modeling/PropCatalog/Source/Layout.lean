import PropCatalog.Json.Value
import PropCatalog.Source.Grammar.Module

/-!
# Writing source text

Every tree has a layout: its text at a given depth of indentation.  Statements, members and the
elements of literals stand on lines of their own, everything else stays on the line it starts on.
Literals keep the spelling they were read with.

The layout of a node is computed from those of its parts, so `Tree.para` does all the walking.
-/

namespace PropCatalog.Source

open Tree

/-- Text at a depth of indentation. -/
abbrev Indented := Nat → String

/-- The layout of a tree: its text, and for a list its items with theirs. -/
structure Layout where
  text : Indented
  items : List (Tree × Indented)

namespace Layout

/-- White space at the start of a line. -/
def indent (n : Nat) : String := String.ofList (List.replicate (4 * n) ' ')

/-- An opening brace. -/
def openBrace : String := "\x7b"

/-- A closing brace. -/
def closeBrace : String := "\x7d"

/-- The layout of what has no items. -/
def plain (text : Indented) : Layout := ⟨text, []⟩

/-- The items of a list, separated. -/
def separated (separator : String) (l : Layout) : Indented := fun n =>
  separator.intercalate (l.items.map fun item => item.2 n)

/-- The items of a list on one line. -/
def inline (l : Layout) : Indented := l.separated ", "

/-- The comma that a missing item at the end of a list needs to be seen. -/
def lastComma (l : Layout) : String :=
  if l.items.getLast?.map Prod.fst = some .null then "," else ""

/-- Items on lines of their own between two brackets, separated by commas. -/
def stacked (opening closing : String) (l : Layout) : Indented := fun n =>
  if l.items.isEmpty then opening ++ closing
  else
    opening ++ "\n"
      ++ ",\n".intercalate (l.items.map fun item => indent (n + 1) ++ item.2 (n + 1))
      ++ l.lastComma ++ "\n" ++ indent n ++ closing

/-- The comments before a tree, each on a line. -/
def remarks (comments : List Comment) (t : Tree) : Indented := fun n =>
  match t.field? "span" with
  | some (.span s) =>
      String.join ((comments.filter fun c => c.before == s.start).map fun c =>
        indent n ++ "//" ++ c.line.text ++ "\n")
  | _ => ""

/-- Items on lines of their own, with the comments before them. -/
def lines (comments : List Comment) (items : List (Tree × Indented)) : Indented := fun n =>
  String.join (items.map fun item =>
    remarks comments item.1 n ++ indent n ++ item.2 n ++ "\n")

/-- Statements in braces. -/
def braced (comments : List Comment) (l : Layout) : Indented := fun n =>
  if l.items.isEmpty then openBrace ++ closeBrace
  else openBrace ++ "\n" ++ lines comments l.items (n + 1) ++ indent n ++ closeBrace

/-- Text that stands before a part, unless the part is missing. -/
def after (before : String) (part : Tree × Layout) : Indented := fun n =>
  if part.1 = .null then "" else before ++ part.2.text n

/-- A word that stands there if a flag is set. -/
def flag (word : String) (part : Tree × Layout) : String :=
  if part.1 = .bool true then word else ""

/-- The layout of an atom.  What says something by itself is written by the node it is part of. -/
def ofAtom : Atom → Layout
  | .text s => plain fun _ => s
  | .number s => plain fun _ => s
  | _ => plain fun _ => ""

/-- The end of a function: its parameters, its result type and its body. -/
def functionEnd (params body result : Layout) : Indented := fun n =>
  "(" ++ params.inline n ++ ")" ++ result.text n ++ " " ++ body.text n

/-- The end of a class: what it extends and its members. -/
def classEnd (comments : List Comment) (body : Layout) (parent : Tree × Layout) : Indented :=
  fun n =>
    after " extends " parent n ++ " " ++ openBrace ++ "\n" ++ lines comments body.items (n + 1)
      ++ indent n ++ closeBrace

/-- The dot before a name.  A number without a fraction would take a single one for its own. -/
def dot (base : Tree × Layout) : Indented := fun n =>
  match base.1 with
  | .node (.known .numericLiteral) _ =>
      if (base.2.text n).toList.all fun c => c.isDigit || c == '_' then ".." else "."
  | _ => "."

/-- An access to a property, after the object. -/
def property (base part : Tree × Layout) : Indented := fun n =>
  match part.1 with
  | .node (.known .computedKey) _ => part.2.text n
  | _ => dot base n ++ part.2.text n

/-- An operator before its operand.  A space keeps words and equal signs apart. -/
def unaryText (operator operand : String) : String :=
  let isWord := operator.toList.all Char.isAlpha
  let clashes := (operator == "-" || operator == "+") && operator.toList.isPrefixOf operand.toList
  if isWord || clashes then operator ++ " " ++ operand else operator ++ operand

/-- The specifiers of an import: a default, everything under one name, and names in braces. -/
def importClauses (l : Layout) : Indented := fun n =>
  let named := l.items.filter fun item =>
    match item.1 with
    | .node (.known .importNamed) _ => true
    | _ => false
  let others := l.items.filter fun item =>
    match item.1 with
    | .node (.known .importNamed) _ => false
    | _ => true
  let braces := if named.isEmpty then []
    else [openBrace ++ " " ++ ", ".intercalate (named.map fun item => item.2 n) ++ " " ++ closeBrace]
  ", ".intercalate (others.map (fun item => item.2 n) ++ braces)

/-- The specifiers of an export. -/
def exportClauses (l : Layout) : Indented := fun n =>
  match l.items with
  | [] => openBrace ++ " " ++ closeBrace
  | (.node (.known .exportNamespace) _, text) :: _ => text n
  | _ => openBrace ++ " " ++ l.inline n ++ " " ++ closeBrace

/-- An attribute of an element, after a space.  A spread one stands in braces. -/
def attributeText (item : Tree × Indented) : Indented := fun n =>
  match item.1 with
  | .node (.known .spreadElement) _ => " " ++ openBrace ++ item.2 n ++ closeBrace
  | _ => " " ++ item.2 n

/-- What stands between a branch and the `else` after it. -/
def elseGap (yes : Tree) : Indented := fun n =>
  match yes with
  | .node (.known .blockStatement) _ => " "
  | _ => "\n" ++ indent n

/-- The text of statements and module items. -/
def ofStatement (comments : List Comment) : Kind → List (Tree × Layout) → Option Indented
  | .expressionStatement, [_, e] => some fun n => e.2.text n ++ ";"
  | .emptyStatement, _ => some fun _ => ";"
  | .blockStatement, [_, _, body] => some (braced comments body.2)
  | .returnStatement, [_, e] => some fun n => "return" ++ after " " e n ++ ";"
  | .ifStatement, [_, test, yes, no] => some fun n =>
      "if (" ++ test.2.text n ++ ") " ++ yes.2.text n ++ after (elseGap yes.1 n ++ "else ") no n
  | .variableDeclaration, [_, _, keyword, _, declarators] => some fun n =>
      keyword.2.text n ++ " " ++ declarators.2.inline n ++ ";"
  | .variableDeclarator, [_, target, init, _] => some fun n =>
      target.2.text n ++ after " = " init n
  | .functionDeclaration, [name, _, params, _, _, _, body, _, async, _, result] => some fun n =>
      flag "async " async ++ "function " ++ name.2.text n ++ functionEnd params.2 body.2 result.2 n
  | .classDeclaration, [name, _, _, _, _, body, parent, _, _, _, _] => some fun n =>
      "class " ++ name.2.text n ++ classEnd comments body.2 parent n
  | .importDeclaration, [_, specifiers, source, _, _, _] => some fun n =>
      let clauses := importClauses specifiers.2 n
      "import " ++ (if clauses = "" then "" else clauses ++ " from ") ++ source.2.text n ++ ";"
  | .importDefault, [_, bound] => some fun n => bound.2.text n
  | .importNamespace, [_, bound] => some fun n => "* as " ++ bound.2.text n
  | .importNamed, [_, bound, imported, _] => some fun n =>
      if imported.1 = .null then bound.2.text n
      else imported.2.text n ++ " as " ++ bound.2.text n
  | .exportDeclaration, [_, declaration] => some fun n => "export " ++ declaration.2.text n
  | .exportDefaultDeclaration, [_, declaration] => some fun n =>
      "export default " ++ declaration.2.text n
  | .exportDefaultExpression, [_, e] => some fun n => "export default " ++ e.2.text n ++ ";"
  | .exportNamed, [_, specifiers, source, _, _] => some fun n =>
      "export " ++ exportClauses specifiers.2 n ++ after " from " source n ++ ";"
  | .exportAll, [_, source, _, _] => some fun n => "export * from " ++ source.2.text n ++ ";"
  | .exportSpecifier, [_, name, other, _] => some fun n => name.2.text n ++ after " as " other n
  | .exportNamespace, [_, name] => some fun n => "* as " ++ name.2.text n
  | _, _ => none

/-- The text of functions, classes, their members and patterns. -/
def ofDefinition (comments : List Comment) : Kind → List (Tree × Layout) → Option Indented
  | .functionExpression, [name, params, _, _, _, body, _, async, _, result] => some fun n =>
      flag "async " async ++ "function" ++ after " " name n
        ++ functionEnd params.2 body.2 result.2 n
  | .functionPart, [params, _, _, _, body, _, _, _, result] =>
      some (functionEnd params.2 body.2 result.2)
  | .arrowFunction, [_, _, params, body, async, _, _, result] => some fun n =>
      flag "async " async ++ "(" ++ params.2.inline n ++ ")" ++ result.2.text n
        ++ (if result.1 = .null then "" else " ") ++ "=>" ++ body.2.text n
  | .methodProperty, [key, params, _, _, _, body, _, async, _, result] => some fun n =>
      flag "async " async ++ key.2.text n ++ functionEnd params.2 body.2 result.2 n
  | .classExpression, [name, _, _, _, body, parent, _, _, _, _] => some fun n =>
      "class" ++ after " " name n ++ classEnd comments body.2 parent n
  | .constructorMember, [_, _, _, params, body, _, _] => some fun n =>
      "constructor(" ++ params.2.inline n ++ ") " ++ body.2.text n
  | .classMethod, [_, key, function, _, static, _, _, _, _] => some fun n =>
      let async := if function.1.field? "async" = some (.bool true) then "async " else ""
      flag "static " static ++ async ++ key.2.text n ++ function.2.text n
  | .classProperty, [_, key, value, type, static, _, _, _, optional, _, _, _, definite] =>
      some fun n =>
        flag "static " static ++ key.2.text n ++ flag "?" optional ++ flag "!" definite
          ++ type.2.text n ++ after " = " value n ++ ";"
  | .parameter, [_, _, pattern] => some pattern.2.text
  | .objectPattern, [_, properties, _, type] => some fun n =>
      (if properties.2.items.isEmpty then openBrace ++ closeBrace
        else openBrace ++ " " ++ properties.2.inline n ++ " " ++ closeBrace) ++ type.2.text n
  | .arrayPattern, [_, elements, _, type] => some fun n =>
      "[" ++ elements.2.inline n ++ elements.2.lastComma ++ "]" ++ type.2.text n
  | .assignmentPatternProperty, [_, key, value] => some fun n =>
      key.2.text n ++ after " = " value n
  | .keyValuePattern, [key, value] => some fun n => key.2.text n ++ ": " ++ value.2.text n
  | .assignmentPattern, [_, left, right] => some fun n => left.2.text n ++ " = " ++ right.2.text n
  | .restElement, [_, _, rest, type] => some fun n => "..." ++ rest.2.text n ++ type.2.text n
  | _, _ => none

/-- The text of expressions. -/
def ofExpression : Kind → List (Tree × Layout) → Option Indented
  | .thisExpression, _ => some fun _ => "this"
  | .superKeyword, _ => some fun _ => "super"
  | .nullLiteral, _ => some fun _ => "null"
  | .booleanLiteral, [_, value] => some fun _ => if value.1 = .bool true then "true" else "false"
  | .numericLiteral, [_, value, raw] => some fun n =>
      if raw.1 = .null then value.2.text n else raw.2.text n
  | .stringLiteral, [_, value, raw] => some fun n =>
      if raw.1 = .null then Json.quote (value.2.text n) else raw.2.text n
  | .arrayExpression, [_, elements] => some (stacked "[" "]" elements.2)
  | .objectExpression, [_, properties] => some (stacked openBrace closeBrace properties.2)
  | .keyValueProperty, [key, value] => some fun n => key.2.text n ++ ": " ++ value.2.text n
  | .spreadElement, [_, e] => some fun n => "..." ++ e.2.text n
  | .argument, [spread, e] => some fun n =>
      (if spread.1 = .null then "" else "...") ++ e.2.text n
  | .computedKey, [_, e] => some fun n => "[" ++ e.2.text n ++ "]"
  | .memberExpression, [_, base, name] => some fun n => base.2.text n ++ property base name n
  | .callExpression, [_, _, callee, arguments, _] => some fun n =>
      callee.2.text n ++ "(" ++ arguments.2.inline n ++ ")"
  | .newExpression, [_, _, callee, arguments, _] => some fun n =>
      "new " ++ callee.2.text n
        ++ (if arguments.1 = .null then "" else "(" ++ arguments.2.inline n ++ ")")
  | .parenthesisExpression, [_, e] => some fun n => "(" ++ e.2.text n ++ ")"
  | .unaryExpression, [_, operator, e] => some fun n =>
      unaryText (operator.2.text n) (e.2.text n)
  | .awaitExpression, [_, e] => some fun n => "await " ++ e.2.text n
  | .binaryExpression, [_, operator, left, right] => some fun n =>
      left.2.text n ++ " " ++ operator.2.text n ++ " " ++ right.2.text n
  | .assignmentExpression, [_, operator, left, right] => some fun n =>
      left.2.text n ++ " " ++ operator.2.text n ++ " " ++ right.2.text n
  | .conditionalExpression, [_, test, yes, no] => some fun n =>
      test.2.text n ++ " ? " ++ yes.2.text n ++ " : " ++ no.2.text n
  | .sequenceExpression, [_, expressions] => some expressions.2.inline
  | _, _ => none

/-- The text of markup. -/
def ofMarkup : Kind → List (Tree × Layout) → Option Indented
  | .jsxElement, [_, opening, children, closing] => some fun n =>
      opening.2.text n ++ children.2.separated "" n ++ closing.2.text n
  | .jsxFragment, [_, opening, children, closing] => some fun n =>
      opening.2.text n ++ children.2.separated "" n ++ closing.2.text n
  | .jsxOpeningFragment, _ => some fun _ => "<>"
  | .jsxClosingFragment, _ => some fun _ => "</>"
  | .jsxOpening, [name, _, attributes, selfClosing, _] => some fun n =>
      "<" ++ name.2.text n ++ String.join (attributes.2.items.map (attributeText · n))
        ++ flag "/" selfClosing ++ ">"
  | .jsxClosing, [_, name] => some fun n => "</" ++ name.2.text n ++ ">"
  | .jsxAttribute, [_, name, value] => some fun n => name.2.text n ++ after "=" value n
  | .jsxText, [_, _, raw] => some raw.2.text
  | .jsxContainer, [_, e] => some fun n => openBrace ++ e.2.text n ++ closeBrace
  | .jsxSpreadChild, [_, e] => some fun n => openBrace ++ "..." ++ e.2.text n ++ closeBrace
  | .jsxEmpty, _ => some fun _ => ""
  | .jsxMember, [_, base, name] => some fun n => base.2.text n ++ "." ++ name.2.text n
  | .jsxNamespacedName, [_, space, name] => some fun n => space.2.text n ++ ":" ++ name.2.text n
  | _, _ => none

/-- The text of types and of what is said with them. -/
def ofTypes : Kind → List (Tree × Layout) → Option Indented
  | .tsTypeAscription, [_, type] => some fun n => ": " ++ type.2.text n
  | .tsKeywordType, [_, word] => some word.2.text
  | .tsThisType, _ => some fun _ => "this"
  | .tsTypeReference, [_, name, _] => some name.2.text
  | .tsQualifiedName, [_, left, right] => some fun n => left.2.text n ++ "." ++ right.2.text n
  | .tsAsExpression, [_, e, type] => some fun n => e.2.text n ++ " as " ++ type.2.text n
  | .tsTypeAssertion, [_, e, type] => some fun n => "<" ++ type.2.text n ++ ">" ++ e.2.text n
  | .tsConstAssertion, [_, e] => some fun n => e.2.text n ++ " as const"
  | .tsNonNull, [_, e] => some fun n => e.2.text n ++ "!"
  | _, _ => none

/-- The text of a node of a known kind. -/
def ofKind (comments : List Comment) (k : Kind) (parts : List (Tree × Layout)) : Indented :=
  ((ofStatement comments k parts).or ((ofDefinition comments k parts).or
    ((ofExpression k parts).or ((ofMarkup k parts).or (ofTypes k parts))))).getD fun _ => ""

/-- The layout of a node. -/
def ofNode (comments : List Comment) : Form → List (Tree × Layout) → Layout
  | .list, parts => ⟨fun _ => "", parts.map fun part => (part.1, part.2.text)⟩
  | .identifier x, [_, _, optional, type] => plain fun n => x ++ flag "?" optional ++ type.2.text n
  | .identifier x, _ => plain fun _ => x
  | .name x, _ => plain fun _ => x
  | .known k, parts => plain (ofKind comments k parts)
  | .record _ _, _ => plain fun _ => ""

/-- The layout of a tree. -/
def ofTree (comments : List Comment) : Tree → Layout := Tree.para ofAtom (ofNode comments)

end Layout

/-- The text of a module, with comments before the statements they belong to. -/
def Document.render (d : Document) : String :=
  Layout.lines d.comments
    (d.contents.body.map fun t => (t, (Layout.ofTree d.comments t).text)) 0

end PropCatalog.Source
