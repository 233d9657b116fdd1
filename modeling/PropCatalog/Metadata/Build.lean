import PropCatalog.Component.Survey

/-!
# Building trees

Constructors for the trees that are inserted into a module.  None of them carries a source
position, and every identifier has the empty context.
-/

namespace PropCatalog.Metadata

open Tree

/-- No source position. -/
def noSpan : Tree := .span .dummy

/-- The empty context. -/
def noContext : Tree := .leaf (.number "0")

/-- A reference to an identifier. -/
def reference (x : String) : Tree := .node (.identifier x) [noSpan, noContext, .bool false]

/-- A binding of an identifier. -/
def binding (x : String) : Tree :=
  .node (.identifier x) [noSpan, noContext, .bool false, .null]

/-- A name. -/
def plainName (x : String) : Tree := .node (.name x) [noSpan]

/-- A string literal. -/
def stringOf (s : String) : Tree := .string noSpan (.text s) .null

/-- `object.name` -/
def memberOf (object : Tree) (name : String) : Tree := .member noSpan object (plainName name)

/-- An argument that is not spread. -/
def plainArgument (e : Tree) : Tree := .argument .null e

/-- `callee(arguments)` -/
def callOf (callee : Tree) (arguments : List Tree) : Tree :=
  .call noSpan noContext callee (.list (arguments.map plainArgument)) .null

/-- `new callee(arguments)` -/
def newOf (callee : Tree) (arguments : List Tree) : Tree :=
  .node (.known .newExpression)
    [noSpan, noContext, callee, .list (arguments.map plainArgument), .null]

/-- `{ key: value, ... }` -/
def objectOf (properties : List (String × Tree)) : Tree :=
  .object noSpan (.list (properties.map fun p => .keyValue (plainName p.1) p.2))

/-- `(parameters) => body` -/
def arrowOf (parameters : List String) (body : Tree) : Tree :=
  .node (.known .arrowFunction)
    [noSpan, noContext, .list (parameters.map binding), body, .bool false, .bool false, .null,
     .null]

/-- `function () {}` -/
def emptyFunction : Tree :=
  .node (.known .functionExpression)
    [.null, .list [], .list [], noSpan, noContext,
     .node (.known .blockStatement) [noSpan, noContext, .list []],
     .bool false, .bool false, .null, .null]

/-- `left === right` -/
def strictEqual (left right : Tree) : Tree :=
  .node (.known .binaryExpression) [noSpan, .text "===", left, right]

/-- `test ? consequent : alternate` -/
def conditional (test consequent alternate : Tree) : Tree :=
  .node (.known .conditionalExpression) [noSpan, test, consequent, alternate]

/-- `const name = value;` -/
def constant (name : String) (value : Tree) : Tree :=
  .variableDeclaration noSpan noContext (.text "const") (.bool false)
    (.list [.declarator noSpan (binding name) value (.bool false)])

/-- `object.name = value;` for an object given by an identifier. -/
def assignMember (object name : String) (value : Tree) : Tree :=
  .expressionStatement noSpan
    (.assignment noSpan (.text "=") (memberOf (reference object) name) value)

end PropCatalog.Metadata
