import PropCatalog.Json.Lexeme
import PropCatalog.Options
import PropCatalog.Tree.Nodes

/-!
# Shapes of top-level items

An item at the top level of a module is an import, the declaration of a component, an assignment
of properties to a component, or something that is passed over.  Only the item itself is looked
at: an exported or nested declaration is no component.
-/

namespace PropCatalog.Component

/-- How a component was declared. -/
inductive Kind where
  /-- `class Name { ... }` -/
  | classDeclaration
  /-- `function Name() { ... }` -/
  | functionDeclaration
  /-- `const Name = function () { ... }` or `const Name = () => ...` -/
  | functionValue
deriving DecidableEq, Repr

/-- What an import says about the validation library: where it imports from, and the local name
it gives to the default export. -/
structure Import where
  source : Option String
  defaultName : Option String
deriving DecidableEq, Repr

/-- Whether a text holds the escape of an unpaired surrogate.  A backslash that stands for itself
is doubled before such an escape. -/
def hasUnpairedSurrogate : List Char → Bool
  | '\\' :: '\\' :: cs => hasUnpairedSurrogate cs
  | '\\' :: 'u' :: a :: b :: c :: d :: cs =>
      match Json.hexUnit? a b c d with
      | some u => Json.isLeading u || Json.isTrailing u || hasUnpairedSurrogate cs
      | none => hasUnpairedSurrogate (a :: b :: c :: d :: cs)
  | _ :: cs => hasUnpairedSurrogate cs
  | [] => false

/-- The text of a string literal, unless it has an unpaired surrogate. -/
def literalText? : Tree → Option String
  | .string _ (.text s) _ => if hasUnpairedSurrogate s.toList then none else some s
  | _ => none

/-- The local name of a default specifier. -/
def defaultLocal? : Tree → Option String
  | .node (.known .importDefault) [_, .node (.identifier x) _] => some x
  | _ => none

/-- The import that a declaration makes. -/
def Import.ofTree? : Tree → Option Import
  | .node (.known .importDeclaration) (_ :: specifiers :: source :: _) =>
      some ⟨literalText? source, specifiers.parts.findSome? defaultLocal?⟩
  | _ => none

/-- The shape of a top-level item. -/
inductive Shape where
  | importing (declaration : Import)
  | component (kind : Kind) (name : String)
  | propTypes (component : String) (literal : Tree)
  | other
deriving DecidableEq, Repr

/-- Whether an expression is a function, apart from parentheses around it. -/
def isFunction (t : Tree) : Bool :=
  match t.unparen with
  | .node (.known .functionExpression) _ => true
  | .node (.known .arrowFunction) _ => true
  | _ => false

/-- The name that the first declarator binds to a function. -/
def functionName? : List Tree → Option String
  | .declarator _ (.node (.identifier x) _) init _ :: _ => if isFunction init then some x else none
  | _ => none

/-- An expression, if it is an object literal apart from parentheses around it. -/
def objectLiteral? (t : Tree) : Option Tree :=
  match t.unparen with
  | .object s ps => some (.object s ps)
  | _ => none

/-- The component and the literal of `Name.propTypes = { ... }`. -/
def propTypesAssignment? : Tree → Option (String × Tree)
  | .assignment _ (.text "=") (.member _ (.node (.identifier x) _) (.node (.name p) _)) right =>
      if p = propTypesField then (objectLiteral? right).map fun literal => (x, literal) else none
  | _ => none

/-- The shape of an item. -/
def Shape.ofItem (item : Tree) : Shape :=
  match item with
  | .node (.known .importDeclaration) _ =>
      match Import.ofTree? item with
      | some i => .importing i
      | none => .other
  | .node (.known .classDeclaration) (.node (.identifier x) _ :: _) =>
      .component .classDeclaration x
  | .node (.known .functionDeclaration) (.node (.identifier x) _ :: _) =>
      .component .functionDeclaration x
  | .variableDeclaration _ _ _ _ declarators =>
      match functionName? declarators.parts with
      | some x => .component .functionValue x
      | none => .other
  | .expressionStatement _ e =>
      match propTypesAssignment? e with
      | some (x, literal) => .propTypes x literal
      | none => .other
  | _ => .other

end PropCatalog.Component
