import PropCatalog.Tree.Basic

/-!
# Nodes by kind

One constructor per kind of node that is recognised or built, with the parts in the order of the
kind's fields.  Each is also a pattern.
-/

namespace PropCatalog.Tree

/-- A missing part. -/
@[match_pattern, reducible] def null : Tree := .leaf .null

/-- A list of trees. -/
@[match_pattern, reducible] def list (items : List Tree) : Tree := .node .list items

/-- A truth value. -/
@[match_pattern, reducible] def bool (b : Bool) : Tree := .leaf (.bool b)

/-- A text. -/
@[match_pattern, reducible] def text (s : String) : Tree := .leaf (.text s)

/-- A source position. -/
@[match_pattern, reducible] def span (s : Span) : Tree := .leaf (.span s)

/-- `object.property` or `object[property]` -/
@[match_pattern, reducible] def member (span object property : Tree) : Tree :=
  .node (.known .memberExpression) [span, object, property]

/-- `callee(arguments)` -/
@[match_pattern, reducible] def call (span context callee arguments typeArguments : Tree) : Tree :=
  .node (.known .callExpression) [span, context, callee, arguments, typeArguments]

/-- An element of an argument list or an array, with the position of `...` if it is spread. -/
@[match_pattern, reducible] def argument (spread expression : Tree) : Tree :=
  .node (.known .argument) [spread, expression]

/-- `(expression)` -/
@[match_pattern, reducible] def parenthesis (span expression : Tree) : Tree :=
  .node (.known .parenthesisExpression) [span, expression]

/-- `left operator right`, where the operator assigns. -/
@[match_pattern, reducible] def assignment (span operator left right : Tree) : Tree :=
  .node (.known .assignmentExpression) [span, operator, left, right]

/-- An object literal. -/
@[match_pattern, reducible] def object (span properties : Tree) : Tree :=
  .node (.known .objectExpression) [span, properties]

/-- `key: value` in an object literal. -/
@[match_pattern, reducible] def keyValue (key value : Tree) : Tree :=
  .node (.known .keyValueProperty) [key, value]

/-- A string literal, with its spelling in the source if it has one. -/
@[match_pattern, reducible] def string (span value raw : Tree) : Tree :=
  .node (.known .stringLiteral) [span, value, raw]

/-- An expression as a statement. -/
@[match_pattern, reducible] def expressionStatement (span expression : Tree) : Tree :=
  .node (.known .expressionStatement) [span, expression]

/-- A declaration of variables. -/
@[match_pattern, reducible] def variableDeclaration
    (span context keyword declare declarators : Tree) : Tree :=
  .node (.known .variableDeclaration) [span, context, keyword, declare, declarators]

/-- One variable of a declaration. -/
@[match_pattern, reducible] def declarator (span target init definite : Tree) : Tree :=
  .node (.known .variableDeclarator) [span, target, init, definite]

/-- Whether a tree is a call. -/
def isCall : Tree → Bool
  | .node (.known .callExpression) _ => true
  | _ => false

/-- Whether a tree is a member access. -/
def isMember : Tree → Bool
  | .node (.known .memberExpression) _ => true
  | _ => false

/-- An expression without the parentheses around it. -/
def unparen : Tree → Tree
  | parenthesis _ e => e.unparen
  | t => t

@[simp] theorem unparen_parenthesis (s e : Tree) : (parenthesis s e).unparen = e.unparen := by
  rw [unparen]

theorem unparen_eq_self {t : Tree} (h : ∀ s e, t ≠ parenthesis s e) : t.unparen = t := by
  rw [unparen]
  exact h

/-- To prove something of every expression, prove it of those without parentheses around them and
of parentheses around an expression that has it. -/
@[elab_as_elim]
theorem unparen_induction {motive : Tree → Prop}
    (bare : ∀ t, (∀ s e, t ≠ parenthesis s e) → motive t)
    (parenthesis : ∀ s e, motive e → motive (parenthesis s e)) (t : Tree) : motive t := by
  fun_induction unparen t with
  | case1 s e ih => exact parenthesis s e ih
  | case2 t h => exact bare t h

/-- The part of a node under a field. -/
def field? (field : String) : Tree → Option Tree
  | .node (.known k) parts => (k.fields.zip parts).lookup field
  | .node (.record _ names) parts => (names.zip parts).lookup field
  | _ => none

end PropCatalog.Tree
