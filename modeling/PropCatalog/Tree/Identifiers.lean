import PropCatalog.Tree.Basic

/-!
# Identifiers and spans of a tree

What a tree says about identifiers and positions at any depth: `Tree.identifiers` lists the
spellings of its bindings and references, `Tree.spans` its positions, `Tree.rename` replaces one
spelling of identifiers, and `Tree.eraseSpans` forgets every position and nothing else.
-/

namespace PropCatalog.Tree

/-- The spelling of an identifier's form. -/
def Form.identifier? : Form → Option String
  | .identifier x => some x
  | _ => none

/-- The spellings of all identifiers, in the order of a traversal. -/
def identifiers : Tree → List String :=
  fold (fun _ => []) fun f parts => f.identifier?.toList ++ parts.flatten

@[simp] theorem identifiers_leaf (a : Atom) : (Tree.leaf a).identifiers = [] := rfl

@[simp] theorem identifiers_node (f : Form) (parts : List Tree) :
    (Tree.node f parts).identifiers = f.identifier?.toList ++ parts.flatMap identifiers := by
  rw [identifiers, fold_node, List.flatMap_def]

/-- A form after the identifier `old` became `new`. -/
def Form.rename (old new : String) : Form → Form
  | .identifier x => .identifier (if x = old then new else x)
  | f => f

/-- A tree after every identifier `old` became `new`. -/
def rename (old new : String) : Tree → Tree :=
  mapForms (Form.rename old new)

/-- An atom without its position. -/
def Atom.eraseSpan : Atom → Atom
  | .span _ => .span .dummy
  | a => a

/-- A tree with every span replaced by the dummy span. -/
def eraseSpans : Tree → Tree :=
  mapAtoms Atom.eraseSpan

@[simp] theorem eraseSpans_leaf (a : Atom) : (Tree.leaf a).eraseSpans = .leaf a.eraseSpan := rfl

@[simp] theorem eraseSpans_node (f : Form) (parts : List Tree) :
    (Tree.node f parts).eraseSpans = .node f (parts.map eraseSpans) :=
  mapAtoms_node _ _ _

/-- The span an atom holds. -/
def Atom.span? : Atom → Option Span
  | .span s => some s
  | _ => none

/-- All spans of a tree, in the order of a traversal. -/
def spans : Tree → List Span :=
  fold (fun a => a.span?.toList) fun _ parts => parts.flatten

@[simp] theorem spans_leaf (a : Atom) : (Tree.leaf a).spans = a.span?.toList := rfl

@[simp] theorem spans_node (f : Form) (parts : List Tree) :
    (Tree.node f parts).spans = parts.flatMap spans := by
  rw [spans, fold_node, List.flatMap_def]

end PropCatalog.Tree
