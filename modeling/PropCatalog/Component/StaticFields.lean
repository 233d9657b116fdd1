import PropCatalog.Component.Registry

/-!
# Static property declarations of a class

`static propTypes = { ... }` inside the declaration of a class declares the properties of the
component.  The declaration is walked in document order with a count of the class declarations
entered: the fields of a class declared inside another declaration are not its own.  A class
expression does not count, so its fields are taken for those of the declaration around it.
-/

namespace PropCatalog.Component

/-- The object literal of a static `propTypes` field, given the parts of a class property. -/
def staticLiteral? : List Tree → Option Tree
  | _ :: .node (.name k) _ :: value :: _ :: .bool true :: _ =>
      if k = propTypesField then objectLiteral? value else none
  | _ => none

/-- A walk through the declaration of a component. -/
structure Walk where
  /-- How many class declarations have been entered and not yet left. -/
  depth : Nat
  entry : Entry

namespace Walk

/-- Arrive at a node. -/
def enter (w : Walk) (form : Tree.Form) (parts : List Tree) : Walk :=
  match form with
  | .known .classDeclaration => { w with depth := w.depth + 1 }
  | .known .classProperty =>
      match staticLiteral? parts with
      | some literal => if w.depth = 1 then { w with entry := w.entry.collect literal } else w
      | none => w
  | _ => w

/-- Leave a node whose parts have been walked. -/
def leave (w : Walk) (form : Tree.Form) : Walk :=
  match form with
  | .known .classDeclaration => { w with depth := w.depth - 1 }
  | _ => w

mutual

/-- Walk a tree in document order. -/
def visit : Tree → Walk → Walk
  | .leaf _, w => w
  | .node form parts, w => (visitAll parts (w.enter form parts)).leave form

/-- Walk a list of trees in order. -/
def visitAll : List Tree → Walk → Walk
  | [], w => w
  | t :: ts, w => visitAll ts (visit t w)

end

end Walk

/-- Collect the static fields of a class declaration. -/
def Entry.collectStatic (entry : Entry) (declaration : Tree) : Entry :=
  (Walk.visit declaration ⟨0, entry⟩).entry

/-- Collect the static fields of a class declaration for a component. -/
def Registry.collectStatic (r : Registry) (name : String) (declaration : Tree) : Registry :=
  r.modify name fun e => e.collectStatic declaration

end PropCatalog.Component
