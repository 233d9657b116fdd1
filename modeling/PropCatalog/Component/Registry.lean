import PropCatalog.Component.Shape
import PropCatalog.Tree.Identifiers

/-!
# The registry of components

A registry lists the components of a module in the order in which their names were first
registered.  An entry holds how and where its component was declared last, and the properties
collected for it so far: each with the expression that was collected for it last, in the order in
which their names were first seen.
-/

namespace PropCatalog.Component

/-- Named values in the order in which their names were first given. -/
abbrev Record (α : Type) := List (String × α)

namespace Record

variable {α : Type}

/-- Give a name a value.  A name that has one keeps its place. -/
def set (name : String) (value : α) : Record α → Record α
  | [] => [(name, value)]
  | (k, v) :: rest => if k = name then (k, value) :: rest else (k, v) :: set name value rest

/-- The names of a record, in order. -/
def names (r : Record α) : List String := r.map Prod.fst

end Record

/-- A component of a module.  The anchor is the position of its declaration in the body. -/
structure Entry where
  name : String
  kind : Kind
  anchor : Nat
  properties : Record Tree := []
deriving DecidableEq, Repr

/-- The property that an element of an object literal declares: an identifier key with its value,
or a shorthand, which is its own value.  Spreads, methods, accessors and other keys declare
none. -/
def property? : Tree → Option (String × Tree)
  | .keyValue (.node (.name k) _) value => some (k, value)
  | .node (.identifier x) parts => some (x, .node (.identifier x) parts)
  | _ => none

/-- The properties that an object literal declares, without source positions, in order and with
repetitions. -/
def declaredProperties : Tree → List (String × Tree)
  | .object _ properties =>
      properties.parts.filterMap fun p =>
        (property? p).map fun (name, value) => (name, value.eraseSpans)
  | _ => []

namespace Entry

/-- Collect the properties of an object literal. -/
def collect (entry : Entry) (literal : Tree) : Entry :=
  { entry with
    properties := (declaredProperties literal).foldl (fun r p => r.set p.1 p.2) entry.properties }

/-- The names of the properties collected so far. -/
def propertyNames (entry : Entry) : List String := entry.properties.names

end Entry

/-- The components of a module in the order of their first registration. -/
structure Registry where
  entries : List Entry := []
deriving DecidableEq, Repr

namespace Registry

/-- The registry without components. -/
def empty : Registry := {}

/-- The names of the components. -/
def names (r : Registry) : List String := r.entries.map Entry.name

/-- The entry of a component. -/
def get? (r : Registry) (name : String) : Option Entry :=
  r.entries.find? fun e => e.name = name

/-- Change the entry of a component. -/
def modify (r : Registry) (name : String) (f : Entry → Entry) : Registry :=
  ⟨r.entries.map fun e => if e.name = name then f e else e⟩

/-- Register a declaration.  A component that is known keeps its place and its properties. -/
def register (r : Registry) (name : String) (kind : Kind) (anchor : Nat) : Registry :=
  if name ∈ r.names then r.modify name fun e => { e with kind, anchor }
  else ⟨r.entries ++ [⟨name, kind, anchor, []⟩]⟩

/-- Collect the properties of an object literal for a component.  Nothing happens if the
component is unknown. -/
def collect (r : Registry) (name : String) (literal : Tree) : Registry :=
  r.modify name fun e => e.collect literal

/-- How many properties a literal gives to a component, repetitions included, if the component
is known. -/
def taken? (r : Registry) (name : String) (literal : Tree) : Option Nat :=
  if name ∈ r.names then some (declaredProperties literal).length else none

end Registry

end PropCatalog.Component
