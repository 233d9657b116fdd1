import PropCatalog.Component.Alias
import PropCatalog.Component.StaticFields

/-!
# Survey of a module

One pass over the top-level items of a module, in order, finds the alias of the validation
library and the registry of components.  Properties assigned to a component are collected only
once the component has been declared.
-/

namespace PropCatalog

/-- A module: its items, and what else its text says about it. -/
structure Module where
  span : Tree
  body : List Tree
  interpreter : Tree
deriving DecidableEq, Repr

namespace Module

/-- The module that a tree describes. -/
def ofTree? : Tree → Option Module
  | .node (.known .moduleBody) [span, .list body, interpreter] => some ⟨span, body, interpreter⟩
  | _ => none

/-- A module as a tree. -/
def toTree (m : Module) : Tree :=
  .node (.known .moduleBody) [m.span, .list m.body, m.interpreter]

/-- The spellings of all identifiers of a module. -/
def identifiers (m : Module) : List String := m.body.flatMap Tree.identifiers

end Module

namespace Component

/-- What is known of a module after some of its items. -/
structure Survey where
  «alias» : String
  registry : Registry
deriving DecidableEq, Repr

namespace Survey

/-- Take note of the item at a position. -/
def observe (librarySource : String) (s : Survey) (position : Nat) (item : Tree) : Survey :=
  match Shape.ofItem item with
  | .importing i => { s with «alias» := i.alias librarySource s.alias }
  | .component kind name =>
      let registry := s.registry.register name kind position
      match kind with
      | .classDeclaration => { s with registry := registry.collectStatic name item }
      | _ => { s with registry }
  | .propTypes name literal => { s with registry := s.registry.collect name literal }
  | .other => s

/-- Take note of the items from a position on. -/
def observeAll (librarySource : String) (s : Survey) : Nat → List Tree → Survey
  | _, [] => s
  | position, item :: items =>
      observeAll librarySource (s.observe librarySource position item) (position + 1) items

/-- What a module declares. -/
def ofModule (m : Module) (options : Options) : Survey :=
  observeAll options.librarySource ⟨options.defaultAlias, .empty⟩ 0 m.body

end Survey

end Component

end PropCatalog
