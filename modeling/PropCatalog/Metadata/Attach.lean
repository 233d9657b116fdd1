import PropCatalog.Metadata.FreshName
import PropCatalog.Metadata.Library
import PropCatalog.Metadata.Retarget
import PropCatalog.Metadata.Splice
import PropCatalog.Metadata.Statement

/-!
# Attaching metadata to the components of a module

`attach` surveys a module, declares the replacement library under a fresh name, and gives every
component that declares properties a metadata statement after its declaration.  The report says
what was found and what was inserted.
-/

namespace PropCatalog

open Component Metadata

/-- What was found of a component, and whether it received metadata. -/
structure ComponentReport where
  name : String
  kind : Kind
  properties : List String
  emitted : Bool
deriving DecidableEq, Repr

/-- What was done to a module. -/
structure Report where
  library : String
  «alias» : String
  components : List ComponentReport
deriving DecidableEq, Repr

namespace Report

/-- How many components received metadata. -/
def emittedCount (r : Report) : Nat := (r.components.filter ComponentReport.emitted).length

/-- How many properties were found. -/
def propertyCount (r : Report) : Nat :=
  (r.components.map fun c => c.properties.length).foldr (· + ·) 0

end Report

/-- The report on an entry of the registry. -/
def Component.Entry.report (e : Entry) : ComponentReport :=
  ⟨e.name, e.kind, e.propertyNames, !e.properties.isEmpty⟩

/-- The metadata statement of an entry with its place in the body. -/
def Component.Entry.insertion? (e : Entry) (field aliasName library : String) : Option Insertion :=
  (statement? e field).map fun s => ⟨e.anchor, retarget aliasName library s⟩

namespace Module

/-- Insert what a survey asks for. -/
def synthesize (m : Module) (survey : Survey) (options : Options) : Report × Module :=
  let name := freshName m options.libraryBaseName
  let entries := survey.registry.entries
  let insertions := entries.filterMap fun e =>
    e.insertion? options.metadataField survey.alias name
  (⟨name, survey.alias, entries.map Entry.report⟩,
    { m with body := splice m.body (library name) insertions })

/-- Attach metadata to the components that a module declares. -/
def attach (m : Module) (options : Options) : Report × Module :=
  m.synthesize (.ofModule m options) options

end Module

end PropCatalog
