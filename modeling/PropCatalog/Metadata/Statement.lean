import PropCatalog.Metadata.Build

/-!
# Metadata statements

`Name.field = { props: { p: { type: T }, ... } };` lists the properties of a component with the
expressions collected for them.
-/

namespace PropCatalog.Metadata

open Component

/-- The object that describes the properties of a component. -/
def description (properties : Record Tree) : Tree :=
  objectOf [("props", objectOf (properties.map fun p => (p.1, objectOf [("type", p.2)])))]

/-- The statement that attaches to a component the properties collected for it, if there are
any. -/
def statement? (entry : Entry) (field : String) : Option Tree :=
  if entry.properties.isEmpty then none
  else some (assignMember entry.name field (description entry.properties)).eraseSpans

end PropCatalog.Metadata
