/-!
# Names that a run works with

The names under which the validation library is known and those that the inserted statements use.
Each has a default.
-/

namespace PropCatalog

/-- The names of one run. -/
structure Options where
  /-- The source from which the validation library is imported. -/
  librarySource : String := "prop-types"
  /-- The local name of the library where no import binds one. -/
  defaultAlias : String := "PropTypes"
  /-- The member of a component that receives its metadata. -/
  metadataField : String := "__metadata"
  /-- What the name of the replacement library is made from. -/
  libraryBaseName : String := "fakePropTypes"
deriving DecidableEq, Repr, Inhabited

/-- The member of a component, or the static field of a class, that declares its properties. -/
def propTypesField : String := "propTypes"

/-- The member of a validator that asks for the property to be present. -/
def requiredField : String := "isRequired"

end PropCatalog
