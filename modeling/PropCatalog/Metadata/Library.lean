import PropCatalog.Metadata.Build

/-!
# The replacement library

A value that stands in for the validation library: reading any of its members gives the library
again, calling it gives the library again, and its member `isRequired` is the function that gives
back its argument.
-/

namespace PropCatalog.Metadata

/-- What reading a member of the library gives. -/
def getTrap (name : String) : Tree :=
  arrowOf ["target", "key"]
    (conditional (strictEqual (reference "key") (stringOf requiredField))
      (arrowOf ["type"] (reference "type")) (reference name))

/-- What calling the library gives. -/
def applyTrap (name : String) : Tree := arrowOf [] (reference name)

/-- The statement that declares the library under a name. -/
def library (name : String) : Tree :=
  constant name
    (newOf (reference "Proxy")
      [emptyFunction, objectOf [("get", getTrap name), ("apply", applyTrap name)]])

end PropCatalog.Metadata
