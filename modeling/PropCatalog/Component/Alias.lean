import PropCatalog.Component.Shape

/-!
# The local name of the validation library

The alias is the local name given to the library's default export by the last import that gives
it one, and a default name if there is none.
-/

namespace PropCatalog.Component

/-- The alias after an import, from the alias before it. -/
def Import.alias (librarySource aliasName : String) (i : Import) : String :=
  if i.source = some librarySource then i.defaultName.getD aliasName else aliasName

/-- The alias after a list of imports. -/
def aliasOf (options : Options) (imports : List Import) : String :=
  imports.foldl (Import.alias options.librarySource) options.defaultAlias

/-- The alias after each of a list of imports. -/
def aliases (librarySource aliasName : String) : List Import → List String
  | [] => []
  | i :: is =>
      let next := i.alias librarySource aliasName
      next :: aliases librarySource next is

end PropCatalog.Component
