import PropCatalog.Metadata.Build

/-!
# Retargeting to the replacement library

A statement that speaks of the validation library by its alias is made to speak of the
replacement library.  Identifiers spelled like the alias take the name of the library, and a
validator marked as required, `v.isRequired`, becomes a call `L.isRequired(v)`.

Both happen bottom-up.  The second applies to expressions only: the left side of an assignment
and the base of an optional chain are places, not expressions.
-/

namespace PropCatalog.Metadata

open Tree

/-- Whether the part of a node at a position is a place rather than an expression. -/
def isPlace (form : Form) (position : Nat) : Bool :=
  match form with
  | .known .assignmentExpression => position = 2
  | .known .optionalChain => position = 2
  | _ => false

/-- `library.isRequired(validator)` -/
def requiredCall (library : String) (validator : Tree) : Tree :=
  callOf (memberOf (reference library) requiredField) [validator]

/-- An expression, turned into a call if it is a call or a member access marked as required. -/
def settle (library : String) (t : Tree) : Tree :=
  match t with
  | .member _ validator (.node (.name p) _) =>
      if p = requiredField ∧ (validator.unparen.isCall ∨ validator.unparen.isMember) then
        requiredCall library validator.unparen
      else t
  | _ => t

/-- The node made from parts that have been retargeted as places. -/
def settleParts (library : String) (form : Form) (parts : List Tree) : List Tree :=
  parts.mapIdx fun position t => if isPlace form position then t else settle library t

/-- Retarget a place. -/
def retargetPlace (aliasName library : String) : Tree → Tree :=
  fold .leaf fun form parts =>
    .node (form.rename aliasName library) (settleParts library form parts)

/-- Retarget a statement or an expression. -/
def retarget (aliasName library : String) (t : Tree) : Tree :=
  settle library (retargetPlace aliasName library t)

@[simp] theorem retargetPlace_leaf (aliasName library : String) (a : Atom) :
    retargetPlace aliasName library (.leaf a) = .leaf a := rfl

theorem retargetPlace_node (aliasName library : String) (form : Form) (parts : List Tree) :
    retargetPlace aliasName library (.node form parts) =
      .node (form.rename aliasName library)
        (settleParts library form (parts.map (retargetPlace aliasName library))) :=
  fold_node _ _ _ _

end PropCatalog.Metadata
