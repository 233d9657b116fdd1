import PropCatalog.Metadata.Retarget
import PropCatalog.Tree.Identifiers

/-!
# Retargeting, one node at a time

`retarget` is defined bottom-up on places and then settled.  The equations of this file let it be
followed from the top instead: a node that has no place among its parts is retargeted part by part
(`retarget_node`), and a member access is settled once its own parts have been retargeted
(`retarget_member`).
-/

namespace PropCatalog.Metadata

open Tree

variable (aliasName library : String)

/-! ## Settling -/

/-- Only member accesses are settled. -/
theorem settle_eq_self {t : Tree} (h : t.isMember = false) : settle library t = t := by
  unfold settle
  split
  · simp [isMember] at h
  · rfl

@[simp] theorem settle_node {form : Form} (hform : form ≠ .known .memberExpression)
    (parts : List Tree) : settle library (.node form parts) = .node form parts := by
  apply settle_eq_self
  unfold isMember
  split
  · next heq => exact absurd (Tree.node.inj heq).1 hform
  · rfl

/-- A form none of whose parts is a place. -/
def HasNoPlace (form : Form) : Prop :=
  form ≠ .known .assignmentExpression ∧ form ≠ .known .optionalChain

instance (form : Form) : Decidable (HasNoPlace form) :=
  inferInstanceAs (Decidable (_ ∧ _))

theorem isPlace_eq_false {form : Form} (hform : HasNoPlace form) (position : Nat) :
    isPlace form position = false := by
  unfold isPlace
  split
  · exact absurd rfl hform.1
  · exact absurd rfl hform.2
  · rfl

theorem settleParts_eq_map {form : Form} (hform : HasNoPlace form) (parts : List Tree) :
    settleParts library form parts = parts.map (settle library) := by
  unfold settleParts
  rw [List.mapIdx_eq_zipIdx_map]
  conv => rhs; rw [← List.zipIdx_map_fst 0 parts, List.map_map]
  apply List.map_congr_left
  intro part _
  simp [isPlace_eq_false hform]

/-! ## Retargeting -/

@[simp] theorem rename_known (kind : Kind) :
    (Form.known kind).rename aliasName library = .known kind := rfl

/-- Renaming makes no form of a known kind. -/
theorem rename_eq_known {form : Form} {kind : Kind} :
    form.rename aliasName library = .known kind ↔ form = .known kind := by
  cases form <;> simp [Form.rename]

@[simp] theorem retarget_leaf (a : Atom) : retarget aliasName library (.leaf a) = .leaf a := rfl

theorem retargetPlace_node_eq {form : Form} (hform : HasNoPlace form) (parts : List Tree) :
    retargetPlace aliasName library (.node form parts) =
      .node (form.rename aliasName library) (parts.map (retarget aliasName library)) := by
  rw [retargetPlace_node, settleParts_eq_map library hform, List.map_map]
  rfl

/-- A node without places that is no member access is retargeted part by part. -/
theorem retarget_node {form : Form} (hform : HasNoPlace form)
    (hmember : form ≠ .known .memberExpression) (parts : List Tree) :
    retarget aliasName library (.node form parts) =
      .node (form.rename aliasName library) (parts.map (retarget aliasName library)) := by
  have hrenamed : form.rename aliasName library ≠ .known .memberExpression :=
    mt (rename_eq_known aliasName library).mp hmember
  rw [retarget, retargetPlace_node_eq aliasName library hform, settle_node library hrenamed]

/-- A member access is settled after its parts. -/
theorem retarget_member (span object property : Tree) :
    retarget aliasName library (.member span object property) =
      settle library (.member (retarget aliasName library span) (retarget aliasName library object)
        (retarget aliasName library property)) := by
  rw [retarget, retargetPlace_node_eq aliasName library (by decide)]
  rfl

theorem retarget_identifier (x : String) (parts : List Tree) :
    retarget aliasName library (.node (.identifier x) parts) =
      .node (.identifier (if x = aliasName then library else x))
        (parts.map (retarget aliasName library)) :=
  retarget_node aliasName library (by constructor <;> simp) (by simp) parts

theorem retarget_name (x : String) (parts : List Tree) :
    retarget aliasName library (.node (.name x) parts) =
      .node (.name x) (parts.map (retarget aliasName library)) :=
  retarget_node aliasName library (by constructor <;> simp) (by simp) parts

theorem retarget_list (items : List Tree) :
    retarget aliasName library (.list items) = .list (items.map (retarget aliasName library)) :=
  retarget_node aliasName library (by decide) (by decide) items

/-- The left side of an assignment is retargeted as a place, its right side as an expression. -/
theorem retarget_assignment (span operator left right : Tree) :
    retarget aliasName library (.assignment span operator left right) =
      .assignment (retarget aliasName library span) (retarget aliasName library operator)
        (retargetPlace aliasName library left) (retarget aliasName library right) := by
  rw [retarget, retargetPlace_node]
  rfl

end PropCatalog.Metadata
