import PropCatalog.Metadata.Splice
import PropCatalog.Proofs.StaticFields

/-!
# Relabelings

A relabeling changes what the leaves of a tree hold and how its identifiers are spelled.  Texts and
truth values are not affected, and neither are names and the kinds of nodes.  Erasing source positions
is a relabeling, and so is renaming an identifier.

Whatever is recognised in a tree is recognised in the relabeled tree, with the identifiers and the
expressions in it relabeled.  This is shown here once for every recogniser, up to the shape of an item
(`Shape.ofItem_relabel`), the property that an element declares (`property?_relabel`) and the static
literals of a class (`staticLiterals_relabel`).
-/

namespace PropCatalog

open Component Metadata

namespace Tree

/-- A change of leaves and of the spellings of identifiers.  A leaf becomes a text only if it was that
text, and a truth value only if it was that value. -/
structure Relabeling where
  atom : Atom → Atom
  identifier : String → String
  atom_eq_text_iff : ∀ a s, atom a = .text s ↔ a = .text s
  atom_eq_bool_iff : ∀ a b, atom a = .bool b ↔ a = .bool b

/-- A form whose identifier is spelled anew. -/
def Relabeling.form (r : Relabeling) : Form → Form
  | .identifier x => .identifier (r.identifier x)
  | f => f

/-- A tree with all its leaves and identifiers changed. -/
def relabel (r : Relabeling) : Tree → Tree :=
  fold (fun a => .leaf (r.atom a)) fun f parts => .node (r.form f) parts

variable (r : Relabeling)

@[simp] theorem Relabeling.atom_text (s : String) : r.atom (.text s) = .text s :=
  (r.atom_eq_text_iff _ s).mpr rfl

@[simp] theorem Relabeling.atom_bool (b : Bool) : r.atom (.bool b) = .bool b :=
  (r.atom_eq_bool_iff _ b).mpr rfl

@[simp] theorem relabel_leaf (a : Atom) : (Tree.leaf a).relabel r = .leaf (r.atom a) := rfl

theorem relabel_node (form : Form) (parts : List Tree) :
    (Tree.node form parts).relabel r = .node (r.form form) (parts.map (relabel r)) :=
  fold_node _ _ _ _

@[simp] theorem relabel_node_known (kind : Kind) (parts : List Tree) :
    (Tree.node (.known kind) parts).relabel r = .node (.known kind) (parts.map (relabel r)) :=
  relabel_node r _ _

@[simp] theorem relabel_node_identifier (x : String) (parts : List Tree) :
    (Tree.node (.identifier x) parts).relabel r =
      .node (.identifier (r.identifier x)) (parts.map (relabel r)) :=
  relabel_node r _ _

section Inversion

variable {r} {t : Tree}

/-- Only a text becomes a text. -/
theorem relabel_eq_text_iff {s : String} : t.relabel r = .text s ↔ t = .text s := by
  cases t with
  | leaf a => simp [r.atom_eq_text_iff]
  | node form parts => simp [relabel_node]

/-- Only a truth value becomes a truth value. -/
theorem relabel_eq_bool_iff {b : Bool} : t.relabel r = .bool b ↔ t = .bool b := by
  cases t with
  | leaf a => simp [r.atom_eq_bool_iff]
  | node form parts => simp [relabel_node]

/-- Only a node of a kind becomes a node of that kind. -/
theorem relabel_eq_known_iff {kind : Kind} {parts : List Tree} :
    t.relabel r = .node (.known kind) parts ↔
      ∃ before, t = .node (.known kind) before ∧ before.map (relabel r) = parts := by
  cases t with
  | leaf a => simp
  | node form before => cases form <;> simp [relabel_node, Relabeling.form]

/-- Only a name becomes a name, and it keeps its spelling. -/
theorem relabel_eq_name_iff {x : String} {parts : List Tree} :
    t.relabel r = .node (.name x) parts ↔
      ∃ before, t = .node (.name x) before ∧ before.map (relabel r) = parts := by
  cases t with
  | leaf a => simp
  | node form before => cases form <;> simp [relabel_node, Relabeling.form]

/-- Only an identifier becomes an identifier. -/
theorem relabel_eq_identifier_iff {x : String} {parts : List Tree} :
    t.relabel r = .node (.identifier x) parts ↔
      ∃ y before, t = .node (.identifier y) before ∧ r.identifier y = x ∧
        before.map (relabel r) = parts := by
  cases t with
  | leaf a => simp
  | node form before => cases form <;> simp [relabel_node, Relabeling.form]

end Inversion

theorem parts_relabel (t : Tree) : (t.relabel r).parts = t.parts.map (relabel r) := by
  cases t with
  | leaf a => rfl
  | node form parts =>
    rw [relabel_node]
    rfl

/-- The identifiers of a relabeled tree are those of the tree, spelled anew. -/
theorem identifiers_relabel (t : Tree) :
    (t.relabel r).identifiers = t.identifiers.map r.identifier := by
  induction t using Tree.induction with
  | leaf a => rfl
  | node form parts ih =>
    rw [relabel_node, identifiers_node, identifiers_node, List.map_append, List.flatMap_map,
      List.map_flatMap, List.flatMap_def, List.flatMap_def]
    congr 1
    · cases form <;> rfl
    · congr 1
      exact List.map_congr_left ih

theorem unparen_relabel (t : Tree) : (t.relabel r).unparen = t.unparen.relabel r := by
  induction t using unparen_induction with
  | parenthesis span e ih => simpa using ih
  | bare t hbare =>
    rw [unparen_eq_self hbare, unparen_eq_self]
    intro span e h
    simp only [relabel_eq_known_iff, List.map_eq_cons_iff, List.map_eq_nil_iff] at h
    obtain ⟨_, rfl, span', _, rfl, _, e', _, rfl, _, rfl⟩ := h
    exact hbare span' e' rfl

end Tree

/-! ## What is recognised

In each of these proofs the first case inverts the relabeling of a tree that has the shape in question,
and the second says that a tree of that shape still has it when it is relabeled. -/

namespace Component

open Tree

variable (r : Relabeling)

theorem isFunction_relabel (t : Tree) : isFunction (t.relabel r) = isFunction t := by
  unfold isFunction
  rw [unparen_relabel]
  cases t.unparen with
  | leaf a => rfl
  | node form parts =>
    cases form with
    | known kind =>
      rw [relabel_node_known]
      split <;> simp_all
    | _ => rfl

theorem functionName?_map_relabel (declarators : List Tree) :
    functionName? (declarators.map (relabel r)) =
      (functionName? declarators).map r.identifier := by
  unfold functionName?
  split
  · next h =>
    simp only [List.map_eq_cons_iff, relabel_eq_known_iff, relabel_eq_identifier_iff,
      List.map_eq_nil_iff] at h
    obtain ⟨_, _, rfl, ⟨_, rfl, _, _, rfl, _, _, _, rfl, ⟨_, _, rfl, rfl, _⟩, init, _, rfl, rfl, _,
      _, rfl, _, rfl⟩, _⟩ := h
    simp only [isFunction_relabel]
    split <;> rfl
  · next h =>
    split
    · exact (h _ _ _ _ _ _ rfl).elim
    · rfl

theorem objectLiteral?_relabel (t : Tree) :
    objectLiteral? (t.relabel r) = (objectLiteral? t).map (relabel r) := by
  unfold objectLiteral?
  rw [unparen_relabel]
  split
  · next h =>
    simp only [List.map_eq_cons_iff, relabel_eq_known_iff, List.map_eq_nil_iff] at h
    obtain ⟨_, hunparen, _, _, rfl, rfl, _, _, rfl, rfl, rfl⟩ := h
    rw [hunparen]
    rfl
  · next h =>
    split
    · next hobject => exact (h _ _ (congrArg (relabel r) hobject)).elim
    · rfl

theorem propTypesAssignment?_relabel (t : Tree) :
    propTypesAssignment? (t.relabel r) =
      (propTypesAssignment? t).map fun a => (r.identifier a.1, a.2.relabel r) := by
  unfold propTypesAssignment?
  split
  · next h =>
    simp only [List.map_eq_cons_iff, relabel_eq_known_iff, relabel_eq_text_iff,
      relabel_eq_identifier_iff, relabel_eq_name_iff, List.map_eq_nil_iff] at h
    obtain ⟨_, rfl, _, _, rfl, _, _, _, rfl, rfl, _, _, rfl, ⟨_, rfl, _, _, rfl, _, _, _, rfl,
      ⟨x, _, rfl, rfl, _⟩, _, _, rfl, ⟨_, rfl, _⟩, rfl⟩, right, _, rfl, rfl, rfl⟩ := h
    simp only [objectLiteral?_relabel]
    split
    · cases objectLiteral? right <;> rfl
    · rfl
  · next h =>
    split
    · simp only [relabel_node_known, relabel_leaf, Relabeling.atom_text, List.map_cons] at h
      exact (h _ _ _ _ _ _ _ rfl).elim
    · rfl

theorem literalText?_relabel (t : Tree) : literalText? (t.relabel r) = literalText? t := by
  unfold literalText?
  split
  · next h =>
    simp only [List.map_eq_cons_iff, relabel_eq_known_iff, relabel_eq_text_iff,
      List.map_eq_nil_iff] at h
    obtain ⟨_, rfl, _, _, rfl, _, _, _, rfl, rfl, _, _, rfl, _, rfl⟩ := h
    rfl
  · next h =>
    split
    · simp only [relabel_node_known, relabel_leaf, Relabeling.atom_text, List.map_cons] at h
      exact (h _ _ _ rfl).elim
    · rfl

theorem defaultLocal?_relabel (t : Tree) :
    defaultLocal? (t.relabel r) = (defaultLocal? t).map r.identifier := by
  unfold defaultLocal?
  split
  · next h =>
    simp only [List.map_eq_cons_iff, relabel_eq_known_iff, relabel_eq_identifier_iff,
      List.map_eq_nil_iff] at h
    obtain ⟨_, rfl, _, _, rfl, _, _, _, rfl, ⟨_, _, rfl, rfl, _⟩, rfl⟩ := h
    rfl
  · next h =>
    split
    · exact (h _ _ _ rfl).elim
    · rfl

/-- An import whose default export has its local name spelled anew. -/
def Import.relabel (i : Import) : Import := ⟨i.source, i.defaultName.map r.identifier⟩

theorem importOfTree?_relabel (t : Tree) :
    Import.ofTree? (t.relabel r) = (Import.ofTree? t).map (Import.relabel r) := by
  unfold Import.ofTree?
  split
  · next h =>
    simp only [List.map_eq_cons_iff, relabel_eq_known_iff] at h
    obtain ⟨_, rfl, _, _, rfl, _, specifiers, _, rfl, rfl, source, _, rfl, rfl, _⟩ := h
    have hdefault : (fun t => defaultLocal? (Tree.relabel r t)) =
        fun t => (defaultLocal? t).map r.identifier := funext (defaultLocal?_relabel r)
    simp only [literalText?_relabel, parts_relabel, List.findSome?_map, Function.comp_def, hdefault,
      Option.map_some, Import.relabel, List.map_findSome?]
  · next h =>
    split
    · exact (h _ _ _ _ rfl).elim
    · rfl

/-- A shape with its identifiers spelled anew. -/
def Shape.relabel : Shape → Shape
  | .importing i => .importing (i.relabel r)
  | .component kind name => .component kind (r.identifier name)
  | .propTypes name literal => .propTypes (r.identifier name) (literal.relabel r)
  | .other => .other

/-- Relabeling an item relabels its shape. -/
theorem Shape.ofItem_relabel (item : Tree) :
    Shape.ofItem (item.relabel r) = (Shape.ofItem item).relabel r := by
  have himport := importOfTree?_relabel r item
  unfold Shape.ofItem
  split
  · next h =>
    simp only [relabel_eq_known_iff] at h
    obtain ⟨parts, rfl, _⟩ := h
    rw [himport]
    cases Import.ofTree? (.node (.known .importDeclaration) parts) <;> rfl
  · next h =>
    simp only [List.map_eq_cons_iff, relabel_eq_known_iff, relabel_eq_identifier_iff] at h
    obtain ⟨_, rfl, _, _, rfl, ⟨_, _, rfl, rfl, _⟩, _⟩ := h
    rfl
  · next h =>
    simp only [List.map_eq_cons_iff, relabel_eq_known_iff, relabel_eq_identifier_iff] at h
    obtain ⟨_, rfl, _, _, rfl, ⟨_, _, rfl, rfl, _⟩, _⟩ := h
    rfl
  · next h =>
    simp only [List.map_eq_cons_iff, relabel_eq_known_iff, List.map_eq_nil_iff] at h
    obtain ⟨_, rfl, _, _, rfl, _, _, _, rfl, _, _, _, rfl, _, _, _, rfl, _, declarators, _, rfl, rfl,
      rfl⟩ := h
    simp only [parts_relabel, functionName?_map_relabel]
    cases functionName? declarators.parts <;> rfl
  · next h =>
    simp only [List.map_eq_cons_iff, relabel_eq_known_iff, List.map_eq_nil_iff] at h
    obtain ⟨_, rfl, _, _, rfl, _, e, _, rfl, rfl, rfl⟩ := h
    simp only [propTypesAssignment?_relabel]
    cases propTypesAssignment? e <;> rfl
  · next himports hclass hfunction hvariable hexpression =>
    split
    · exact (himports _ (relabel_node_known ..)).elim
    · exact (hclass _ _ _ (relabel_node_known ..)).elim
    · exact (hfunction _ _ _ (relabel_node_known ..)).elim
    · exact (hvariable _ _ _ _ _ (relabel_node_known ..)).elim
    · exact (hexpression _ _ (relabel_node_known ..)).elim
    · rfl

/-! ## What is collected -/

variable {r} in
/-- An element declares the same property with the value relabeled, unless it is a shorthand that is
spelled anew. -/
theorem property?_relabel {element : Tree}
    (hshorthand : ∀ x parts, element = .node (.identifier x) parts → r.identifier x = x) :
    property? (element.relabel r) = (property? element).map fun p => (p.1, p.2.relabel r) := by
  unfold property?
  split
  · next h =>
    simp only [List.map_eq_cons_iff, relabel_eq_known_iff, relabel_eq_name_iff,
      List.map_eq_nil_iff] at h
    obtain ⟨_, rfl, _, _, rfl, ⟨_, rfl, _⟩, _, _, rfl, rfl, rfl⟩ := h
    rfl
  · next h =>
    simp only [relabel_eq_identifier_iff] at h
    obtain ⟨x, parts, rfl, rfl, rfl⟩ := h
    simp [hshorthand x parts rfl]
  · next hkeyed hother =>
    split
    · exact (hkeyed _ _ _ (relabel_node_known ..)).elim
    · exact (hother _ _ (relabel_node_identifier ..)).elim
    · rfl

theorem staticLiteral?_map_relabel (parts : List Tree) :
    staticLiteral? (parts.map (relabel r)) = (staticLiteral? parts).map (relabel r) := by
  unfold staticLiteral?
  split
  · next h =>
    simp only [List.map_eq_cons_iff, relabel_eq_name_iff, relabel_eq_bool_iff] at h
    obtain ⟨_, _, rfl, _, _, _, rfl, ⟨_, rfl, _⟩, value, _, rfl, rfl, _, _, rfl, _, _, _, rfl, rfl,
      _⟩ := h
    simp only [objectLiteral?_relabel]
    split <;> rfl
  · next h =>
    split
    · simp only [relabel_leaf, Relabeling.atom_bool, List.map_cons] at h
      exact (h _ _ _ _ _ _ rfl).elim
    · rfl

theorem ownLiterals_relabel (t : Tree) :
    ownLiterals (t.relabel r) = (ownLiterals t).map (relabel r) := by
  induction t using Tree.induction with
  | leaf a => rfl
  | node form parts ih =>
    have hparts : (parts.map (relabel r)).flatMap ownLiterals =
        (parts.flatMap ownLiterals).map (relabel r) := by
      rw [List.flatMap_map, List.map_flatMap, List.flatMap_def, List.flatMap_def]
      congr 1
      exact List.map_congr_left ih
    by_cases hdeclaration : form = .known .classDeclaration
    · subst hdeclaration
      rw [relabel_node_known, ownLiterals_classDeclaration, ownLiterals_classDeclaration]
      rfl
    · by_cases hproperty : form = .known .classProperty
      · subst hproperty
        rw [relabel_node_known, ownLiterals_classProperty, ownLiterals_classProperty,
          staticLiteral?_map_relabel, hparts, List.map_append]
        cases staticLiteral? parts <;> rfl
      · have hform (kind : Tree.Kind) (hkind : form ≠ .known kind) : r.form form ≠ .known kind := by
          cases form <;> simp_all [Relabeling.form]
        rw [relabel_node, ownLiterals_node (hform _ hdeclaration) (hform _ hproperty),
          ownLiterals_node hdeclaration hproperty, hparts]

theorem staticLiterals_relabel (declaration : Tree) :
    staticLiterals (declaration.relabel r) = (staticLiterals declaration).map (relabel r) := by
  unfold staticLiterals
  rw [parts_relabel, List.flatMap_map, List.map_flatMap]
  simp only [ownLiterals_relabel]

end Component

/-! ## The directives in front -/

namespace Metadata

open Tree

variable (r : Relabeling)

theorem isDirective_relabel (t : Tree) : isDirective (t.relabel r) = isDirective t := by
  unfold isDirective
  split
  · next h =>
    simp only [List.map_eq_cons_iff, relabel_eq_known_iff, List.map_eq_nil_iff] at h
    obtain ⟨_, rfl, _, _, rfl, _, _, _, rfl, ⟨_, rfl, _⟩, rfl⟩ := h
    rfl
  · next h =>
    split
    · exact (h _ _ (relabel_node_known ..)).elim
    · rfl

theorem prologueLength_map_relabel (body : List Tree) :
    prologueLength (body.map (relabel r)) = prologueLength body := by
  have hdirective : isDirective ∘ relabel r = isDirective := funext (isDirective_relabel r)
  rw [prologueLength, List.takeWhile_map, hdirective, List.length_map, prologueLength]

end Metadata

end PropCatalog
