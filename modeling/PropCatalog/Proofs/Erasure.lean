import PropCatalog.Proofs.Attach
import PropCatalog.Proofs.Relabeling

/-!
# Source positions do not matter

Two modules that differ in their source positions only are the same module, formatted differently.
This file shows that attaching metadata cannot tell them apart: the reports are equal, the inserted
statements are equal with their positions, and they stand at the same places.

Erasing is a relabeling that keeps every identifier (`Tree.relabel_erasing`).  So everything that looks
at a tree gives the same answer after `Tree.eraseSpans`, or the erased answer where it gives a tree.
What is collected is erased already, so from the registry on the two runs agree exactly
(`Survey.ofModule_eraseSpans`, `Module.metadataAfter_eraseSpans`).
-/

namespace PropCatalog

open Component Metadata

/-! ## Trees -/

namespace Tree

@[simp] theorem Atom.eraseSpan_eraseSpan (a : Atom) : a.eraseSpan.eraseSpan = a.eraseSpan := by
  cases a <;> rfl

@[simp] theorem eraseSpans_eraseSpans (t : Tree) : t.eraseSpans.eraseSpans = t.eraseSpans := by
  induction t using Tree.induction with
  | leaf a => simp
  | node form parts ih =>
    rw [eraseSpans_node, eraseSpans_node, List.map_map]
    congr 1
    exact List.map_congr_left ih

/-- Erasing positions keeps every identifier, and of the leaves it changes positions only. -/
def Relabeling.erasing : Relabeling where
  atom := Atom.eraseSpan
  identifier := id
  atom_eq_text_iff a s := by cases a <;> simp [Atom.eraseSpan]
  atom_eq_bool_iff a b := by cases a <;> simp [Atom.eraseSpan]

theorem relabel_erasing : relabel .erasing = eraseSpans := by
  funext t
  induction t using Tree.induction with
  | leaf a => rfl
  | node form parts ih =>
    rw [relabel_node, eraseSpans_node]
    congr 1
    · cases form <;> rfl
    · exact List.map_congr_left ih

/-- Erasing keeps every identifier. -/
@[simp] theorem identifiers_eraseSpans (t : Tree) : t.eraseSpans.identifiers = t.identifiers := by
  rw [← relabel_erasing, identifiers_relabel]
  exact List.map_id _

@[simp] theorem parts_eraseSpans (t : Tree) : t.eraseSpans.parts = t.parts.map eraseSpans := by
  rw [← relabel_erasing, parts_relabel]

end Tree

/-! ## What is recognised -/

namespace Component

open Tree

/-- A shape without source positions. -/
def Shape.eraseSpans : Shape → Shape
  | .propTypes name literal => .propTypes name literal.eraseSpans
  | shape => shape

theorem Shape.relabel_erasing (shape : Shape) : shape.relabel .erasing = shape.eraseSpans := by
  cases shape with
  | importing i =>
    change Shape.importing ⟨i.source, i.defaultName.map id⟩ = .importing i
    rw [Option.map_id, id]
  | component kind name => rfl
  | propTypes name literal =>
    rw [Shape.relabel, Tree.relabel_erasing]
    rfl
  | other => rfl

/-- The shape of an item does not depend on its positions. -/
theorem Shape.ofItem_eraseSpans (item : Tree) :
    Shape.ofItem item.eraseSpans = (Shape.ofItem item).eraseSpans := by
  rw [← Tree.relabel_erasing, Shape.ofItem_relabel, Shape.relabel_erasing]

/-! ## What is collected -/

theorem property?_eraseSpans (t : Tree) :
    property? t.eraseSpans = (property? t).map fun p => (p.1, p.2.eraseSpans) := by
  rw [← relabel_erasing]
  exact property?_relabel fun _ _ _ => rfl

/-- What a literal declares is without positions whether or not the literal is. -/
@[simp] theorem declaredProperties_eraseSpans (literal : Tree) :
    declaredProperties literal.eraseSpans = declaredProperties literal := by
  unfold declaredProperties
  split
  · next h =>
    simp only [← relabel_erasing, List.map_eq_cons_iff, relabel_eq_known_iff,
      List.map_eq_nil_iff] at h
    obtain ⟨_, rfl, _, _, rfl, _, properties, _, rfl, rfl, rfl⟩ := h
    rw [relabel_erasing, parts_eraseSpans, List.filterMap_map]
    apply List.filterMap_congr
    intro p _
    simp only [Function.comp_apply, property?_eraseSpans, Option.map_map]
    congr 1
    funext q
    simp
  · next h =>
    split
    · exact (h _ _ rfl).elim
    · rfl

@[simp] theorem Entry.collect_eraseSpans (e : Entry) (literal : Tree) :
    e.collect literal.eraseSpans = e.collect literal := by
  unfold Entry.collect
  rw [declaredProperties_eraseSpans]

theorem staticLiterals_eraseSpans (declaration : Tree) :
    staticLiterals declaration.eraseSpans = (staticLiterals declaration).map eraseSpans := by
  rw [← relabel_erasing, staticLiterals_relabel]

/-- The static fields of a class are collected without their positions. -/
theorem Entry.collectStatic_eraseSpans (e : Entry) (parts : List Tree) :
    e.collectStatic (Tree.node (.known .classDeclaration) parts).eraseSpans =
      e.collectStatic (.node (.known .classDeclaration) parts) := by
  have hliterals := staticLiterals_eraseSpans (.node (.known .classDeclaration) parts)
  rw [eraseSpans_node] at hliterals ⊢
  rw [collectStatic_eq_foldl, collectStatic_eq_foldl, hliterals, List.foldl_map]
  simp only [collect_eraseSpans]

/-! ## The survey -/

namespace Survey

/-- An item says the same with and without positions. -/
theorem observe_eraseSpans (librarySource : String) (s : Survey) (position : Nat) (item : Tree) :
    s.observe librarySource position item.eraseSpans = s.observe librarySource position item := by
  unfold observe
  rw [Shape.ofItem_eraseSpans]
  cases hshape : Shape.ofItem item with
  | importing i => rfl
  | other => rfl
  | propTypes name literal =>
    simp only [Shape.eraseSpans, Registry.collect, Entry.collect_eraseSpans]
  | component kind name =>
    cases kind with
    | functionDeclaration => rfl
    | functionValue => rfl
    | classDeclaration =>
      obtain ⟨parts, rfl⟩ := eq_classDeclaration hshape
      simp only [Shape.eraseSpans, Registry.collectStatic, Entry.collectStatic_eraseSpans]

theorem observeAll_map_eraseSpans (librarySource : String) (s : Survey) (position : Nat)
    (items : List Tree) :
    s.observeAll librarySource position (items.map eraseSpans) =
      s.observeAll librarySource position items := by
  induction items generalizing s position with
  | nil => rfl
  | cons item items ih => rw [List.map_cons, observeAll, observeAll, observe_eraseSpans, ih]

end Survey

end Component

namespace Module

/-- A module without source positions. -/
def eraseSpans (m : Module) : Module where
  span := m.span.eraseSpans
  body := m.body.map Tree.eraseSpans
  interpreter := m.interpreter.eraseSpans

/-- Erasing the positions of a module is erasing those of its tree. -/
theorem toTree_eraseSpans (m : Module) : m.eraseSpans.toTree = m.toTree.eraseSpans := by
  simp [toTree, eraseSpans]

@[simp] theorem identifiers_eraseSpans (m : Module) : m.eraseSpans.identifiers = m.identifiers := by
  unfold identifiers eraseSpans
  rw [List.flatMap_map]
  simp only [Tree.identifiers_eraseSpans]

end Module

/-- A survey finds the same with and without positions. -/
@[simp] theorem Component.Survey.ofModule_eraseSpans (m : Module) (options : Options) :
    ofModule m.eraseSpans options = ofModule m options :=
  observeAll_map_eraseSpans _ _ _ _

namespace Module

variable (m : Module) (options : Options)

@[simp] theorem freshName_eraseSpans (base : String) :
    freshName m.eraseSpans base = freshName m base := by
  rw [freshName, identifiers_eraseSpans, freshName]

theorem report_eraseSpans : (m.eraseSpans.attach options).1 = (m.attach options).1 := by
  simp [attach, synthesize]

/-! ## The new body -/

theorem isDirective_eraseSpans (t : Tree) : isDirective t.eraseSpans = isDirective t := by
  rw [← Tree.relabel_erasing, isDirective_relabel]

/-- Erasing a layout is laying out the erased parts. -/
theorem map_eraseSpans_layout (body : List Tree) (library : Tree) (after : Nat → Option Tree) :
    (layout body library after).map Tree.eraseSpans =
      layout (body.map Tree.eraseSpans) library.eraseSpans
        fun position => (after position).map Tree.eraseSpans := by
  have hdirective : isDirective ∘ Tree.eraseSpans = isDirective := funext isDirective_eraseSpans
  have hitems (items : List Tree) (position : Nat) :
      ((items.zipIdx position).flatMap fun item => item.1 :: (after item.2).toList).map
          Tree.eraseSpans =
        ((items.map Tree.eraseSpans).zipIdx position).flatMap
          fun item => item.1 :: ((after item.2).map Tree.eraseSpans).toList := by
    induction items generalizing position with
    | nil => rfl
    | cons item items ih =>
      simp only [List.zipIdx_cons, List.flatMap_cons, List.map_append, List.map_cons, ih]
      cases after position <;> rfl
  unfold layout
  rw [List.takeWhile_map, List.dropWhile_map, hdirective, List.length_map, List.map_append,
    List.map_cons, hitems]

theorem prologueLength_map_eraseSpans (body : List Tree) :
    prologueLength (body.map Tree.eraseSpans) = prologueLength body := by
  rw [← Tree.relabel_erasing, prologueLength_map_relabel]

@[simp] theorem metadataAfter_eraseSpans :
    m.eraseSpans.metadataAfter options = m.metadataAfter options := by
  funext position
  simp [metadataAfter]

/-- Attaching to a module without positions gives the erased body. -/
theorem attach_body_eraseSpans :
    (m.eraseSpans.attach options).2.eraseSpans = (m.attach options).2.eraseSpans := by
  have hbody : (m.eraseSpans.attach options).2.body.map Tree.eraseSpans =
      (m.attach options).2.body.map Tree.eraseSpans := by
    rw [attach_body_eq_layout, attach_body_eq_layout, map_eraseSpans_layout, map_eraseSpans_layout,
      report_eraseSpans, metadataAfter_eraseSpans, eraseSpans, List.map_map]
    congr 1
    exact List.map_congr_left fun t _ => Tree.eraseSpans_eraseSpans t
  change Module.mk m.span.eraseSpans.eraseSpans _ m.interpreter.eraseSpans.eraseSpans =
    Module.mk m.span.eraseSpans _ m.interpreter.eraseSpans
  rw [hbody, Tree.eraseSpans_eraseSpans, Tree.eraseSpans_eraseSpans]

theorem toTree_injective {m n : Module} (h : m.toTree = n.toTree) : m = n := by
  cases m
  cases n
  simpa [toTree] using h

/-- Two modules that differ in source positions only are treated alike.  The reports are equal.  The
library and one choice of metadata statements, positions included, laid out over either body give
what attaching makes of it, behind equally many directives.  And the new modules differ in source
positions only. -/
theorem attach_eq_of_eraseSpans_eq {m n : Module}
    (h : m.toTree.eraseSpans = n.toTree.eraseSpans) (options : Options) :
    (m.attach options).1 = (n.attach options).1 ∧
    prologueLength m.body = prologueLength n.body ∧
    (∃ after,
      (m.attach options).2.body = layout m.body (library (m.attach options).1.library) after ∧
      (n.attach options).2.body = layout n.body (library (m.attach options).1.library) after) ∧
    (m.attach options).2.toTree.eraseSpans = (n.attach options).2.toTree.eraseSpans := by
  have herased : m.eraseSpans = n.eraseSpans := by
    apply toTree_injective
    rw [toTree_eraseSpans, toTree_eraseSpans, h]
  have hreport : (m.attach options).1 = (n.attach options).1 := by
    rw [← report_eraseSpans, herased, report_eraseSpans]
  have hafter : m.metadataAfter options = n.metadataAfter options := by
    rw [← metadataAfter_eraseSpans, herased, metadataAfter_eraseSpans]
  refine ⟨hreport, ?_, ?_, ?_⟩
  · have hbody : m.body.map Tree.eraseSpans = n.body.map Tree.eraseSpans :=
      congrArg Module.body herased
    rw [← prologueLength_map_eraseSpans, hbody, prologueLength_map_eraseSpans]
  · refine ⟨m.metadataAfter options, attach_body_eq_layout m options, ?_⟩
    rw [hreport, hafter]
    exact attach_body_eq_layout n options
  · rw [← toTree_eraseSpans, ← toTree_eraseSpans, ← attach_body_eraseSpans m, herased,
      attach_body_eraseSpans]

/-- A tree that stands further down in the source text. -/
def movedDown (offset : Nat) : Tree → Tree :=
  Tree.mapAtoms fun
    | .span s => .span ⟨s.start + offset, s.stop + offset⟩
    | a => a

/-- Moving a component down in the text changes its positions and nothing that is inserted. -/
theorem attach_described_movedDown :
    let moved : Module :=
      { described "Panel" with body := (described "Panel").body.map (movedDown 40) }
    moved ≠ described "Panel" ∧
    moved.toTree.eraseSpans = (described "Panel").toTree.eraseSpans ∧
    (moved.attach {}).1 = ((described "Panel").attach {}).1 ∧
    (moved.attach {}).2.toTree.eraseSpans = ((described "Panel").attach {}).2.toTree.eraseSpans := by
  intro moved
  have herased : moved.toTree.eraseSpans = (described "Panel").toTree.eraseSpans := by
    decide +kernel
  obtain ⟨hreport, _, _, hbody⟩ := attach_eq_of_eraseSpans_eq herased {}
  exact ⟨by decide +kernel, herased, hreport, hbody⟩

end Module

end PropCatalog
