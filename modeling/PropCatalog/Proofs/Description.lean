import Mathlib.Data.List.Forall2
import PropCatalog.Proofs.Identifiers

/-!
# What the report says about the new body

The report is made from the registry, before the statements are built, erased, retargeted and
spliced.  This file shows that it still describes the body that comes out.

A metadata statement keeps its form in all these passes: only the values at its innermost level
change (`Entry.metadata_eq`).  Where it stands was settled with the layout of the body, and what its
values are was settled with the properties of surveyed components; the theorem of this file puts the
three together.
-/

namespace PropCatalog

open Component Metadata

/-! ## Metadata statements under the passes -/

namespace Metadata

/-- A record with every value changed. -/
def mapValues (g : Tree → Tree) (r : Record Tree) : Record Tree := r.map fun p => (p.1, g p.2)

theorem eraseSpans_objectOf (properties : List (String × Tree)) :
    (objectOf properties).eraseSpans = objectOf (mapValues Tree.eraseSpans properties) := by
  simp [objectOf, mapValues, plainName, noSpan, Tree.Atom.eraseSpan, Function.comp_def]

theorem eraseSpans_description (properties : Record Tree) :
    (description properties).eraseSpans = description (mapValues Tree.eraseSpans properties) := by
  simp [description, eraseSpans_objectOf, mapValues, Function.comp_def]

theorem eraseSpans_assignMember (object name : String) (value : Tree) :
    (assignMember object name value).eraseSpans = assignMember object name value.eraseSpans := by
  simp [assignMember, memberOf, reference, plainName, noSpan, noContext, Tree.Atom.eraseSpan]

variable (aliasName library : String)

theorem retarget_objectOf (properties : List (String × Tree)) :
    retarget aliasName library (objectOf properties) =
      objectOf (mapValues (retarget aliasName library) properties) := by
  have hproperty (p : String × Tree) :
      retarget aliasName library (.keyValue (plainName p.1) p.2) =
        .keyValue (plainName p.1) (retarget aliasName library p.2) := by
    rw [retarget_node _ _ (by decide) (by decide)]
    rfl
  unfold objectOf mapValues
  rw [retarget_node _ _ (by decide) (by decide)]
  simp only [List.map_cons, List.map_nil, retarget_list, List.map_map, Function.comp_def, hproperty]
  rfl

theorem retarget_description (properties : Record Tree) :
    retarget aliasName library (description properties) =
      description (mapValues (retarget aliasName library) properties) := by
  simp [description, retarget_objectOf, mapValues, Function.comp_def]

theorem retarget_assignMember (object name : String) (value : Tree) :
    retarget aliasName library (assignMember object name value) =
      assignMember (renamed aliasName library object) name (retarget aliasName library value) := by
  unfold assignMember
  rw [retarget_node _ _ (by decide) (by decide)]
  simp only [List.map_cons, List.map_nil, retarget_assignment]
  rw [memberOf, retargetPlace_node_eq _ _ (by decide)]
  simp only [List.map_cons, List.map_nil, reference, retarget_identifier]
  rfl

end Metadata

/-- The metadata of a component assigns an object of the same form as the one it was built with. -/
theorem Component.Entry.metadata_eq (field aliasName library : String) (e : Entry) :
    e.metadata field aliasName library =
      assignMember (renamed aliasName library e.name) field
        (description (mapValues (fun value => retarget aliasName library value.eraseSpans)
          e.properties)) := by
  rw [Entry.metadata, eraseSpans_assignMember, eraseSpans_description, retarget_assignMember,
    retarget_description]
  simp [mapValues, Function.comp_def]

namespace Component

/-- A component is declared for the last time at one position only. -/
theorem LastDeclared.position_eq {body : List Tree} {name : String} {kind kind' : Kind}
    {position position' : Nat} (h : LastDeclared body name kind position)
    (h' : LastDeclared body name kind' position') : position = position' := by
  have hlater {k k' : Kind} {p p' : Nat} (hp : LastDeclared body name k p)
      (hp' : LastDeclared body name k' p') : ¬ p < p' := by
    intro hlt
    obtain ⟨item, hitem, hdeclared⟩ := Option.bind_eq_some_iff.mp hp'.1
    apply hp.2 p' hlt
    rw [hitem, Option.bind_some]
    exact declaredName?_eq_some_iff.mpr ⟨k', hdeclared⟩
  exact Nat.le_antisymm (Nat.not_lt.mp (hlater h' h)) (Nat.not_lt.mp (hlater h h'))

end Component

namespace Module

variable {m : Module} {options : Options}

/-- After the last declaration of a component stands its metadata, if it has properties. -/
theorem metadataAfter_anchor {e : Entry}
    (he : e ∈ (Survey.ofModule m options).registry.entries) :
    m.metadataAfter options e.anchor =
      if e.hasProperties then
        some (e.metadata options.metadataField (m.attach options).1.alias
          (m.attach options).1.library)
      else none := by
  rw [metadataAfter, Survey.anchoredAt?_anchor he]
  split <;> rfl

/-- Whatever is inserted as metadata belongs to a component with properties. -/
theorem exists_entry_of_metadataAfter {position : Nat} {statement : Tree}
    (h : m.metadataAfter options position = some statement) :
    ∃ e ∈ (Survey.ofModule m options).registry.entries, e.hasProperties = true ∧
      e.anchor = position ∧
      statement = e.metadata options.metadataField (m.attach options).1.alias
        (m.attach options).1.library := by
  obtain ⟨e, hfind, heq⟩ := Option.map_eq_some_iff.mp h
  have hat := List.find?_some hfind
  rw [Bool.and_eq_true, decide_eq_true_eq] at hat
  exact ⟨e, List.mem_of_find?_eq_some hfind, hat.2, hat.1, heq.symm⟩

/-- A statement is the metadata of a reported component.  It assigns
`{ props: { p: { type: T }, ... } }` with the reported properties in the reported order, and each
`T` is the value that the body gives to the property last, without its positions and retargeted. -/
def IsMetadata (body : List Tree) (report : Report) (field : String) (c : ComponentReport)
    (statement : Tree) : Prop :=
  ∃ types,
    statement = assignMember (renamed report.alias report.library c.name) field
      (description (c.properties.zip types)) ∧
    List.Forall₂ (fun property type => ∃ value,
      (writtenFor c.name body).reverse.lookup property = some value ∧
      type = retarget report.alias report.library value.eraseSpans) c.properties types

theorem isMetadata_metadata {e : Entry} (he : e ∈ (Survey.ofModule m options).registry.entries) :
    IsMetadata m.body (m.attach options).1 options.metadataField e.report
      (e.metadata options.metadataField (m.attach options).1.alias
        (m.attach options).1.library) := by
  let retargeted (value : Tree) : Tree :=
    retarget (m.attach options).1.alias (m.attach options).1.library value.eraseSpans
  refine ⟨e.properties.map fun p => retargeted p.2, ?_, ?_⟩
  · rw [Entry.metadata_eq]
    congr 2
    change _ = (e.properties.map Prod.fst).zip _
    rw [List.zip_map', mapValues]
  · change List.Forall₂ _ (e.properties.map Prod.fst) _
    rw [List.forall₂_map_left_iff, List.forall₂_map_right_iff, List.forall₂_same]
    intro p hp
    obtain ⟨value, hvalue, heq⟩ := Survey.exists_written_of_mem_properties he hp
    refine ⟨value, hvalue, ?_⟩
    simp only [retargeted, heq, Tree.eraseSpans_eraseSpans]

variable (m options)

theorem length_attach_body :
    (m.attach options).2.body.length =
      m.body.length + 1 + (m.attach options).1.emittedCount := by
  have hperm := splice_perm m.body (library (m.attach options).1.library)
    (m.lt_length_of_mem_insertions options)
  have hlength : (m.attach options).2.body.length = _ := hperm.length_eq
  rw [map_statement_insertions, List.length_append, List.length_cons, List.length_map,
    ← emittedCount_attach] at hlength
  omega

/-- The report describes the new body.

It lists the components in the order of their first declarations, each with how it was declared last
and with its properties, each once and in the order in which they are first written.  Behind the
directives the new body has the library, and after a later item at most one statement.  A component is
reported as emitted exactly if one such statement stands after its last declaration, and every such
statement is the metadata of a component that is reported as emitted.  So the statements that were
inserted are one more than the components reported as emitted. -/
theorem attach_report_describes :
    let report := (m.attach options).1
    report.components.map ComponentReport.name = (m.body.filterMap declaredName?).eraseDups ∧
    (∀ c ∈ report.components,
      (∃ position, LastDeclared m.body c.name c.kind position) ∧
      c.properties = ((writtenFor c.name m.body).map Prod.fst).eraseDups ∧
      c.properties.Nodup) ∧
    (∃ after : Nat → Option Tree,
      (m.attach options).2.body = layout m.body (library report.library) after ∧
      (∀ c ∈ report.components, c.emitted = true ↔
        ∃! place : Nat × Tree,
          LastDeclared m.body c.name c.kind place.1 ∧ after place.1 = some place.2) ∧
      (∀ position statement, after position = some statement →
        ∃ c ∈ report.components, c.emitted = true ∧
          LastDeclared m.body c.name c.kind position ∧
          IsMetadata m.body report options.metadataField c statement)) ∧
    (m.attach options).2.body.length = m.body.length + (report.emittedCount + 1) := by
  intro report
  refine ⟨?_, ?_, ⟨m.metadataAfter options, attach_body_eq_layout m options, ?_, ?_⟩, ?_⟩
  · have hnames : report.components.map ComponentReport.name =
        (Survey.ofModule m options).registry.names := by
      change ((Survey.ofModule m options).registry.entries.map Entry.report).map _ = _
      rw [List.map_map]
      rfl
    rw [hnames, (Survey.describes_ofModule m options).names_eq, Survey.registered_history]
  · intro c hc
    obtain ⟨e, he, rfl⟩ := List.mem_map.mp hc
    exact ⟨⟨e.anchor, Survey.lastDeclared_of_mem he⟩, Survey.propertyNames_eq he,
      Survey.propertyNames_nodup he⟩
  · intro c hc
    obtain ⟨e, he, rfl⟩ := List.mem_map.mp hc
    have hlast := Survey.lastDeclared_of_mem he
    have hafter := metadataAfter_anchor he
    -- A component has one last declaration, so either way the place is the anchor of the entry.
    constructor
    · intro hemitted
      have hproperties : e.hasProperties = true := hemitted
      rw [if_pos hproperties] at hafter
      refine ⟨(e.anchor, e.metadata options.metadataField report.alias report.library),
        ⟨hlast, hafter⟩, ?_⟩
      rintro ⟨position, statement⟩ ⟨hposition, hstatement⟩
      obtain rfl := hposition.position_eq hlast
      exact congrArg (Prod.mk e.anchor) (Option.some.inj (hstatement.symm.trans hafter))
    · rintro ⟨⟨position, statement⟩, ⟨hposition, hstatement⟩, _⟩
      obtain rfl := hposition.position_eq hlast
      change e.hasProperties = true
      by_contra hnone
      rw [hafter, if_neg hnone] at hstatement
      cases hstatement
  · intro position statement hstatement
    obtain ⟨e, he, hproperties, rfl, rfl⟩ := exists_entry_of_metadataAfter hstatement
    exact ⟨e.report, List.mem_map_of_mem he, hproperties, Survey.lastDeclared_of_mem he,
      isMetadata_metadata he⟩
  · have hlength : (m.attach options).2.body.length = m.body.length + 1 + report.emittedCount :=
      length_attach_body m options
    omega

end Module

end PropCatalog
