import PropCatalog.Metadata.Attach
import PropCatalog.Proofs.FreshName
import PropCatalog.Proofs.Retarget
import PropCatalog.Proofs.Splice
import PropCatalog.Proofs.Survey

/-!
# The module after metadata was attached

The first part says what the new body looks like: the directives, the library, and then every other
item, followed by the metadata of the component that is declared there for the last time
(`Module.layout`).  That no statement is lost on the way rests on three facts about anchors, which
come from the survey: they lie in the body, behind the directives, and no two are equal.

The second part reads the assignments that were inserted.  The metadata statement is retargeted as
a whole, its left side included, so a component that is named like the alias does not receive its
metadata: the library does.
-/

namespace PropCatalog

open Component Metadata

namespace Component

/-! ## Metadata of entries -/

/-- Whether a component declares properties. -/
def Entry.hasProperties (e : Entry) : Bool := !e.properties.isEmpty

/-- The metadata statement of a component as it is inserted. -/
def Entry.metadata (field aliasName library : String) (e : Entry) : Tree :=
  retarget aliasName library (assignMember e.name field (description e.properties)).eraseSpans

/-- The component with properties that is anchored to a position. -/
def anchoredAt? (entries : List Entry) (position : Nat) : Option Entry :=
  entries.find? fun e => e.anchor = position && e.hasProperties

theorem Entry.insertion?_eq (field aliasName library : String) (e : Entry) :
    e.insertion? field aliasName library =
      if e.hasProperties then some ⟨e.anchor, e.metadata field aliasName library⟩ else none := by
  unfold Entry.insertion? statement? Entry.hasProperties
  cases e.properties.isEmpty <;> rfl

/-- The insertions are the metadata of the components with properties. -/
theorem filterMap_insertion? (field aliasName library : String) (entries : List Entry) :
    (entries.filterMap fun e => e.insertion? field aliasName library) =
      (entries.filter Entry.hasProperties).map fun e =>
        ⟨e.anchor, e.metadata field aliasName library⟩ := by
  induction entries with
  | nil => rfl
  | cons e entries ih =>
    rw [List.filterMap_cons, ih, Entry.insertion?_eq]
    cases hproperties : e.hasProperties <;> simp [hproperties]

/-- If no two anchors are equal, at most one statement is anchored to a position. -/
theorem statementsAt_filterMap_insertion? (field aliasName library : String) {entries : List Entry}
    (hnodup : (entries.map Entry.anchor).Nodup) (position : Nat) :
    statementsAt (entries.filterMap fun e => e.insertion? field aliasName library) position =
      ((anchoredAt? entries position).map (Entry.metadata field aliasName library)).toList := by
  induction entries with
  | nil => rfl
  | cons e entries ih =>
    obtain ⟨hfresh, hrest⟩ := List.nodup_cons.mp hnodup
    have ih := ih hrest
    rw [filterMap_insertion?] at ih ⊢
    unfold statementsAt anchoredAt? at ih ⊢
    by_cases hhere : e.anchor = position ∧ e.hasProperties = true
    · -- The anchor of this entry is used by no later one.
      have hnone : (entries.filter Entry.hasProperties).filter (fun e' => e'.anchor = position)
          = [] := by
        rw [List.filter_eq_nil_iff]
        intro e' he' heq
        rw [decide_eq_true_eq] at heq
        apply hfresh
        rw [hhere.1, ← heq]
        exact List.mem_map_of_mem (List.mem_filter.mp he').1
      simp [hhere.1, hhere.2, List.filter_map, Function.comp_def, hnone]
    · by_cases hproperties : e.hasProperties = true
      · have hanchor : e.anchor ≠ position := fun h => hhere ⟨h, hproperties⟩
        simpa [hproperties, hanchor] using ih
      · simpa [hproperties] using ih

/-! ## Anchors and the prologue -/

/-- A directive declares no component. -/
theorem declaration?_eq_none_of_isDirective {item : Tree} (h : isDirective item = true) :
    declaration? item = none := by
  unfold isDirective at h
  split at h
  · rfl
  · simp at h

/-- No component is anchored inside the prologue. -/
theorem Survey.prologueLength_le_anchor {m : Module} {options : Options} {e : Entry}
    (he : e ∈ (ofModule m options).registry.entries) : prologueLength m.body ≤ e.anchor := by
  obtain ⟨item, hitem, hdeclared⟩ := Option.bind_eq_some_iff.mp (lastDeclared_of_mem he).1
  refine prologueLength_le_of_not_isDirective hitem ?_
  cases hdirective : isDirective item with
  | false => rfl
  | true =>
    rw [declaration?_eq_none_of_isDirective hdirective] at hdeclared
    cases hdeclared

/-- What is found at the anchor of an entry is the entry, because anchors are distinct. -/
theorem Survey.anchoredAt?_anchor {m : Module} {options : Options} {e : Entry}
    (he : e ∈ (ofModule m options).registry.entries) :
    anchoredAt? (ofModule m options).registry.entries e.anchor =
      if e.hasProperties then some e else none := by
  cases hfind : anchoredAt? (ofModule m options).registry.entries e.anchor with
  | none =>
    have hnone := List.find?_eq_none.mp hfind e he
    rw [if_neg (by simpa using hnone)]
  | some e' =>
    have hat := List.find?_some hfind
    rw [Bool.and_eq_true, decide_eq_true_eq] at hat
    have hsame : e' = e := eq_of_anchor_eq (List.mem_of_find?_eq_some hfind) he hat.1
    rw [hsame] at hat ⊢
    rw [if_pos hat.2]

end Component

namespace Module

/-! ## The new body -/

/-- A body with the library after its directives, and after each later item what is given for its
position. -/
def layout (body : List Tree) (library : Tree) (after : Nat → Option Tree) : List Tree :=
  body.takeWhile isDirective ++ library ::
    ((body.dropWhile isDirective).zipIdx (body.takeWhile isDirective).length).flatMap
      fun item => item.1 :: (after item.2).toList

/-- A layout keeps the items of the body in their order. -/
theorem sublist_layout (body : List Tree) (library : Tree) (after : Nat → Option Tree) :
    body.Sublist (layout body library after) := by
  have hitems (items : List Tree) (position : Nat) :
      items.Sublist ((items.zipIdx position).flatMap
        fun item => item.1 :: (after item.2).toList) := by
    induction items generalizing position with
    | nil => exact List.Sublist.refl _
    | cons item items ih =>
      rw [List.zipIdx_cons, List.flatMap_cons, List.cons_append]
      exact ((ih (position + 1)).trans (List.sublist_append_right _ _)).cons_cons item
  conv => lhs; rw [← List.takeWhile_append_dropWhile (p := isDirective) (l := body)]
  exact (List.Sublist.refl _).append ((hitems _ _).cons library)

variable (m : Module) (options : Options)

/-- The insertions that attaching makes. -/
def insertions : List Insertion :=
  (Survey.ofModule m options).registry.entries.filterMap fun e =>
    e.insertion? options.metadataField (Survey.ofModule m options).alias
      (freshName m options.libraryBaseName)

theorem attach_body :
    (m.attach options).2.body =
      splice m.body (library (freshName m options.libraryBaseName)) (m.insertions options) := rfl

variable {m options}

/-- An insertion has the anchor of a component. -/
theorem exists_entry_of_mem_insertions {i : Insertion} (hi : i ∈ m.insertions options) :
    ∃ e ∈ (Survey.ofModule m options).registry.entries, i.anchor = e.anchor := by
  rw [insertions, filterMap_insertion?] at hi
  obtain ⟨e, he, rfl⟩ := List.mem_map.mp hi
  exact ⟨e, (List.mem_filter.mp he).1, rfl⟩

variable (m options)

theorem prologueLength_le_of_mem_insertions :
    ∀ i ∈ m.insertions options, prologueLength m.body ≤ i.anchor := by
  intro i hi
  obtain ⟨e, he, hanchor⟩ := exists_entry_of_mem_insertions hi
  rw [hanchor]
  exact Survey.prologueLength_le_anchor he

theorem lt_length_of_mem_insertions :
    ∀ i ∈ m.insertions options, i.anchor < m.body.length := by
  intro i hi
  obtain ⟨e, he, hanchor⟩ := exists_entry_of_mem_insertions hi
  rw [hanchor]
  exact Survey.anchor_lt_of_mem he

theorem map_statement_insertions :
    (m.insertions options).map Insertion.statement =
      ((Survey.ofModule m options).registry.entries.filter Entry.hasProperties).map
        (Entry.metadata options.metadataField (Survey.ofModule m options).alias
          (freshName m options.libraryBaseName)) := by
  rw [insertions, filterMap_insertion?, List.map_map]
  rfl

theorem statementsAt_insertions (position : Nat) :
    statementsAt (m.insertions options) position =
      ((anchoredAt? (Survey.ofModule m options).registry.entries position).map
        (Entry.metadata options.metadataField (Survey.ofModule m options).alias
          (freshName m options.libraryBaseName))).toList :=
  statementsAt_filterMap_insertion? _ _ _ (Survey.anchors_nodup m options) position

/-- The metadata statement that is inserted after the item at a position. -/
def metadataAfter (position : Nat) : Option Tree :=
  (anchoredAt? (Survey.ofModule m options).registry.entries position).map
    (Entry.metadata options.metadataField (Survey.ofModule m options).alias
      (freshName m options.libraryBaseName))

theorem attach_body_eq_layout :
    (m.attach options).2.body =
      layout m.body (library (m.attach options).1.library) (m.metadataAfter options) := by
  rw [attach_body, splice_eq_append _ _ (m.prologueLength_le_of_mem_insertions options)]
  simp only [statementsAt_insertions]
  rfl

/-- As many components are reported as emitted as there are components with properties. -/
theorem emittedCount_attach :
    (m.attach options).1.emittedCount =
      ((Survey.ofModule m options).registry.entries.filter Entry.hasProperties).length := by
  change (((Survey.ofModule m options).registry.entries.map Entry.report).filter
    ComponentReport.emitted).length = _
  rw [List.filter_map, List.length_map]
  rfl

/-- What attaching leaves of a module.  Only the body changes, and it becomes the layout in which
the library stands once, after the directives, and every later item is followed by the metadata of
the component with properties anchored to it, if there is one.  So the old items stay in their
order, no metadata statement is lost, and the length grows by one and the number of emitted
components. -/
theorem attach_eq_layout :
    let entries := (Survey.ofModule m options).registry.entries
    let report := (m.attach options).1
    let metadata := Entry.metadata options.metadataField report.alias report.library
    (m.attach options).2 =
      { m with body := layout m.body (library report.library) fun position =>
          (anchoredAt? entries position).map metadata } ∧
    m.body.Sublist (m.attach options).2.body ∧
    (m.attach options).2.body.Perm
      (m.body ++ library report.library ::
        (entries.filter Entry.hasProperties).map metadata) ∧
    (m.attach options).2.body.length = m.body.length + 1 + report.emittedCount := by
  intro entries report metadata
  have hlayout : (m.attach options).2.body =
      layout m.body (library report.library) fun position =>
        (anchoredAt? entries position).map metadata := by
    rw [attach_body, splice_eq_append _ _ (m.prologueLength_le_of_mem_insertions options)]
    simp only [statementsAt_insertions]
    rfl
  have hperm : (m.attach options).2.body.Perm
      (m.body ++ library report.library ::
        (entries.filter Entry.hasProperties).map metadata) := by
    have hsplice := splice_perm m.body (library report.library)
      (m.lt_length_of_mem_insertions options)
    rwa [map_statement_insertions] at hsplice
  refine ⟨?_, ?_, hperm, ?_⟩
  · rw [← hlayout]
    rfl
  · rw [hlayout]
    exact sublist_layout m.body _ _
  · have hlength := hperm.length_eq
    rw [List.length_append, List.length_cons, List.length_map] at hlength
    rw [hlength, emittedCount_attach, Nat.add_assoc, Nat.add_comm 1]

end Module

/-! ## The assignments -/

namespace Component

/-- The identifier and the member on the left side of `x.member = value;`. -/
def assignedMember? : Tree → Option (String × String)
  | .expressionStatement _
      (.assignment _ (.text "=") (.member _ (.node (.identifier x) _) (.node (.name p) _)) _) =>
      some (x, p)
  | _ => none

/-- The left side of a metadata statement is renamed like every other place. -/
theorem assignedMember?_metadata (field aliasName library : String) (e : Entry) :
    assignedMember? (e.metadata field aliasName library) =
      some (if e.name = aliasName then library else e.name, field) := by
  unfold Entry.metadata assignMember
  simp only [Tree.eraseSpans_node, List.map_cons, List.map_nil]
  rw [retarget_node _ _ (by decide) (by decide)]
  simp only [List.map_cons, List.map_nil]
  rw [retarget_assignment, memberOf, Tree.eraseSpans_node]
  simp only [List.map_cons, List.map_nil]
  rw [retargetPlace_node_eq _ _ (by decide)]
  simp only [List.map_cons, List.map_nil]
  rw [reference, plainName, Tree.eraseSpans_node, Tree.eraseSpans_node, retarget_identifier,
    retarget_name]
  rfl

/-- The identifiers of a part are identifiers of the node. -/
theorem mem_identifiers_of_mem_parts {form : Tree.Form} {parts : List Tree} {t : Tree}
    {name : String} (ht : t ∈ parts) (h : name ∈ t.identifiers) :
    name ∈ (Tree.node form parts).identifiers := by
  rw [Tree.identifiers_node]
  exact List.mem_append_right _ (List.mem_flatMap.mpr ⟨t, ht, h⟩)

/-- The name that a declarator binds to a function is an identifier of it. -/
theorem mem_identifiers_of_functionName? {declarators : List Tree} {name : String}
    (h : functionName? declarators = some name) :
    name ∈ declarators.flatMap Tree.identifiers := by
  unfold functionName? at h
  split at h
  · split at h
    · obtain rfl := Option.some.inj h
      simp [Tree.Form.identifier?]
    · simp at h
  · simp at h

/-- The name of a declared component is an identifier of the item that declares it. -/
theorem mem_identifiers_of_declaration? {item : Tree} {kind : Kind} {name : String}
    (h : declaration? item = some (kind, name)) : name ∈ item.identifiers := by
  rw [declaration?_eq_some_iff] at h
  unfold Shape.ofItem at h
  split at h
  · split at h <;> simp at h
  · obtain ⟨rfl, rfl⟩ := Shape.component.inj h
    simp [Tree.Form.identifier?]
  · obtain ⟨rfl, rfl⟩ := Shape.component.inj h
    simp [Tree.Form.identifier?]
  · next declarators =>
    split at h
    · next x hx =>
      obtain ⟨rfl, rfl⟩ := Shape.component.inj h
      have hname := mem_identifiers_of_functionName? hx
      cases declarators with
      | leaf a => simp [Tree.parts] at hname
      | node form parts =>
        obtain ⟨declarator, hdeclarator, hmem⟩ := List.mem_flatMap.mp hname
        have hinner : x ∈ (Tree.node form parts).identifiers :=
          mem_identifiers_of_mem_parts hdeclarator hmem
        exact mem_identifiers_of_mem_parts (by simp) hinner
    · simp at h
  · split at h <;> simp at h
  · simp at h

/-- The name of a component is an identifier of the module. -/
theorem Survey.name_mem_identifiers {m : Module} {options : Options} {e : Entry}
    (he : e ∈ (ofModule m options).registry.entries) : e.name ∈ m.identifiers := by
  obtain ⟨item, hitem, hdeclared⟩ := Option.bind_eq_some_iff.mp (lastDeclared_of_mem he).1
  exact List.mem_flatMap.mpr
    ⟨item, List.mem_of_getElem? hitem, mem_identifiers_of_declaration? hdeclared⟩

end Component

namespace Module

variable {m : Module} {options : Options}

/-- The metadata of an entry with properties stands right after the item it is anchored to. -/
theorem attach_body_at {e : Entry} (he : e ∈ (Survey.ofModule m options).registry.entries)
    (hproperties : e.hasProperties = true) :
    (m.attach options).2.body[shifted (m.insertions options) e.anchor]? = m.body[e.anchor]? ∧
    (m.attach options).2.body[shifted (m.insertions options) e.anchor + 1]? =
      some (e.metadata options.metadataField (m.attach options).1.alias
        (m.attach options).1.library) := by
  have hlt := Survey.anchor_lt_of_mem he
  have hitem : m.body[e.anchor]? = some m.body[e.anchor] := List.getElem?_eq_getElem hlt
  obtain ⟨before, after, hbody, hbefore⟩ :=
    exists_splice_eq_append m.body (library (m.attach options).1.library)
      (m.prologueLength_le_of_mem_insertions options) (Survey.prologueLength_le_anchor he) hitem
  rw [statementsAt_insertions, Survey.anchoredAt?_anchor he, if_pos hproperties] at hbody
  rw [attach_body]
  change (splice m.body (library (m.attach options).1.library) _)[_]? = _ ∧
    (splice m.body (library (m.attach options).1.library) _)[_]? = _
  rw [hbody, ← hbefore, hitem]
  constructor
  · rw [List.getElem?_append_right (Nat.le_refl _), Nat.sub_self]
    rfl
  · rw [List.getElem?_append_right (Nat.le_add_right _ 1), Nat.add_sub_cancel_left]
    rfl

/-- The statement after the last declaration of an emitted component assigns to the metadata field
of the component if its name is not the alias, and to that of the library if it is. -/
theorem attach_assigns {c : ComponentReport} (hc : c ∈ (m.attach options).1.components)
    (hemitted : c.emitted = true) :
    ∃ position statement,
      LastDeclared m.body c.name c.kind position ∧
      (m.attach options).2.body[shifted (m.insertions options) position]? = m.body[position]? ∧
      (m.attach options).2.body[shifted (m.insertions options) position + 1]? = some statement ∧
      assignedMember? statement =
        some (if c.name = (m.attach options).1.alias then (m.attach options).1.library else c.name,
          options.metadataField) ∧
      (assignedMember? statement = some (c.name, options.metadataField) ↔
        c.name ≠ (m.attach options).1.alias) := by
  obtain ⟨e, he, rfl⟩ := List.mem_map.mp hc
  obtain ⟨hitem, hstatement⟩ := attach_body_at he hemitted
  have hassigned := assignedMember?_metadata options.metadataField (m.attach options).1.alias
    (m.attach options).1.library e
  refine ⟨e.anchor, _, Survey.lastDeclared_of_mem he, hitem, hstatement, hassigned, ?_⟩
  rw [hassigned]
  change some (if e.name = _ then _ else e.name, _) = some (e.name, _) ↔ e.name ≠ _
  by_cases hname : e.name = (m.attach options).1.alias
  · -- The library's name is fresh, so it is not the component's.
    have hfresh : (m.attach options).1.library ≠ e.name := by
      intro heq
      have hused := Survey.name_mem_identifiers he
      rw [← heq] at hused
      exact freshName_notMem m options.libraryBaseName hused
    simp [hname, hname ▸ hfresh]
  · simp [hname]

/-- `function name() {}` followed by `name.propTypes = { a: PropTypes.any };` -/
def described (name : String) : Module where
  span := noSpan
  body :=
    [.node (.known .functionDeclaration)
      [reference name, .bool false, .list [], .list [], noSpan, noContext,
       .node (.known .blockStatement) [noSpan, noContext, .list []],
       .bool false, .bool false, .null, .null],
     assignMember name propTypesField (objectOf [("a", memberOf (reference "PropTypes") "any")])]
  interpreter := .null

/-- A component that is not named like the alias receives its metadata. -/
theorem attach_assigns_panel :
    ⟨"Panel", .functionDeclaration, ["a"], true⟩ ∈ ((described "Panel").attach {}).1.components ∧
    ∃ position statement,
      LastDeclared (described "Panel").body "Panel" .functionDeclaration position ∧
      ((described "Panel").attach {}).2.body[
        shifted ((described "Panel").insertions {}) position + 1]? = some statement ∧
      assignedMember? statement = some ("Panel", "__metadata") := by
  have hc : ⟨"Panel", .functionDeclaration, ["a"], true⟩ ∈
      ((described "Panel").attach {}).1.components := by decide +kernel
  obtain ⟨position, statement, hlast, _, hstatement, _, hassigned⟩ := attach_assigns hc rfl
  exact ⟨hc, position, statement, hlast, hstatement, hassigned.mpr (by decide +kernel)⟩

/-- A component that is named like the alias is reported as emitted, but the statement after its
declaration assigns to the library. -/
theorem attach_described_alias :
    ((described "PropTypes").attach {}).1.components =
      [⟨"PropTypes", .functionDeclaration, ["a"], true⟩] ∧
    ((described "PropTypes").attach {}).2.body[1]? = (described "PropTypes").body[0]? ∧
    ((described "PropTypes").attach {}).2.body[2]?.bind assignedMember? =
      some ("_fakePropTypes", "__metadata") := by
  decide +kernel

end Module

end PropCatalog
