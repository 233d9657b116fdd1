import PropCatalog.Proofs.Description
import PropCatalog.Proofs.Histories

/-!
# The local name of the library does not matter

A module may import the validation library under any name.  Renaming every identifier that has this
name to one that the module does not use changes what the module says about identifiers, and nothing
else.  It is a relabeling that keeps every leaf (`Tree.relabel_renaming`).  This file follows it through
a survey, the choice of a fresh name and retargeting.  At the end of the last pass the two names are
gone, and what is inserted is the same.

Names that are no identifiers (members, keys) stay.  The one place where an identifier becomes a name
is a shorthand property, which is its own key, so a collected literal must not have one that is
renamed.
-/

namespace PropCatalog

open Component Metadata

/-! ## Trees -/

namespace Tree

variable (old new : String)

@[simp] theorem rename_leaf (a : Atom) : (Tree.leaf a).rename old new = .leaf a := rfl

theorem rename_node (form : Form) (parts : List Tree) :
    (Tree.node form parts).rename old new =
      .node (form.rename old new) (parts.map (rename old new)) :=
  mapForms_node _ _ _

/-- Renaming keeps every leaf, and of the identifiers it changes those with the old name only. -/
def Relabeling.renaming : Relabeling where
  atom := id
  identifier := renamed old new
  atom_eq_text_iff _ _ := Iff.rfl
  atom_eq_bool_iff _ _ := Iff.rfl

theorem relabel_renaming : relabel (.renaming old new) = rename old new := rfl

theorem eraseSpans_rename (t : Tree) :
    (t.rename old new).eraseSpans = t.eraseSpans.rename old new := by
  induction t using Tree.induction with
  | leaf a => rfl
  | node form parts ih =>
    rw [rename_node, eraseSpans_node, eraseSpans_node, rename_node, List.map_map, List.map_map]
    congr 1
    exact List.map_congr_left ih

theorem identifiers_rename (t : Tree) :
    (t.rename old new).identifiers = t.identifiers.map (renamed old new) := by
  rw [← relabel_renaming, identifiers_relabel]
  rfl

end Tree

/-! ## What is recognised -/

namespace Component

open Tree

variable (old new : String)

/-- An import whose default export has another local name. -/
def Import.rename (i : Import) : Import := ⟨i.source, i.defaultName.map (renamed old new)⟩

/-- A shape after a renaming. -/
def Shape.rename : Shape → Shape
  | .importing i => .importing (i.rename old new)
  | .component kind name => .component kind (renamed old new name)
  | .propTypes name literal => .propTypes (renamed old new name) (literal.rename old new)
  | .other => .other

theorem Shape.relabel_renaming (shape : Shape) :
    shape.relabel (.renaming old new) = shape.rename old new := by
  cases shape with
  | propTypes name literal =>
    rw [Shape.relabel, Tree.relabel_renaming]
    rfl
  | _ => rfl

/-- Renaming an item renames its shape. -/
theorem Shape.ofItem_rename (item : Tree) :
    Shape.ofItem (item.rename old new) = (Shape.ofItem item).rename old new := by
  rw [← Tree.relabel_renaming, Shape.ofItem_relabel, Shape.relabel_renaming]

/-! ## What is collected -/

/-- An element declares the renamed property, unless it is a shorthand that is renamed itself. -/
theorem property?_rename {element : Tree}
    (hshorthand : ∀ parts, element ≠ .node (.identifier old) parts) :
    property? (element.rename old new) =
      (property? element).map fun p => (p.1, p.2.rename old new) := by
  rw [← relabel_renaming]
  refine property?_relabel fun x parts h => if_neg ?_
  rintro rfl
  exact hshorthand parts h

theorem staticLiterals_rename (declaration : Tree) :
    staticLiterals (declaration.rename old new) =
      (staticLiterals declaration).map (rename old new) := by
  rw [← relabel_renaming, staticLiterals_relabel]

theorem elements_rename (literal : Tree) :
    elements (literal.rename old new) = (elements literal).map (rename old new) := by
  rw [← relabel_renaming]
  unfold elements
  split
  · next h =>
    simp only [List.map_eq_cons_iff, relabel_eq_known_iff, List.map_eq_nil_iff] at h
    obtain ⟨_, rfl, _, _, rfl, _, properties, _, rfl, rfl, rfl⟩ := h
    exact parts_relabel _ properties
  · next h =>
    split
    · exact (h _ _ (relabel_node_known ..)).elim
    · rfl

variable {old} in
/-- A literal declares the renamed properties, unless a shorthand of it is renamed. -/
theorem declaredProperties_rename {literal : Tree}
    (hshorthand : ∀ parts, Tree.node (.identifier old) parts ∉ elements literal) :
    declaredProperties (literal.rename old new) =
      mapValues (Tree.rename old new) (declaredProperties literal) := by
  have hwritten : writtenProperties (literal.rename old new) =
      (writtenProperties literal).map fun p => (p.1, p.2.rename old new) := by
    rw [writtenProperties_eq_filterMap, writtenProperties_eq_filterMap, elements_rename,
      List.filterMap_map, List.map_filterMap]
    apply List.filterMap_congr
    intro element helement
    exact property?_rename old new fun parts heq => hshorthand parts (heq ▸ helement)
  rw [declaredProperties_eq_map, declaredProperties_eq_map, hwritten, mapValues, List.map_map,
    List.map_map]
  apply List.map_congr_left
  intro p _
  simp only [Function.comp_apply, eraseSpans_rename]

theorem Record.set_mapValues (g : Tree → Tree) (name : String) (value : Tree) (r : Record Tree) :
    (mapValues g r).set name (g value) = mapValues g (r.set name value) := by
  induction r with
  | nil => rfl
  | cons p rest ih =>
    change Record.set name (g value) ((p.1, g p.2) :: mapValues g rest) = _
    unfold Record.set
    split
    · rfl
    · rw [ih]
      rfl

theorem Record.setAll_mapValues (g : Tree → Tree) (pairs : List (String × Tree))
    (r : Record Tree) : setAll (mapValues g pairs) (mapValues g r) = mapValues g (setAll pairs r) := by
  induction pairs generalizing r with
  | nil => rfl
  | cons p pairs ih =>
    change setAll (mapValues g pairs) ((mapValues g r).set p.1 (g p.2)) =
      mapValues g (setAll pairs (r.set p.1 p.2))
    rw [set_mapValues, ih]

/-- An entry whose values were renamed. -/
def Entry.rename (e : Entry) : Entry :=
  { e with properties := mapValues (Tree.rename old new) e.properties }

/-- The report on an entry does not show values. -/
theorem Entry.report_rename (e : Entry) : (e.rename old new).report = e.report := by
  have hnames : (e.rename old new).propertyNames = e.propertyNames := by
    change (mapValues (Tree.rename old new) e.properties).map Prod.fst = e.properties.map Prod.fst
    rw [mapValues, List.map_map]
    rfl
  have hempty : (e.rename old new).properties.isEmpty = e.properties.isEmpty := List.isEmpty_map
  unfold Entry.report
  rw [hnames, hempty]
  rfl

/-- What is anchored to a position after renaming is what was anchored there, renamed. -/
theorem anchoredAt?_map_rename (entries : List Entry) (position : Nat) :
    anchoredAt? (entries.map (Entry.rename old new)) position =
      (anchoredAt? entries position).map (Entry.rename old new) := by
  unfold anchoredAt?
  rw [List.find?_map]
  congr 2
  funext e
  exact congrArg (e.anchor = position && ·)
    (congrArg ComponentReport.emitted (e.report_rename old new))

variable {old} in
/-- Collecting renamed literals gives a renamed entry. -/
theorem Entry.foldl_collect_rename {literals : List Tree}
    (hshorthand : ∀ literal ∈ literals, ∀ parts,
      Tree.node (.identifier old) parts ∉ elements literal) (e : Entry) :
    (literals.map (Tree.rename old new)).foldl Entry.collect (e.rename old new) =
      (literals.foldl Entry.collect e).rename old new := by
  induction literals generalizing e with
  | nil => rfl
  | cons literal literals ih =>
    obtain ⟨hhead, htail⟩ := List.forall_mem_cons.mp hshorthand
    have hstep : (e.rename old new).collect (literal.rename old new) =
        (e.collect literal).rename old new := by
      unfold Entry.collect
      rw [declaredProperties_rename new hhead]
      exact congrArg (fun properties => { e with properties })
        (Record.setAll_mapValues _ (declaredProperties literal) e.properties)
    rw [List.map_cons, List.foldl_cons, hstep, ih htail, List.foldl_cons]

/-! ## The history of a renamed body -/

/-- An operation after a renaming. -/
def Operation.rename : Operation → Operation
  | .register name kind anchor => .register (renamed old new name) kind anchor
  | .collect name literal => .collect (renamed old new name) (literal.rename old new)

namespace Survey

theorem operations_rename (position : Nat) (item : Tree) :
    operations position (item.rename old new) =
      (operations position item).map (Operation.rename old new) := by
  unfold operations
  rw [Shape.ofItem_rename, staticLiterals_rename]
  cases Shape.ofItem item with
  | importing i => rfl
  | other => rfl
  | propTypes name literal => rfl
  | component kind name =>
    cases kind with
    | functionDeclaration => rfl
    | functionValue => rfl
    | classDeclaration =>
      simp only [Shape.rename, List.map_cons, List.map_map]
      rfl

theorem history_map_rename (position : Nat) (items : List Tree) :
    history position (items.map (Tree.rename old new)) =
      (history position items).map (Operation.rename old new) := by
  induction items generalizing position with
  | nil => rfl
  | cons item items ih =>
    rw [List.map_cons, history, ih, operations_rename, history, List.map_append]

end Survey

section

variable {old new}

/-- A name that is neither the old nor the new one is not affected. -/
theorem renamed_eq_iff {name x : String} (hold : name ≠ old) (hnew : name ≠ new) :
    renamed old new x = name ↔ x = name := by
  unfold renamed
  split
  · next hx => exact ⟨fun h => absurd h.symm hnew, fun h => absurd (h.symm.trans hx) hold⟩
  · exact Iff.rfl

theorem Operation.registered?_rename (op : Operation) :
    (op.rename old new).registered? = op.registered?.map (renamed old new) := by
  cases op <;> rfl

theorem Operation.registration?_rename {name : String} (hold : name ≠ old) (hnew : name ≠ new)
    (op : Operation) : (op.rename old new).registration? name = op.registration? name := by
  cases op with
  | collect n literal => rfl
  | register n kind anchor =>
    simp only [Operation.rename, registration?, renamed_eq_iff hold hnew]

theorem Operation.collected?_rename {name : String} (hold : name ≠ old) (hnew : name ≠ new)
    (op : Operation) :
    (op.rename old new).collected? name = (op.collected? name).map (Tree.rename old new) := by
  cases op with
  | register n kind anchor => rfl
  | collect n literal =>
    simp only [Operation.rename, collected?, renamed_eq_iff hold hnew]
    split <;> rfl

theorem Registry.literalsSince_map_rename {name : String} (hold : name ≠ old) (hnew : name ≠ new)
    (history : List Operation) :
    literalsSince name (history.map (Operation.rename old new)) =
      (literalsSince name history).map (Tree.rename old new) := by
  have hregistered : (fun op : Operation => decide (op.registered? ≠ some name)) ∘
      Operation.rename old new = fun op => decide (op.registered? ≠ some name) := by
    funext op
    cases op with
    | collect n literal => rfl
    | register n kind anchor =>
      simp [Operation.rename, Operation.registered?, renamed_eq_iff hold hnew]
  unfold literalsSince
  rw [List.dropWhile_map, hregistered, List.filterMap_map, List.map_filterMap]
  congr 1
  funext op
  exact Operation.collected?_rename hold hnew op

variable (new) in
theorem Registry.entryOf_map_rename {name : String} (hold : name ≠ old) (hnew : name ≠ new)
    {history : List Operation}
    (hshorthand : ∀ literal ∈ literalsSince name history, ∀ parts,
      Tree.node (.identifier old) parts ∉ elements literal) :
    entryOf (history.map (Operation.rename old new)) name =
      (entryOf history name).rename old new := by
  have hregistration : (history.map (Operation.rename old new)).filterMap
      (Operation.registration? name) = history.filterMap (Operation.registration? name) := by
    rw [List.filterMap_map]
    congr 1
    funext op
    exact Operation.registration?_rename hold hnew op
  unfold entryOf
  rw [hregistration, literalsSince_map_rename hold hnew]
  exact Entry.foldl_collect_rename new hshorthand ⟨name, _, _, []⟩

/-- If no component has the old or the new name, a renamed history leaves the same registry with
renamed values. -/
theorem Registry.Describes.entries_rename {history : List Operation} {r r' : Registry}
    (h : Describes history r) (h' : Describes (history.map (Operation.rename old new)) r')
    (hold : old ∉ r.names) (hnew : new ∉ r.names)
    (hshorthand : ∀ name ∈ r.names, ∀ literal ∈ literalsSince name history, ∀ parts,
      Tree.node (.identifier old) parts ∉ elements literal) :
    r'.entries = r.entries.map (Entry.rename old new) := by
  have hregistered : (history.map (Operation.rename old new)).filterMap Operation.registered? =
      history.filterMap Operation.registered? := by
    have hmap : (fun op : Operation => (op.rename old new).registered?) =
        fun op => op.registered?.map (renamed old new) := funext Operation.registered?_rename
    rw [List.filterMap_map, Function.comp_def, hmap, ← List.map_filterMap]
    conv => rhs; rw [← List.map_id (history.filterMap Operation.registered?)]
    apply List.map_congr_left
    intro name hname
    have hne : name ≠ old := by
      rintro rfl
      exact hold (h.mem_names_iff.mpr hname)
    exact if_neg hne
  have hnames : r'.names = r.names := by
    rw [h'.names_eq, hregistered, h.names_eq]
  rw [h'.entries_eq, hnames, h.entries_eq, List.map_map]
  apply List.map_congr_left
  intro name hname
  have hname_old : name ≠ old := by
    rintro rfl
    exact hold hname
  have hname_new : name ≠ new := by
    rintro rfl
    exact hnew hname
  exact entryOf_map_rename new hname_old hname_new (hshorthand name hname)

end

end Component

namespace Metadata

open Tree

variable {old new : String}

/-! ## The fresh name -/

/-- Renaming something that is no candidate to something that is none keeps the fresh name. -/
theorem freshNameAmong_map_renamed {used : List String} {base : String}
    (hold : ∀ i, candidate (baseName base) (i + 1) ≠ old)
    (hnew : ∀ i, candidate (baseName base) (i + 1) ≠ new) :
    freshNameAmong (used.map (renamed old new)) base = freshNameAmong used base := by
  have hmem (i : Nat) : candidate (baseName base) (i + 1) ∈ used.map (renamed old new) ↔
      candidate (baseName base) (i + 1) ∈ used := by
    simp [List.mem_map, renamed_eq_iff (hold i) (hnew i)]
  obtain ⟨i, _, hname, hunused, hbefore⟩ := freshNameAmong_spec used base
  obtain ⟨j, _, hname', hunused', hbefore'⟩ :=
    freshNameAmong_spec (used.map (renamed old new)) base
  rw [hmem] at hunused'
  have hij : i = j := by
    rcases Nat.lt_trichotomy i j with hlt | heq | hgt
    · exact absurd ((hmem i).mp (hbefore' i hlt)) hunused
    · exact heq
    · exact absurd (hbefore j hgt) hunused'
  rw [hname, hname', hij]

/-! ## Retargeting -/

/-- Renaming before retargeting the new name is retargeting the old one, where the new name was not
used. -/
theorem retargetPlace_rename (library : String) {t : Tree} (hnew : new ∉ t.identifiers) :
    retargetPlace new library (t.rename old new) = retargetPlace old library t := by
  induction t using Tree.induction with
  | leaf a => rfl
  | node form parts ih =>
    have hform : (form.rename old new).rename new library = form.rename old library := by
      cases form with
      | identifier x =>
        have hx : x ≠ new := by
          rintro rfl
          exact hnew (by simp [Form.identifier?])
        simp only [Form.rename]
        congr 1
        split <;> simp_all
      | _ => rfl
    have hplaces : settleParts library (form.rename old new) = settleParts library form := by
      cases form <;> rfl
    rw [rename_node, retargetPlace_node, retargetPlace_node, hform, hplaces, List.map_map]
    congr 2
    apply List.map_congr_left
    intro part hpart
    exact ih part hpart fun hmem => hnew (mem_identifiers_of_mem_parts hpart hmem)

theorem retarget_rename (library : String) {t : Tree} (hnew : new ∉ t.identifiers) :
    retarget new library (t.rename old new) = retarget old library t := by
  rw [retarget, retargetPlace_rename library hnew, retarget]

/-- The metadata of a renamed entry, retargeted from the new name, is that of the entry. -/
theorem metadata_rename (field library : String) {e : Entry} (hold : e.name ≠ old)
    (hname : e.name ≠ new) (hvalues : ∀ p ∈ e.properties, new ∉ p.2.identifiers) :
    (e.rename old new).metadata field new library = e.metadata field old library := by
  rw [Entry.metadata_eq, Entry.metadata_eq]
  have htarget : renamed new library (e.rename old new).name = renamed old library e.name := by
    change renamed new library e.name = _
    rw [renamed, if_neg hname, renamed, if_neg hold]
  rw [htarget]
  congr 2
  change mapValues _ (mapValues (Tree.rename old new) e.properties) = _
  unfold mapValues
  rw [List.map_map]
  apply List.map_congr_left
  intro p hp
  have hfresh : new ∉ p.2.eraseSpans.identifiers := by
    rw [identifiers_eraseSpans]
    exact hvalues p hp
  simp only [Function.comp_apply, eraseSpans_rename, retarget_rename library hfresh]

end Metadata

namespace Module

variable (old new : String)

/-- A module after every identifier `old` became `new`. -/
def rename (m : Module) : Module := { m with body := m.body.map (Tree.rename old new) }

theorem identifiers_rename (m : Module) :
    (m.rename old new).identifiers = m.identifiers.map (renamed old new) := by
  unfold identifiers rename
  rw [List.flatMap_map, List.map_flatMap]
  simp only [Tree.identifiers_rename]

theorem prologueLength_rename (m : Module) :
    prologueLength (m.rename old new).body = prologueLength m.body := by
  change prologueLength (m.body.map (Tree.rename old new)) = _
  rw [← Tree.relabel_renaming, prologueLength_map_relabel]

/-- An item gives the library the renamed local name. -/
theorem libraryName?_rename (librarySource : String) (item : Tree) :
    libraryName? librarySource (item.rename old new) =
      (libraryName? librarySource item).map (renamed old new) := by
  unfold libraryName?
  rw [Shape.ofItem_rename]
  cases Shape.ofItem item with
  | importing i =>
    simp only [Shape.rename, Import.rename]
    split <;> rfl
  | _ => rfl

variable {old new} {m : Module} {options : Options}

/-- The alias of a module that imports the library is renamed with the identifiers. -/
theorem alias_rename (halias : (Survey.ofModule m options).alias = old)
    (himported : ∃ item ∈ m.body, libraryName? options.librarySource item = some old) :
    (Survey.ofModule (m.rename old new) options).alias = new := by
  have hgiven : (m.rename old new).body.filterMap (libraryName? options.librarySource) =
      (m.body.filterMap (libraryName? options.librarySource)).map (renamed old new) := by
    change (m.body.map (Tree.rename old new)).filterMap _ = _
    rw [List.filterMap_map, List.map_filterMap]
    congr 1
    funext item
    exact libraryName?_rename old new options.librarySource item
  rw [Survey.ofModule, Survey.observeAll_alias] at halias
  rw [Survey.ofModule, Survey.observeAll_alias, hgiven, List.getLast?_map]
  cases hlast : (m.body.filterMap (libraryName? options.librarySource)).getLast? with
  | none =>
    -- Some import gives the library a name, so there is a last one.
    obtain ⟨item, hitem, hname⟩ := himported
    have hmem : old ∈ m.body.filterMap (libraryName? options.librarySource) :=
      List.mem_filterMap.mpr ⟨item, hitem, hname⟩
    rw [List.getLast?_eq_none_iff.mp hlast] at hmem
    cases hmem
  | some name =>
    rw [hlast, Option.getD_some] at halias
    rw [halias]
    exact if_pos rfl

theorem entries_rename (hunused : new ∉ m.identifiers)
    (hcomponent : old ∉ (Survey.ofModule m options).registry.names)
    (hshorthand : ∀ name ∈ (Survey.ofModule m options).registry.names,
      ∀ literal ∈ literalsFor name m.body, ∀ parts,
        Tree.node (.identifier old) parts ∉ elements literal) :
    (Survey.ofModule (m.rename old new) options).registry.entries =
      (Survey.ofModule m options).registry.entries.map (Entry.rename old new) := by
  have hdescribes' := Survey.describes_ofModule (m.rename old new) options
  change Registry.Describes (Survey.history 0 (m.body.map (Tree.rename old new))) _ at hdescribes'
  rw [Survey.history_map_rename] at hdescribes'
  refine (Survey.describes_ofModule m options).entries_rename hdescribes' hcomponent ?_ ?_
  · intro hmem
    obtain ⟨e, he, rfl⟩ := Registry.mem_names.mp hmem
    exact hunused (Survey.name_mem_identifiers he)
  · intro name hname literal hliteral
    rw [Survey.literalsSince_history] at hliteral
    exact hshorthand name hname literal hliteral

/-- Renaming leaves the fresh name as it is if neither name is a candidate for it. -/
theorem freshName_rename (m : Module) {base : String}
    (hold : ∀ i, candidate (baseName base) (i + 1) ≠ old)
    (hnew : ∀ i, candidate (baseName base) (i + 1) ≠ new) :
    freshName (m.rename old new) base = freshName m base := by
  rw [freshName, identifiers_rename, freshNameAmong_map_renamed hold hnew]
  rfl

/-- If renaming changes the alias and the entries and nothing else that the metadata is made from,
the same metadata is inserted at the same positions. -/
theorem metadataAfter_rename (halias : (Survey.ofModule m options).alias = old)
    (halias' : (Survey.ofModule (m.rename old new) options).alias = new)
    (hentries : (Survey.ofModule (m.rename old new) options).registry.entries =
      (Survey.ofModule m options).registry.entries.map (Entry.rename old new))
    (hlibrary : freshName (m.rename old new) options.libraryBaseName =
      freshName m options.libraryBaseName)
    (hunused : new ∉ m.identifiers)
    (hcomponent : old ∉ (Survey.ofModule m options).registry.names) :
    (m.rename old new).metadataAfter options = m.metadataAfter options := by
  funext position
  unfold metadataAfter
  rw [hlibrary, halias', halias, hentries, anchoredAt?_map_rename]
  cases hfind : anchoredAt? (Survey.ofModule m options).registry.entries position with
  | none => rfl
  | some e =>
    have he := List.mem_of_find?_eq_some hfind
    have hname : e.name ∈ (Survey.ofModule m options).registry.names :=
      Registry.mem_names.mpr ⟨e, he, rfl⟩
    refine congrArg some (metadata_rename _ _ ?_ ?_ ?_)
    · exact fun heq => hcomponent (heq ▸ hname)
    · exact fun heq => hunused (heq ▸ Survey.name_mem_identifiers he)
    · exact fun p hp hmem => hunused (Survey.identifiers_value_subset he hp hmem)

/-- The local name of the library does not matter.  Take a module whose alias was given by an import
of the library, and rename the alias to a name that no identifier of the module has.  If no component
has the name of the alias, no literal collected for a component has it as a shorthand property, and
neither of the two names is a candidate for the fresh name, then attaching to the renamed module
reports the new alias, the same library and the same components, and lays the same library and the
same metadata statements out over the renamed body, at the same positions. -/
theorem attach_rename (halias : (Survey.ofModule m options).alias = old)
    (himported : ∃ item ∈ m.body, libraryName? options.librarySource item = some old)
    (hunused : new ∉ m.identifiers)
    (hcomponent : old ∉ (Survey.ofModule m options).registry.names)
    (hshorthand : ∀ name ∈ (Survey.ofModule m options).registry.names,
      ∀ literal ∈ literalsFor name m.body, ∀ parts,
        Tree.node (.identifier old) parts ∉ elements literal)
    (hold : ∀ i, candidate (baseName options.libraryBaseName) (i + 1) ≠ old)
    (hnew : ∀ i, candidate (baseName options.libraryBaseName) (i + 1) ≠ new) :
    let report := (m.attach options).1
    ((m.rename old new).attach options).1 = ⟨report.library, new, report.components⟩ ∧
    prologueLength (m.rename old new).body = prologueLength m.body ∧
    ∃ after,
      (m.attach options).2.body = layout m.body (library report.library) after ∧
      ((m.rename old new).attach options).2.body =
        layout (m.rename old new).body (library report.library) after := by
  intro report
  have hentries : (Survey.ofModule (m.rename old new) options).registry.entries = _ :=
    entries_rename hunused hcomponent hshorthand
  have halias' : (Survey.ofModule (m.rename old new) options).alias = new :=
    alias_rename halias himported
  have hlibrary : freshName (m.rename old new) options.libraryBaseName = report.library :=
    freshName_rename m hold hnew
  have hreport : ((m.rename old new).attach options).1 =
      ⟨report.library, new, report.components⟩ := by
    change Report.mk (freshName (m.rename old new) options.libraryBaseName)
      (Survey.ofModule (m.rename old new) options).alias
      ((Survey.ofModule (m.rename old new) options).registry.entries.map Entry.report) = _
    rw [hlibrary, halias', hentries, List.map_map]
    congr 1
    exact List.map_congr_left fun e _ => e.report_rename old new
  have hafter : (m.rename old new).metadataAfter options = m.metadataAfter options :=
    metadataAfter_rename halias halias' hentries hlibrary hunused hcomponent
  refine ⟨hreport, prologueLength_rename old new m, m.metadataAfter options,
    attach_body_eq_layout m options, ?_⟩
  rw [attach_body_eq_layout, hreport, hafter]

/-- `import name from 'prop-types';` and `function Panel() {}` followed by
`Panel.propTypes = { a: name.any.isRequired };` -/
def importing (name : String) : Module :=
  { described "Panel" with
    body :=
      .node (.known .importDeclaration)
        [noSpan, .list [.node (.known .importDefault) [noSpan, reference name]],
         stringOf "prop-types", .bool false, .null, .text "evaluation"] ::
      (described "Panel").body.take 1 ++
      [assignMember "Panel" propTypesField
        (objectOf [("a", memberOf (memberOf (reference name) "any") requiredField)])] }

/-- Importing the library as `Types` instead of `T` changes the reported alias and nothing that is
inserted. -/
theorem attach_rename_importing :
    (importing "T").rename "T" "Types" = importing "Types" ∧
    ((importing "Types").attach {}).1 =
      ⟨"_fakePropTypes", "Types", [⟨"Panel", .functionDeclaration, ["a"], true⟩]⟩ ∧
    ∃ after,
      ((importing "T").attach {}).2.body =
        layout (importing "T").body (library "_fakePropTypes") after ∧
      ((importing "Types").attach {}).2.body =
        layout (importing "Types").body (library "_fakePropTypes") after := by
  have hrenamed : (importing "T").rename "T" "Types" = importing "Types" := by decide +kernel
  have hnames : (Survey.ofModule (importing "T") {}).registry.names = ["Panel"] := by
    decide +kernel
  have hliterals : literalsFor "Panel" (importing "T").body =
      [objectOf [("a", memberOf (memberOf (reference "T") "any") requiredField)]] := by
    decide +kernel
  have hcandidate (name : String) (hfront : name.toList.head? ≠ some '_') (i : Nat) :
      candidate (baseName ({} : Options).libraryBaseName) (i + 1) ≠ name := by
    rintro rfl
    exact hfront (front_candidate _ _)
  have hattach := @attach_rename "T" "Types" (importing "T") {} (by decide +kernel)
    (by decide +kernel) (by decide +kernel) (by rw [hnames]; decide)
    (by
      intro name hname literal hliteral parts hmem
      rw [hnames, List.mem_singleton] at hname
      rw [hname, hliterals, List.mem_singleton] at hliteral
      rw [hliteral] at hmem
      simp [objectOf, elements, Tree.parts] at hmem)
    (hcandidate "T" (by decide)) (hcandidate "Types" (by decide))
  rw [hrenamed] at hattach
  obtain ⟨hreport, _, hbody⟩ := hattach
  have hfirst : ((importing "T").attach {}).1 =
      ⟨"_fakePropTypes", "T", [⟨"Panel", .functionDeclaration, ["a"], true⟩]⟩ := by
    decide +kernel
  rw [hfirst] at hreport hbody
  exact ⟨hrenamed, hreport, hbody⟩

end Module

end PropCatalog
