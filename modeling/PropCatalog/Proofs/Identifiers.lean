import PropCatalog.Proofs.Properties
import PropCatalog.Tree.Encoding

/-!
# Identifiers of the inserted statements

The name of the library is chosen before anything is inserted, so that no identifier of the module
has it.  The statements that refer to it are made later, by copying, erasing, renaming and adding
calls.  This file follows the identifiers of a value through these passes:

* an identifier of a metadata statement is the library, or comes from the name of the component or
  from a collected value, with the alias replaced by the library (`identifiers_retarget`);
* a binder of a metadata statement comes from a binder of a collected value in the same way
  (`bindings_retarget`).  What is added refers and never binds.

The alias is replaced wherever it is spelled, as a binder too.  A value that binds the alias binds
the library afterwards, and captures the calls to the library that are put under that binder.  No
other binder of a value can do so, and neither can the parameters of the library itself.
-/

namespace PropCatalog

open Component

/-! ## Lists of spellings -/

namespace Tree

/-- A way to list spellings of a tree: each node has some of its own, and those of its parts follow in
the order of a traversal. -/
structure Listing where
  all : Tree → List String
  own : Form → List Tree → List String
  all_leaf : ∀ a, all (.leaf a) = []
  all_node : ∀ form parts, all (.node form parts) = own form parts ++ parts.flatMap all

namespace Listing

variable (l : Listing)

/-- What stands in a tree has only spellings of the tree. -/
theorem all_subset_of_within {s t : Tree} (h : Within s t) : l.all s ⊆ l.all t := by
  induction h with
  | refl => exact List.Subset.refl _
  | part ht _ ih =>
    intro x hx
    rw [l.all_node]
    exact List.mem_append_right _ (List.mem_flatMap.mpr ⟨_, ht, ih hx⟩)

/-- Erasing keeps all spellings if it keeps those of every node. -/
theorem all_eraseSpans
    (hown : ∀ form parts, l.own form (parts.map eraseSpans) = l.own form parts) (t : Tree) :
    l.all t.eraseSpans = l.all t := by
  induction t using Tree.induction with
  | leaf a => rw [eraseSpans_leaf, l.all_leaf, l.all_leaf]
  | node form parts ih =>
    rw [eraseSpans_node, l.all_node, l.all_node, hown, List.flatMap_map, List.flatMap_def,
      List.flatMap_def]
    congr 2
    exact List.map_congr_left ih

end Listing

/-- The identifiers of a tree as a listing. -/
def Listing.ofIdentifiers : Listing where
  all := identifiers
  own form _ := form.identifier?.toList
  all_leaf := identifiers_leaf
  all_node := identifiers_node

/-! ## Binders -/

/-- The spelling of a tree that is an identifier. -/
def spelling? : Tree → Option String
  | .node form _ => form.identifier?
  | .leaf _ => none

/-- The position of the part that a node declares as a name of its own. -/
def Form.namePosition? : Form → Option Nat
  | .known .functionDeclaration | .known .functionExpression | .known .classDeclaration
  | .known .classExpression => some 0
  | .known .importDefault | .known .importNamespace | .known .importNamed
  | .known .assignmentPatternProperty | .known .tsTypeParameter
  | .known .tsInterfaceDeclaration => some 1
  | .known .tsTypeAliasDeclaration => some 2
  | .known .tsEnumDeclaration | .known .tsNamespaceDeclaration | .known .tsImportEquals => some 3
  | .known .tsModuleDeclaration => some 4
  | _ => none

/-- The names that a node itself binds.  An identifier with a place for a type annotation binds its
spelling; a declaration, or a function or a class with a name, binds that name. -/
def ownBindings (form : Form) (parts : List Tree) : List String :=
  match form with
  | .identifier x => if parts.length = identifierFields.length then [x] else []
  | form => (form.namePosition?.bind fun position => parts[position]?.bind spelling?).toList

/-- The names that are bound in a tree, at any depth. -/
def bindings : Tree → List String :=
  para (fun _ => []) fun form parts =>
    ownBindings form (parts.map Prod.fst) ++ parts.flatMap Prod.snd

@[simp] theorem bindings_leaf (a : Atom) : (Tree.leaf a).bindings = [] := rfl

theorem bindings_node (form : Form) (parts : List Tree) :
    (Tree.node form parts).bindings = ownBindings form parts ++ parts.flatMap bindings := by
  rw [bindings, para_node, List.map_map, List.flatMap_map]
  simp [Function.comp_def]

theorem mem_identifiers_of_spelling? {t : Tree} {x : String} (h : t.spelling? = some x) :
    x ∈ t.identifiers := by
  cases t with
  | leaf a => cases h
  | node form parts =>
    rw [identifiers_node]
    exact List.mem_append_left _ (Option.mem_toList.mpr h)

/-- A binder is an identifier. -/
theorem bindings_subset_identifiers (t : Tree) : t.bindings ⊆ t.identifiers := by
  induction t using Tree.induction with
  | leaf a => exact List.nil_subset _
  | node form parts ih =>
    intro x hx
    rw [bindings_node, List.mem_append] at hx
    rcases hx with hown | hpart
    · unfold ownBindings at hown
      split at hown
      · split at hown
        · rw [List.mem_singleton.mp hown]
          exact mem_identifiers_of_spelling? rfl
        · cases hown
      · obtain ⟨position, _, hname⟩ := Option.bind_eq_some_iff.mp (Option.mem_toList.mp hown)
        obtain ⟨part, hpart, hspelling⟩ := Option.bind_eq_some_iff.mp hname
        exact mem_identifiers_of_mem_parts (List.mem_of_getElem? hpart)
          (mem_identifiers_of_spelling? hspelling)
    · obtain ⟨part, hpart, hx⟩ := List.mem_flatMap.mp hpart
      exact mem_identifiers_of_mem_parts hpart (ih part hpart hx)

theorem spelling?_eraseSpans (t : Tree) : t.eraseSpans.spelling? = t.spelling? := by
  cases t with
  | leaf a => rfl
  | node form parts =>
    rw [eraseSpans_node]
    rfl

theorem ownBindings_map_eraseSpans (form : Form) (parts : List Tree) :
    ownBindings form (parts.map eraseSpans) = ownBindings form parts := by
  have hspelling (position : Nat) :
      (parts.map eraseSpans)[position]?.bind spelling? = parts[position]?.bind spelling? := by
    rw [List.getElem?_map]
    cases parts[position]? with
    | none => rfl
    | some part => exact spelling?_eraseSpans part
  unfold ownBindings
  simp only [List.length_map, hspelling]

/-- The binders of a tree as a listing. -/
def Listing.ofBindings : Listing where
  all := bindings
  own := ownBindings
  all_leaf := bindings_leaf
  all_node := bindings_node

/-- Erasing keeps every binder. -/
@[simp] theorem bindings_eraseSpans (t : Tree) : t.eraseSpans.bindings = t.bindings :=
  Listing.ofBindings.all_eraseSpans ownBindings_map_eraseSpans t

end Tree

namespace Metadata

open Tree

variable (aliasName library : String)

/-! ## Listings under retargeting -/

/-- A retargeted part has been settled or, as a place, left as it was. -/
theorem mem_settleParts {form : Form} {parts : List Tree} {t : Tree}
    (h : t ∈ settleParts library form parts) : ∃ part ∈ parts, t = part ∨ t = settle library part := by
  obtain ⟨position, hposition, heq⟩ := List.mem_mapIdx.mp h
  refine ⟨parts[position], List.getElem_mem hposition, ?_⟩
  split at heq
  · exact Or.inl heq.symm
  · exact Or.inr heq.symm

theorem unparen_within_member (span validator property : Tree) :
    Within validator.unparen (.member span validator property) :=
  .part (t := validator) (by simp) (unparen_within validator)

section Listing

variable {aliasName library} (l : Listing) (added : List String)

/-- Settling adds what a call to the library adds. -/
theorem all_settle_subset
    (hcall : ∀ validator, l.all (requiredCall library validator) = added ++ l.all validator)
    (t : Tree) : l.all (settle library t) ⊆ added ++ l.all t := by
  unfold settle
  split
  · next span validator p parts =>
    split
    · rw [hcall, List.append_subset]
      exact ⟨List.subset_append_left _ _, List.subset_append_of_subset_right _
        (l.all_subset_of_within (unparen_within_member span validator _))⟩
    · exact List.subset_append_right _ _
  · exact List.subset_append_right _ _

variable {change : String → String}

/-- If calls to the library add certain spellings, and the spellings of a node change in a certain
way, then so do all spellings of a tree that is retargeted. -/
theorem all_retargetPlace_subset
    (hcall : ∀ validator, l.all (requiredCall library validator) = added ++ l.all validator)
    (hown : ∀ form parts, l.own (form.rename aliasName library)
      (settleParts library form (parts.map (retargetPlace aliasName library))) =
        (l.own form parts).map change) (t : Tree) :
    l.all (retargetPlace aliasName library t) ⊆ added ++ (l.all t).map change := by
  induction t using Tree.induction with
  | leaf a =>
    rw [retargetPlace_leaf, l.all_leaf]
    exact List.nil_subset _
  | node form parts ih =>
    intro x hx
    rw [retargetPlace_node, l.all_node, hown, List.mem_append] at hx
    rw [l.all_node, List.map_append]
    rcases hx with hown | hpart
    · exact List.mem_append_right _ (List.mem_append_left _ hown)
    · obtain ⟨t, ht, hx⟩ := List.mem_flatMap.mp hpart
      obtain ⟨part, hpart, hsettled⟩ := mem_settleParts library ht
      obtain ⟨old, hold, rfl⟩ := List.mem_map.mp hpart
      have hretargeted : x ∈ added ++ l.all (retargetPlace aliasName library old) := by
        rcases hsettled with rfl | rfl
        · exact List.mem_append_right _ hx
        · exact all_settle_subset l added hcall _ hx
      rcases List.mem_append.mp hretargeted with hadded | hx
      · exact List.mem_append_left _ hadded
      · rcases List.mem_append.mp (ih old hold hx) with hadded | hx
        · exact List.mem_append_left _ hadded
        · refine List.mem_append_right _ (List.mem_append_right _ ?_)
          rw [List.map_flatMap]
          exact List.mem_flatMap.mpr ⟨old, hold, hx⟩

theorem all_retarget_subset
    (hcall : ∀ validator, l.all (requiredCall library validator) = added ++ l.all validator)
    (hown : ∀ form parts, l.own (form.rename aliasName library)
      (settleParts library form (parts.map (retargetPlace aliasName library))) =
        (l.own form parts).map change) (t : Tree) :
    l.all (retarget aliasName library t) ⊆ added ++ (l.all t).map change := by
  intro x hx
  rcases List.mem_append.mp (all_settle_subset l added hcall _ hx) with hadded | hx
  · exact List.mem_append_left _ hadded
  · exact all_retargetPlace_subset l added hcall hown t hx

end Listing

/-! ## Identifiers under retargeting -/

/-- A spelling after the alias was replaced. -/
def renamed (x : String) : String := if x = aliasName then library else x

theorem identifier?_rename (form : Form) :
    (form.rename aliasName library).identifier? =
      form.identifier?.map (renamed aliasName library) := by
  cases form <;> rfl

/-- A call to the library has the identifiers of its argument and the library. -/
theorem identifiers_requiredCall (validator : Tree) :
    (requiredCall library validator).identifiers = library :: validator.identifiers := by
  simp [requiredCall, callOf, memberOf, reference, plainName, plainArgument, noSpan, noContext,
    Form.identifier?]

/-- An identifier after retargeting is the library, or an identifier from before with the alias
replaced. -/
theorem identifiers_retarget (t : Tree) :
    (retarget aliasName library t).identifiers ⊆
      library :: t.identifiers.map (renamed aliasName library) := by
  refine all_retarget_subset .ofIdentifiers [library] (identifiers_requiredCall library) ?_ t
  intro form parts
  change (form.rename aliasName library).identifier?.toList = form.identifier?.toList.map _
  rw [identifier?_rename]
  cases form.identifier? <;> rfl

/-- After retargeting the alias is gone, unless it is the library. -/
theorem notMem_identifiers_retarget {aliasName library : String} (hne : aliasName ≠ library)
    (t : Tree) : aliasName ∉ (retarget aliasName library t).identifiers := by
  intro hmem
  rcases List.mem_cons.mp (identifiers_retarget aliasName library t hmem) with heq | hmem
  · exact hne heq
  · obtain ⟨x, _, hx⟩ := List.mem_map.mp hmem
    unfold renamed at hx
    split at hx
    · exact hne hx.symm
    · next hold => exact hold hx

/-! ## Binders under retargeting -/

theorem spelling?_settle (t : Tree) : (settle library t).spelling? = t.spelling? := by
  unfold settle
  split
  · split <;> rfl
  · rfl

theorem spelling?_retargetPlace (t : Tree) :
    (retargetPlace aliasName library t).spelling? =
      t.spelling?.map (renamed aliasName library) := by
  cases t with
  | leaf a => rfl
  | node form parts =>
    rw [retargetPlace_node]
    exact identifier?_rename aliasName library form

theorem spelling?_retarget (t : Tree) :
    (retarget aliasName library t).spelling? = t.spelling?.map (renamed aliasName library) := by
  rw [retarget, spelling?_settle, spelling?_retargetPlace]

/-- A call to the library binds what its argument binds. -/
theorem bindings_requiredCall (validator : Tree) :
    (requiredCall library validator).bindings = validator.bindings := by
  simp [requiredCall, callOf, memberOf, reference, plainName, plainArgument, noSpan, noContext,
    bindings_node, ownBindings, Form.namePosition?, identifierFields]

/-- What a node binds after retargeting it bound before, with the alias replaced. -/
theorem ownBindings_retargetPlace (form : Form) (parts : List Tree) :
    ownBindings (form.rename aliasName library)
        (settleParts library form (parts.map (retargetPlace aliasName library))) =
      (ownBindings form parts).map (renamed aliasName library) := by
  have hspelling (position : Nat) :
      ((settleParts library form (parts.map (retargetPlace aliasName library)))[position]?.bind
          spelling?) =
        (parts[position]?.bind spelling?).map (renamed aliasName library) := by
    unfold settleParts
    rw [List.getElem?_mapIdx, List.getElem?_map]
    cases parts[position]? with
    | none => rfl
    | some part =>
      simp only [Option.map_some, Option.bind_some]
      split
      · exact spelling?_retargetPlace aliasName library part
      · rw [spelling?_settle]
        exact spelling?_retargetPlace aliasName library part
  cases form with
  | identifier x =>
    simp only [ownBindings, Form.rename, settleParts, List.length_mapIdx, List.length_map]
    split <;> rfl
  | list => rfl
  | name x => rfl
  | record tag fields => rfl
  | known kind =>
    simp only [ownBindings, Form.rename]
    cases (Form.known kind).namePosition? with
    | none => rfl
    | some position =>
      rw [Option.bind_some, Option.bind_some, hspelling]
      cases parts[position]?.bind spelling? <;> rfl

/-- A binder after retargeting is a binder from before with the alias replaced. -/
theorem bindings_retarget (t : Tree) :
    (retarget aliasName library t).bindings ⊆ t.bindings.map (renamed aliasName library) :=
  all_retarget_subset .ofBindings [] (bindings_requiredCall library)
    (ownBindings_retargetPlace aliasName library) t

/-! ## The library and the metadata -/

theorem identifiers_library (name : String) :
    (Metadata.library name).identifiers =
      [name, "Proxy", "target", "key", "key", "type", "type", name, name] := by
  simp [Metadata.library, getTrap, applyTrap, constant, newOf, emptyFunction, objectOf, arrowOf,
    conditional, strictEqual, reference, stringOf, plainArgument, plainName, binding, noSpan,
    noContext, Form.identifier?]

theorem mem_identifiers_library (name : String) {x : String} :
    x ∈ (Metadata.library name).identifiers ↔
      x = name ∨ x ∈ ["Proxy", "target", "key", "type"] := by
  rw [identifiers_library]
  simp only [List.mem_cons, List.not_mem_nil, or_false]
  tauto

/-- What the declaration of the library refers to does not begin with an underscore. -/
theorem notMem_library_of_front {x : String} (h : x.toList.head? = some '_') :
    x ∉ ["Proxy", "target", "key", "type"] := by
  intro hmem
  simp only [List.mem_cons, List.not_mem_nil, or_false] at hmem
  rcases hmem with rfl | rfl | rfl | rfl <;> simp at h

/-- The library binds its own name and the parameters of its traps. -/
theorem bindings_library (name : String) :
    (Metadata.library name).bindings = [name, "target", "key", "type"] := by
  simp [Metadata.library, getTrap, applyTrap, constant, newOf, emptyFunction, objectOf, arrowOf,
    conditional, strictEqual, reference, stringOf, plainArgument, plainName, binding, noSpan,
    noContext, bindings_node, ownBindings, Form.namePosition?, identifierFields, spelling?]

theorem identifiers_description (properties : Record Tree) :
    (description properties).identifiers = properties.flatMap fun p => p.2.identifiers := by
  simp [description, objectOf, plainName, noSpan, Form.identifier?, List.flatMap_map,
    Function.comp_def]

theorem bindings_description (properties : Record Tree) :
    (description properties).bindings = properties.flatMap fun p => p.2.bindings := by
  simp [description, objectOf, plainName, noSpan, bindings_node, ownBindings, Form.namePosition?,
    List.flatMap_map, Function.comp_def]

/-- An identifier of a metadata statement is the library, or the name of the component or an
identifier of a value with the alias replaced. -/
theorem identifiers_metadata (field : String) (e : Entry) :
    (e.metadata field aliasName library).identifiers ⊆
      library :: (e.name :: e.properties.flatMap fun p => p.2.identifiers).map
        (renamed aliasName library) := by
  have hstatement : (assignMember e.name field (description e.properties)).eraseSpans.identifiers =
      e.name :: e.properties.flatMap fun p => p.2.identifiers := by
    rw [identifiers_eraseSpans, ← identifiers_description]
    simp [assignMember, memberOf, reference, plainName, noSpan, noContext, Form.identifier?]
  rw [← hstatement]
  exact identifiers_retarget aliasName library _

/-- A binder of a metadata statement is a binder of a value with the alias replaced. -/
theorem bindings_metadata (field : String) (e : Entry) :
    (e.metadata field aliasName library).bindings ⊆
      (e.properties.flatMap fun p => p.2.bindings).map (renamed aliasName library) := by
  have hstatement : (assignMember e.name field (description e.properties)).eraseSpans.bindings =
      e.properties.flatMap fun p => p.2.bindings := by
    rw [bindings_eraseSpans, ← bindings_description]
    simp [assignMember, memberOf, reference, plainName, noSpan, noContext, bindings_node,
      ownBindings, Form.namePosition?, identifierFields]
  rw [← hstatement]
  exact bindings_retarget aliasName library _

end Metadata

namespace Component

open Tree Metadata

theorem importOfTree?_of_importing {item : Tree} {i : Import}
    (h : Shape.ofItem item = .importing i) : Import.ofTree? item = some i := by
  unfold Shape.ofItem at h
  split at h
  · split at h
    · next himport =>
      rw [himport, Shape.importing.inj h]
    · simp at h
  · simp at h
  · simp at h
  · split at h <;> simp at h
  · split at h <;> simp at h
  · simp at h

theorem mem_identifiers_of_defaultLocal? {specifier : Tree} {name : String}
    (h : defaultLocal? specifier = some name) : name ∈ specifier.identifiers := by
  unfold defaultLocal? at h
  split at h
  · obtain rfl := Option.some.inj h
    simp [Form.identifier?]
  · simp at h

/-- The local name that an import gives to the library is an identifier of the import. -/
theorem mem_identifiers_of_libraryName? {librarySource name : String} {item : Tree}
    (h : libraryName? librarySource item = some name) : name ∈ item.identifiers := by
  unfold libraryName? at h
  split at h
  · next i hshape =>
    split at h
    · have himport := importOfTree?_of_importing hshape
      unfold Import.ofTree? at himport
      split at himport
      · next specifiers source rest =>
        obtain rfl := Option.some.inj himport
        obtain ⟨specifier, hspecifier, hlocal⟩ := List.exists_of_findSome?_eq_some h
        have hmem : name ∈ specifiers.identifiers :=
          (Within.of_mem_parts hspecifier).identifiers_subset
            (mem_identifiers_of_defaultLocal? hlocal)
        exact mem_identifiers_of_mem_parts (by simp) hmem
      · simp at himport
    · simp at h
  · simp at h

end Component

namespace Module

open Tree Metadata

variable (m : Module) (options : Options)

/-- An item of the new body is an old one, the library, or the metadata of a component. -/
theorem mem_attach_body {item : Tree} (h : item ∈ (m.attach options).2.body) :
    item ∈ m.body ∨ item = library (m.attach options).1.library ∨
      ∃ e ∈ (Survey.ofModule m options).registry.entries, e.hasProperties = true ∧
        item = e.metadata options.metadataField (m.attach options).1.alias
          (m.attach options).1.library := by
  have hperm := splice_perm m.body (library (m.attach options).1.library)
    (m.lt_length_of_mem_insertions options)
  rw [map_statement_insertions] at hperm
  rcases List.mem_append.mp (hperm.mem_iff.mp h) with hold | hnew
  · exact Or.inl hold
  · rcases List.mem_cons.mp hnew with hlibrary | hmetadata
    · exact Or.inr (Or.inl hlibrary)
    · obtain ⟨e, he, rfl⟩ := List.mem_map.mp hmetadata
      obtain ⟨hentry, hproperties⟩ := List.mem_filter.mp he
      exact Or.inr (Or.inr ⟨e, hentry, hproperties, rfl⟩)

/-- Where the identifiers of the inserted statements come from.

The name of the library is used nowhere in the module, so in the new body it stands in inserted
statements only.  In the library its one binder is the declaration itself, not a parameter.  In the
metadata of a component it is bound only if a value collected for the component binds the alias.
Every identifier of the metadata is the library, or comes from the name of the component or from a
collected value with the alias replaced; the alias itself is gone unless it is spelled like the
library, and it is not if an import gave it. -/
theorem attach_identifiers :
    let report := (m.attach options).1
    let entries := (Survey.ofModule m options).registry.entries
    let metadata := Entry.metadata options.metadataField report.alias report.library
    report.library ∉ m.identifiers ∧
    (∀ item ∈ (m.attach options).2.body, report.library ∈ item.identifiers →
      item = library report.library ∨ ∃ e ∈ entries, e.hasProperties = true ∧ item = metadata e) ∧
    (library report.library).bindings.count report.library = 1 ∧
    (∀ e ∈ entries, report.library ∈ (metadata e).bindings →
      ∃ p ∈ e.properties, report.alias ∈ p.2.bindings) ∧
    (∀ e ∈ entries, ∀ x ∈ (metadata e).identifiers,
      x = report.library ∨
      ∃ y, (y = e.name ∨ ∃ p ∈ e.properties, y ∈ p.2.identifiers) ∧
        x = renamed report.alias report.library y) ∧
    (report.alias ≠ report.library → ∀ e ∈ entries, report.alias ∉ (metadata e).identifiers) ∧
    ((∃ item ∈ m.body, libraryName? options.librarySource item = some report.alias) →
      report.alias ≠ report.library) := by
  intro report entries metadata
  have hfresh : report.library ∉ m.identifiers := freshName_notMem m options.libraryBaseName
  refine ⟨hfresh, ?_, ?_, ?_, ?_, ?_, ?_⟩
  · intro item hitem hmem
    rcases mem_attach_body m options hitem with hold | hlibrary | hmetadata
    · exact absurd (List.mem_flatMap.mpr ⟨item, hold, hmem⟩) hfresh
    · exact Or.inl hlibrary
    · exact Or.inr hmetadata
  · have hparameters : report.library ∉ ["target", "key", "type"] := fun hmem =>
      notMem_library_of_front (front_freshName m options.libraryBaseName)
        (List.mem_cons_of_mem _ hmem)
    rw [bindings_library, List.count_cons_self, List.count_eq_zero_of_not_mem hparameters]
  · intro e he hmem
    obtain ⟨y, hy, heq⟩ := List.mem_map.mp (bindings_metadata _ _ _ e hmem)
    obtain ⟨p, hp, hbound⟩ := List.mem_flatMap.mp hy
    refine ⟨p, hp, ?_⟩
    -- A binder of a value is an identifier of the module, so it is not spelled like the library.
    by_contra hnot
    have hy : y ≠ report.alias := by
      intro hy
      exact hnot (hy ▸ hbound)
    have hkept : y = report.library := by
      rwa [renamed, if_neg hy] at heq
    have hmodule : y ∈ m.identifiers :=
      Survey.identifiers_value_subset he hp (bindings_subset_identifiers p.2 hbound)
    exact hfresh (hkept ▸ hmodule)
  · intro e he x hx
    rcases List.mem_cons.mp (identifiers_metadata _ _ _ e hx) with hlibrary | hx
    · exact Or.inl hlibrary
    · obtain ⟨y, hy, heq⟩ := List.mem_map.mp hx
      refine Or.inr ⟨y, ?_, heq.symm⟩
      rcases List.mem_cons.mp hy with hname | hvalue
      · exact Or.inl hname
      · exact Or.inr (List.mem_flatMap.mp hvalue)
  · intro hne e _
    exact notMem_identifiers_retarget hne _
  · rintro ⟨item, hitem, hname⟩ heq
    apply hfresh
    rw [← heq]
    exact List.mem_flatMap.mpr ⟨item, hitem, mem_identifiers_of_libraryName? hname⟩

/-- `function Panel() {}` followed by `Panel.propTypes = { v: (PropTypes) => x.y.isRequired };` -/
def shadowed : Module :=
  { described "Panel" with
    body := (described "Panel").body.take 1 ++
      [assignMember "Panel" propTypesField
        (objectOf [("v", arrowOf ["PropTypes"]
          (memberOf (memberOf (reference "x") "y") requiredField))])] }

/-- A value that binds the alias captures an inserted call.  The parameter is renamed with every
other identifier that is spelled like the alias, so the call that replaces `x.y.isRequired` refers to
the parameter and not to the library. -/
theorem attach_shadowed :
    (shadowed.attach {}).1.library = "_fakePropTypes" ∧
    "_fakePropTypes" ∉ shadowed.identifiers ∧
    (shadowed.attach {}).2.body[2]? =
      some (assignMember "Panel" "__metadata" (description
        [("v", arrowOf ["_fakePropTypes"]
          (requiredCall "_fakePropTypes" (memberOf (reference "x") "y")))])) ∧
    "_fakePropTypes" ∈ (arrowOf ["_fakePropTypes"]
      (requiredCall "_fakePropTypes" (memberOf (reference "x") "y"))).bindings := by
  decide +kernel

end Module

end PropCatalog
