import PropCatalog.Proofs.Description
import PropCatalog.Settings.Check
import PropCatalog.Text.Name

/-!
# Valid names in the inserted statements

What an inserted statement spells comes from five places: the module itself (the name of the
component, the keys of its properties and the values collected for them), the base of the library's
name, the alias, the metadata field, and the words of the library and of the description.  This file
follows the spellings, of identifiers and of names, through copying and retargeting:

* the base of the library's name is brought into a normal form, so whatever the settings say, the
  name that is made from it is valid (`isName_freshName`);
* the alias is only ever replaced, never written;
* the metadata field is written as it is.

So for a module whose own spellings are valid one thing alone can spoil an inserted statement, and
that is the metadata field.  The check of the settings asks only that it is not blank.
-/

namespace PropCatalog

open Component Metadata

/-! ## Names of a tree -/

namespace Tree

/-- The text that a leaf holds. -/
def leafText? : Tree → Option String
  | .leaf (.text s) => some s
  | _ => none

/-- The names that a node itself spells.  A private name keeps its spelling in a leaf. -/
def ownNames (form : Form) (parts : List Tree) : List String :=
  match form with
  | .name x => [x]
  | .known .privateName => parts.filterMap leafText?
  | _ => []

/-- The spellings of all names, in the order of a traversal. -/
def names : Tree → List String :=
  para (fun _ => []) fun form parts =>
    ownNames form (parts.map Prod.fst) ++ parts.flatMap Prod.snd

theorem ownNames_known {kind : Kind} (h : kind ≠ .privateName) (parts : List Tree) :
    ownNames (.known kind) parts = [] := by
  unfold ownNames
  split
  · next heq => cases heq
  · next heq => exact absurd (Form.known.inj heq) h
  · rfl

@[simp] theorem names_leaf (a : Atom) : (Tree.leaf a).names = [] := rfl

@[simp] theorem names_node (form : Form) (parts : List Tree) :
    (Tree.node form parts).names = ownNames form parts ++ parts.flatMap names := by
  rw [names, para_node, List.map_map, List.flatMap_map]
  simp [Function.comp_def]

/-- Whether every identifier and every name of a tree is spelled as a name may be. -/
def WellSpelled (t : Tree) : Prop := ∀ x ∈ t.identifiers ++ t.names, Text.isName x = true

/-- The names of a tree as a listing. -/
def Listing.ofNames : Listing where
  all := names
  own := ownNames
  all_leaf := names_leaf
  all_node := names_node

theorem leafText?_eraseSpans (t : Tree) : t.eraseSpans.leafText? = t.leafText? := by
  cases t with
  | leaf a => cases a <;> rfl
  | node form parts =>
    rw [eraseSpans_node]
    rfl

theorem ownNames_map_eraseSpans (form : Form) (parts : List Tree) :
    ownNames form (parts.map eraseSpans) = ownNames form parts := by
  unfold ownNames
  split
  · rfl
  · rw [List.filterMap_map]
    simp only [Function.comp_def, leafText?_eraseSpans]
  · rfl

/-- Erasing keeps every name. -/
@[simp] theorem names_eraseSpans (t : Tree) : t.eraseSpans.names = t.names :=
  Listing.ofNames.all_eraseSpans ownNames_map_eraseSpans t

end Tree

namespace Metadata

open Tree

variable (aliasName library : String)

/-! ## Names under retargeting -/

/-- A call to the library has the names of its argument and `isRequired`. -/
theorem names_requiredCall (validator : Tree) :
    (requiredCall library validator).names = requiredField :: validator.names := by
  simp [requiredCall, callOf, memberOf, reference, plainName, plainArgument, noSpan, noContext,
    ownNames]

theorem leafText?_retarget (t : Tree) : (retarget aliasName library t).leafText? = t.leafText? := by
  cases t with
  | leaf a => rfl
  | node form parts =>
    rw [retarget, retargetPlace_node]
    unfold settle
    split
    · split <;> rfl
    · rfl

/-- Retargeting touches no name of the node itself. -/
theorem ownNames_retargetPlace (form : Form) (parts : List Tree) :
    ownNames (form.rename aliasName library)
        (settleParts library form (parts.map (retargetPlace aliasName library))) =
      ownNames form parts := by
  cases form with
  | known kind =>
    rw [rename_known]
    by_cases hkind : kind = .privateName
    · subst hkind
      rw [settleParts_eq_map library (by decide), List.map_map]
      change ((parts.map (retarget aliasName library)).filterMap leafText?) =
        parts.filterMap leafText?
      rw [List.filterMap_map]
      simp only [Function.comp_def, leafText?_retarget]
    · rw [ownNames_known hkind, ownNames_known hkind]
  | _ => rfl

/-- A name after retargeting is a name from before or `isRequired`. -/
theorem names_retarget (t : Tree) :
    (retarget aliasName library t).names ⊆ requiredField :: t.names := by
  rw [← List.map_id t.names]
  refine all_retarget_subset .ofNames [requiredField] (names_requiredCall library) ?_ t
  intro form parts
  rw [List.map_id]
  exact ownNames_retargetPlace aliasName library form parts

/-! ## The library and the metadata -/

theorem names_library (name : String) : (Metadata.library name).names = ["get", "apply"] := by
  simp [Metadata.library, getTrap, applyTrap, constant, newOf, emptyFunction, objectOf, arrowOf,
    conditional, strictEqual, reference, stringOf, plainArgument, plainName, binding, noSpan,
    noContext, ownNames]

theorem isName_libraryIdentifier :
    ∀ x ∈ ["Proxy", "target", "key", "type"], Text.isName x = true := by
  decide

theorem isName_libraryName : ∀ x ∈ ["get", "apply"], Text.isName x = true := by
  decide

theorem names_description (properties : Record Tree) :
    (description properties).names =
      "props" :: properties.flatMap fun p => p.1 :: "type" :: p.2.names := by
  simp [description, objectOf, plainName, noSpan, ownNames, List.flatMap_map, Function.comp_def]

/-- The names of a metadata statement: the field, the words of the description, and the keys and
retargeted values of the component's properties. -/
theorem names_metadata (field : String) (e : Entry) :
    (e.metadata field aliasName library).names =
      field :: "props" :: e.properties.flatMap fun p =>
        p.1 :: "type" :: (retarget aliasName library p.2.eraseSpans).names := by
  have hassigned (object : String) (value : Tree) :
      (assignMember object field value).names = field :: value.names := by
    simp [assignMember, memberOf, reference, plainName, noSpan, noContext, ownNames]
  rw [Component.Entry.metadata_eq, hassigned, names_description, mapValues, List.flatMap_map]

/-! ## The name of the library -/

/-- A character of a candidate may continue a name. -/
theorem isNamePart_of_isNameChar {c : Char} (h : isNameChar c = true) :
    Text.isNamePart c = true := by
  unfold isNameChar Char.isAlphanum at h
  unfold Text.isNamePart Text.isNameStart
  grind

/-- The normal form of a base holds letters, digits, `_` and `$` only. -/
theorem isNameChar_of_mem_baseName {base : String} {c : Char} (hc : c ∈ (baseName base).toList) :
    isNameChar c = true := by
  unfold baseName at hc
  dsimp only at hc
  split at hc
  · have hall : "ref".toList.all isNameChar = true := by decide
    exact List.all_eq_true.mp hall c hc
  · have hkept : c ∈ (base.toList.filter isNameChar).dropWhile (· = '_') := by
      rw [String.toList_ofList, List.mem_reverse] at hc
      exact List.mem_reverse.mp ((List.dropWhile_sublist _).mem hc)
    exact (List.mem_filter.mp ((List.dropWhile_sublist _).mem hkept)).2

/-- What a candidate is made from continues the underscore in front of it. -/
theorem isNameChar_of_mem_candidate {name : String}
    (hname : ∀ c ∈ name.toList, isNameChar c = true) {i : Nat} {c : Char}
    (hc : c ∈ (candidate name i).toList) : isNameChar c = true := by
  have hunderscore : ∀ c ∈ ("_" ++ name).toList, isNameChar c = true := by
    intro c hc
    rw [String.toList_append, List.mem_append] at hc
    rcases hc with hc | hc
    · rw [List.mem_singleton.mp hc]
      rfl
    · exact hname c hc
  unfold candidate at hc
  split at hc
  · rw [String.toList_append, List.mem_append] at hc
    rcases hc with hc | hdigit
    · exact hunderscore c hc
    · rw [Nat.toString_eq_repr, Nat.toList_repr] at hdigit
      have hdigit := Nat.isDigit_of_mem_toDigits (by decide) (by decide) hdigit
      simp [isNameChar, Char.isAlphanum, hdigit]
  · exact hunderscore c hc

/-- Whatever base it is made from, a fresh name is a valid name. -/
theorem isName_freshName (m : Module) (base : String) :
    Text.isName (freshName m base) = true := by
  obtain ⟨i, _, hname, _, _⟩ := freshNameAmong_spec m.identifiers base
  have hchars : ∀ c ∈ (freshName m base).toList, isNameChar c = true := by
    intro c hc
    rw [freshName, hname] at hc
    exact isNameChar_of_mem_candidate (fun _ => isNameChar_of_mem_baseName) hc
  have hfront := front_freshName m base
  cases hlist : (freshName m base).toList with
  | nil => simp [hlist] at hfront
  | cons first rest =>
    rw [hlist] at hfront hchars
    obtain rfl : first = '_' := Option.some.inj hfront
    have hrest : rest.all Text.isNamePart = true := List.all_eq_true.mpr fun c hc =>
      isNamePart_of_isNameChar (hchars c (List.mem_cons_of_mem _ hc))
    simp [Text.isName, hlist, hrest, Text.isNameStart]

end Metadata

/-! ## Keys of properties -/

namespace Component

open Tree

/-- The key of a property is a name, or the identifier of a shorthand. -/
theorem property?_key {t : Tree} {p : String × Tree} (h : property? t = some p) :
    p.1 ∈ t.identifiers ++ t.names := by
  unfold property? at h
  split at h
  · rw [← Option.some.inj h]
    simp [ownNames]
  · rw [← Option.some.inj h]
    simp [Form.identifier?]
  · simp at h

theorem Within.spellings_subset {s t : Tree} (h : Within s t) :
    s.identifiers ++ s.names ⊆ t.identifiers ++ t.names :=
  List.append_subset.mpr
    ⟨List.subset_append_of_subset_left _ h.identifiers_subset,
      List.subset_append_of_subset_right _ (Listing.ofNames.all_subset_of_within h)⟩

theorem key_of_mem_writtenProperties {literal : Tree} {p : String × Tree}
    (h : p ∈ writtenProperties literal) : p.1 ∈ literal.identifiers ++ literal.names := by
  unfold writtenProperties at h
  split at h
  · obtain ⟨element, helement, hp⟩ := List.mem_filterMap.mp h
    refine Within.spellings_subset (.part ?_ (.of_mem_parts helement)) (property?_key hp)
    exact List.mem_cons_of_mem _ List.mem_cons_self
  · cases h

end Component

namespace Module

open Tree

/-- The spellings of all names of a module. -/
def names (m : Module) : List String := m.body.flatMap Tree.names

/-- Whether every identifier and every name of a module is spelled as a name may be. -/
def WellSpelled (m : Module) : Prop := ∀ x ∈ m.identifiers ++ m.names, Text.isName x = true

variable {m : Module} {options : Options}

theorem WellSpelled.of_mem_body (hm : m.WellSpelled) {item : Tree} (hitem : item ∈ m.body) :
    item.WellSpelled := by
  intro x hx
  apply hm
  rcases List.mem_append.mp hx with hx | hx
  · exact List.mem_append_left _ (List.mem_flatMap.mpr ⟨item, hitem, hx⟩)
  · exact List.mem_append_right _ (List.mem_flatMap.mpr ⟨item, hitem, hx⟩)

/-- The keys of the collected properties are spelled in the module. -/
theorem WellSpelled.key (hm : m.WellSpelled) {e : Entry}
    (he : e ∈ (Survey.ofModule m options).registry.entries) {p : String × Tree}
    (hp : p ∈ e.properties) : Text.isName p.1 = true := by
  have hname : p.1 ∈ (writtenFor e.name m.body).map Prod.fst := by
    have hmem : p.1 ∈ e.propertyNames := List.mem_map_of_mem hp
    rw [Survey.propertyNames_eq he] at hmem
    exact List.mem_eraseDups.mp hmem
  obtain ⟨written, hwritten, hkey⟩ := List.mem_map.mp hname
  obtain ⟨literal, hliteral, hproperty⟩ := List.mem_flatMap.mp hwritten
  obtain ⟨item, hitem, hin⟩ := List.mem_flatMap.mp hliteral
  rw [← hkey]
  exact hm.of_mem_body ((List.dropWhile_sublist _).mem hitem) _
    (Within.spellings_subset (within_of_mem_literalsIn hin)
      (key_of_mem_writtenProperties hproperty))

/-- The values of the collected properties are spelled in the module. -/
theorem WellSpelled.value (hm : m.WellSpelled) {e : Entry}
    (he : e ∈ (Survey.ofModule m options).registry.entries) {p : String × Tree}
    (hp : p ∈ e.properties) : p.2.WellSpelled := by
  obtain ⟨item, hitem, value, hwithin, heq⟩ := Survey.exists_within_of_mem_properties he hp
  intro x hx
  rw [heq, Tree.identifiers_eraseSpans, names_eraseSpans] at hx
  exact hm.of_mem_body hitem x (Within.spellings_subset hwithin hx)

/-- Every identifier of a metadata statement is valid. -/
theorem WellSpelled.metadata_identifiers (hm : m.WellSpelled) {e : Entry}
    (he : e ∈ (Survey.ofModule m options).registry.entries) {x : String}
    (hx : x ∈ (e.metadata options.metadataField (m.attach options).1.alias
      (m.attach options).1.library).identifiers) : Text.isName x = true := by
  have hlibrary : Text.isName (m.attach options).1.library = true := isName_freshName m _
  rcases List.mem_cons.mp (identifiers_metadata _ _ _ e hx) with rfl | hx
  · exact hlibrary
  · obtain ⟨y, hy, rfl⟩ := List.mem_map.mp hx
    unfold renamed
    split
    · exact hlibrary
    · rcases List.mem_cons.mp hy with rfl | hy
      · exact hm _ (List.mem_append_left _ (Survey.name_mem_identifiers he))
      · obtain ⟨p, hp, hy⟩ := List.mem_flatMap.mp hy
        exact hm.value he hp y (List.mem_append_left _ hy)

/-- Every name of a metadata statement but the field it assigns is valid. -/
theorem WellSpelled.metadata_names (hm : m.WellSpelled) {e : Entry}
    (he : e ∈ (Survey.ofModule m options).registry.entries) {field aliasName library x : String}
    (hx : x ∈ (e.metadata field aliasName library).names) :
    x = field ∨ Text.isName x = true := by
  rw [names_metadata, List.mem_cons, List.mem_cons] at hx
  rcases hx with rfl | rfl | hx
  · exact Or.inl rfl
  · exact Or.inr (by decide)
  · right
    obtain ⟨p, hp, hx⟩ := List.mem_flatMap.mp hx
    rw [List.mem_cons, List.mem_cons] at hx
    rcases hx with rfl | rfl | hx
    · exact hm.key he hp
    · decide
    · rcases List.mem_cons.mp (names_retarget _ _ _ hx) with rfl | hx
      · decide
      · rw [names_eraseSpans] at hx
        exact hm.value he hp x (List.mem_append_right _ hx)

variable (options)

/-- What is spelled in the statements that are inserted into a module whose own spellings are valid,
whatever the options are.  Every identifier is valid, and so is every name but the metadata field,
which is written as the options give it.  So all spellings are valid exactly if no component
receives metadata or the field is a valid name. -/
theorem attach_wellSpelled (hm : m.WellSpelled) :
    let entries := (Survey.ofModule m options).registry.entries
    let report := (m.attach options).1
    let inserted := library report.library :: (entries.filter Entry.hasProperties).map
      (Entry.metadata options.metadataField report.alias report.library)
    (m.attach options).2.body.Perm (m.body ++ inserted) ∧
    (∀ s ∈ inserted, ∀ x ∈ s.identifiers, Text.isName x = true) ∧
    (∀ s ∈ inserted, ∀ x ∈ s.names, x = options.metadataField ∨ Text.isName x = true) ∧
    ((∀ s ∈ inserted, s.WellSpelled) ↔
      report.emittedCount = 0 ∨ Text.isName options.metadataField = true) := by
  intro entries report inserted
  have hidentifiers : ∀ s ∈ inserted, ∀ x ∈ s.identifiers, Text.isName x = true := by
    intro s hs x hx
    rcases List.mem_cons.mp hs with rfl | hs
    · rcases (mem_identifiers_library _).mp hx with rfl | hx
      · exact isName_freshName m _
      · exact isName_libraryIdentifier x hx
    · obtain ⟨e, he, rfl⟩ := List.mem_map.mp hs
      exact hm.metadata_identifiers (List.mem_filter.mp he).1 hx
  have hnames : ∀ s ∈ inserted, ∀ x ∈ s.names,
      x = options.metadataField ∨ Text.isName x = true := by
    intro s hs x hx
    rcases List.mem_cons.mp hs with rfl | hs
    · rw [names_library] at hx
      exact Or.inr (isName_libraryName x hx)
    · obtain ⟨e, he, rfl⟩ := List.mem_map.mp hs
      exact hm.metadata_names (List.mem_filter.mp he).1 hx
  refine ⟨?_, hidentifiers, hnames, ?_, ?_⟩
  · have hsplice := splice_perm m.body (library report.library)
      (m.lt_length_of_mem_insertions options)
    rwa [map_statement_insertions] at hsplice
  · -- A component that receives metadata spells the field.
    intro hspelled
    by_cases hnone : report.emittedCount = 0
    · exact Or.inl hnone
    · right
      rw [emittedCount_attach, List.length_eq_zero_iff] at hnone
      obtain ⟨e, he⟩ := List.exists_mem_of_ne_nil _ hnone
      apply hspelled _ (List.mem_cons_of_mem _ (List.mem_map_of_mem he))
      rw [names_metadata]
      exact List.mem_append_right _ List.mem_cons_self
  · intro hvalid s hs x hx
    rcases List.mem_append.mp hx with hx | hx
    · exact hidentifiers s hs x hx
    · rcases hvalid with hnone | hfield
      · rw [emittedCount_attach, List.length_eq_zero_iff] at hnone
        have hlibrary : s ∈ [library report.library] := by
          simpa only [inserted, entries, hnone, List.map_nil] using hs
        rw [List.mem_singleton.mp hlibrary, names_library] at hx
        exact isName_libraryName x hx
      · rcases hnames s hs x hx with rfl | hname
        · exact hfield
        · exact hname

/-- With the default field every spelling that is inserted for a component is valid. -/
theorem attach_wellSpelled_panel :
    (described "Panel").WellSpelled ∧ ((described "Panel").attach {}).1.emittedCount = 1 ∧
    ∀ s ∈ library ((described "Panel").attach {}).1.library ::
        ((Survey.ofModule (described "Panel") {}).registry.entries.filter Entry.hasProperties).map
          (Entry.metadata "__metadata" ((described "Panel").attach {}).1.alias
            ((described "Panel").attach {}).1.library),
      s.WellSpelled := by
  have hm : (described "Panel").WellSpelled := by
    unfold WellSpelled
    decide +kernel
  obtain ⟨_, _, _, hiff⟩ := attach_wellSpelled {} hm
  exact ⟨hm, by decide +kernel, hiff.mpr (Or.inr (by decide))⟩

/-- Settings with a field that is no name are accepted, and the statement that is inserted for a
component has the field as it is. -/
theorem attach_dashed_field :
    let settings : Settings := { options := { metadataField := "my-meta" } }
    settings.check = .ok settings ∧
    (described "Panel").WellSpelled ∧
    (∃ s ∈ ((described "Panel").attach settings.options).2.body,
      s ∉ (described "Panel").body ∧ "my-meta" ∈ s.names) ∧
    Text.isName "my-meta" = false := by
  unfold WellSpelled
  decide +kernel

end Module

end PropCatalog
