import Mathlib.Data.List.Induction
import PropCatalog.Proofs.Erasure

/-!
# The properties of a component

What the registry holds for a component is a record that was filled pair by pair.  Its names stand in
the order in which they were first given and its values are those given last
(`Record.names_setAll`, `Record.lookup_setAll`).  For a surveyed module the pairs are those written in
the literals that the body has for the component (`Survey.properties_eq_setAll`).

Every value is a copy of an expression that stands somewhere in the module, without its source
positions (`Survey.exists_within_of_mem_properties`).  So a value mentions no identifier that the
module does not.
-/

namespace PropCatalog

open Component

/-! ## Records -/

namespace Component.Record

variable {α : Type}

theorem lookup_cons (name : String) (p : String × α) (r : Record α) :
    List.lookup name (p :: r) = if name = p.1 then some p.2 else r.lookup name := by
  rw [List.lookup_cons]
  by_cases hname : name = p.1
  · simp [hname]
  · have hbeq : (name == p.1) = false := beq_false_of_ne hname
    simp only [hbeq, if_neg hname]

theorem names_set (name : String) (value : α) (r : Record α) :
    (r.set name value).names = if name ∈ r.names then r.names else r.names ++ [name] := by
  induction r with
  | nil => rfl
  | cons p rest ih =>
    have hnames : names (p :: rest) = p.1 :: names rest := rfl
    unfold set
    by_cases hp : p.1 = name
    · simp [hp, names]
    · have hne : ¬ name = p.1 := fun h => hp h.symm
      rw [if_neg hp, hnames]
      change p.1 :: names (set name value rest) = _
      rw [ih]
      by_cases hmem : name ∈ names rest
      · simp [hmem]
      · simp [hmem, hne]

theorem lookup_set (name other : String) (value : α) (r : Record α) :
    (r.set name value).lookup other = if other = name then some value else r.lookup other := by
  induction r with
  | nil => exact lookup_cons other (name, value) []
  | cons p rest ih =>
    unfold set
    by_cases hp : p.1 = name
    · rw [if_pos hp, lookup_cons, lookup_cons, hp]
      by_cases hother : other = name
      · simp [hother]
      · simp [hother]
    · rw [if_neg hp, lookup_cons, lookup_cons, ih]
      by_cases hother : other = p.1
      · simp [hother, hp]
      · simp [hother]

/-- The record after names were given values one after the other. -/
def setAll (pairs : List (String × α)) (r : Record α) : Record α :=
  pairs.foldl (fun r p => r.set p.1 p.2) r

theorem setAll_append (pairs later : List (String × α)) (r : Record α) :
    setAll (pairs ++ later) r = setAll later (setAll pairs r) :=
  List.foldl_append

theorem setAll_concat (pairs : List (String × α)) (p : String × α) (r : Record α) :
    setAll (pairs ++ [p]) r = (setAll pairs r).set p.1 p.2 :=
  setAll_append pairs [p] r

/-- Names stand in the order in which they were first given, each once. -/
theorem names_setAll (pairs : List (String × α)) :
    (setAll pairs []).names = (pairs.map Prod.fst).eraseDups := by
  induction pairs using List.reverseRecOn with
  | nil => rfl
  | append_singleton pairs p ih =>
    rw [setAll_concat, names_set, ih, List.map_append, List.map_singleton, Registry.eraseDups_concat]
    simp only [List.mem_eraseDups]

theorem nodup_names_setAll (pairs : List (String × α)) : (setAll pairs []).names.Nodup := by
  induction pairs using List.reverseRecOn with
  | nil => exact List.nodup_nil
  | append_singleton pairs p ih =>
    rw [setAll_concat, names_set]
    split
    · exact ih
    · next hnew =>
      rw [List.nodup_append]
      refine ⟨ih, List.nodup_singleton _, ?_⟩
      intro old hold new hlast heq
      rw [List.mem_singleton.mp hlast] at heq
      exact hnew (heq ▸ hold)

/-- After names were given values, a name has the last value it was given, or else its old one. -/
theorem lookup_setAll_or (pairs : List (String × α)) (r : Record α) (name : String) :
    (setAll pairs r).lookup name = (pairs.reverse.lookup name).or (r.lookup name) := by
  induction pairs using List.reverseRecOn with
  | nil => rfl
  | append_singleton pairs p ih =>
    rw [setAll_concat, lookup_set, ih, List.reverse_append, List.reverse_singleton,
      List.singleton_append, lookup_cons]
    split <;> rfl

/-- The value of a name is the one it was given last. -/
theorem lookup_setAll (pairs : List (String × α)) (name : String) :
    (setAll pairs []).lookup name = pairs.reverse.lookup name := by
  rw [lookup_setAll_or]
  exact Option.or_none

/-- Where no name is given twice, a pair of the record is found under its name. -/
theorem lookup_of_mem {r : Record α} (hnodup : r.names.Nodup) {p : String × α} (hp : p ∈ r) :
    r.lookup p.1 = some p.2 := by
  induction r with
  | nil => cases hp
  | cons q rest ih =>
    obtain ⟨hfresh, hrest⟩ := List.nodup_cons.mp hnodup
    rw [lookup_cons]
    rcases List.mem_cons.mp hp with rfl | hmem
    · exact if_pos rfl
    · have hne : p.1 ≠ q.1 := by
        intro heq
        exact hfresh (heq ▸ List.mem_map_of_mem hmem)
      rw [if_neg hne]
      exact ih hrest hmem

theorem mem_of_lookup {r : Record α} {name : String} {value : α}
    (h : r.lookup name = some value) : (name, value) ∈ r := by
  induction r with
  | nil => cases h
  | cons p rest ih =>
    rw [lookup_cons] at h
    split at h
    · next hname =>
      rw [hname, ← Option.some.inj h]
      exact List.mem_cons_self
    · exact List.mem_cons_of_mem p (ih h)

/-- Changing the values changes what is found. -/
theorem lookup_map {β : Type} (g : α → β) (name : String) (r : Record α) :
    List.lookup name (r.map fun p => (p.1, g p.2)) = (r.lookup name).map g := by
  induction r with
  | nil => rfl
  | cons p rest ih =>
    rw [List.map_cons, lookup_cons, lookup_cons, ih]
    split <;> rfl

end Component.Record

/-! ## Properties of surveyed components -/

namespace Component

/-- The properties that an object literal declares, as they are written. -/
def writtenProperties : Tree → List (String × Tree)
  | .object _ properties => properties.parts.filterMap property?
  | _ => []

theorem declaredProperties_eq_map (literal : Tree) :
    declaredProperties literal =
      (writtenProperties literal).map fun p => (p.1, p.2.eraseSpans) := by
  unfold declaredProperties
  split
  · rw [writtenProperties, List.map_filterMap]
  · next h =>
    rw [writtenProperties]
    · rfl
    · exact h

/-- Collecting literals one after the other sets the pairs they declare. -/
theorem Entry.properties_foldl_collect (e : Entry) (literals : List Tree) :
    (literals.foldl Entry.collect e).properties =
      Record.setAll (literals.flatMap declaredProperties) e.properties := by
  induction literals generalizing e with
  | nil => rfl
  | cons literal literals ih =>
    rw [List.foldl_cons, ih, List.flatMap_cons, Record.setAll_append]
    rfl

/-- The properties that a body declares for a component, as they are written and in document
order. -/
def writtenFor (name : String) (body : List Tree) : List (String × Tree) :=
  (literalsFor name body).flatMap writtenProperties

namespace Survey

variable {m : Module} {options : Options} {e : Entry}

/-- The properties of a component are those written for it, set one after the other. -/
theorem properties_eq_setAll (he : e ∈ (ofModule m options).registry.entries) :
    e.properties =
      Record.setAll ((writtenFor e.name m.body).map fun p => (p.1, p.2.eraseSpans)) [] := by
  have hcollected := congrArg Entry.properties ((describes_ofModule m options).collected e he)
  rw [literalsSince_history, Entry.properties_foldl_collect] at hcollected
  have hdeclared : declaredProperties =
      fun literal => (writtenProperties literal).map fun p => (p.1, p.2.eraseSpans) :=
    funext declaredProperties_eq_map
  rw [hcollected, hdeclared, writtenFor, List.map_flatMap]

/-- The names of a component's properties, in the order in which they are first written. -/
theorem propertyNames_eq (he : e ∈ (ofModule m options).registry.entries) :
    e.propertyNames = ((writtenFor e.name m.body).map Prod.fst).eraseDups := by
  rw [Entry.propertyNames, properties_eq_setAll he, Record.names_setAll, List.map_map]
  rfl

theorem propertyNames_nodup (he : e ∈ (ofModule m options).registry.entries) :
    e.propertyNames.Nodup := by
  rw [Entry.propertyNames, properties_eq_setAll he]
  exact Record.nodup_names_setAll _

/-- The value of a property is the one written last, without its positions. -/
theorem exists_written_of_mem_properties (he : e ∈ (ofModule m options).registry.entries)
    {p : String × Tree} (hp : p ∈ e.properties) :
    ∃ value, (writtenFor e.name m.body).reverse.lookup p.1 = some value ∧
      p.2 = value.eraseSpans := by
  have hlookup := Record.lookup_of_mem (propertyNames_nodup he) hp
  rw [properties_eq_setAll he, Record.lookup_setAll, ← List.map_reverse, Record.lookup_map,
    Option.map_eq_some_iff] at hlookup
  obtain ⟨value, hvalue, heq⟩ := hlookup
  exact ⟨value, hvalue, heq.symm⟩

end Survey

end Component

/-! ## Where values come from -/

namespace Tree

/-- A tree stands somewhere in another one. -/
inductive Within : Tree → Tree → Prop
  | refl (t : Tree) : Within t t
  | part {s t : Tree} {form : Form} {parts : List Tree} (ht : t ∈ parts) (hs : Within s t) :
      Within s (.node form parts)

namespace Within

theorem trans {r s t : Tree} (hrs : Within r s) (hst : Within s t) : Within r t := by
  induction hst with
  | refl => exact hrs
  | part ht _ ih => exact .part ht ih

theorem of_mem_parts {s t : Tree} (h : s ∈ t.parts) : Within s t := by
  cases t with
  | leaf a => cases h
  | node form parts => exact .part h (.refl s)

theorem identifiers_subset {s t : Tree} (h : Within s t) : s.identifiers ⊆ t.identifiers := by
  induction h with
  | refl => exact List.Subset.refl _
  | part ht _ ih => exact fun x hx => mem_identifiers_of_mem_parts ht (ih hx)

end Within

theorem unparen_within (t : Tree) : Within t.unparen t := by
  induction t using unparen_induction with
  | bare t hbare =>
    rw [unparen_eq_self hbare]
    exact .refl t
  | parenthesis span e ih =>
    rw [unparen_parenthesis]
    exact .part (by simp) ih

end Tree

namespace Component

open Tree

theorem objectLiteral?_within {t literal : Tree} (h : objectLiteral? t = some literal) :
    Within literal t := by
  unfold objectLiteral? at h
  split at h
  · next hobject =>
    have hliteral : t.unparen = literal := hobject.trans (Option.some.inj h)
    rw [← hliteral]
    exact unparen_within t
  · simp at h

theorem propTypesAssignment?_within {t literal : Tree} {name : String}
    (h : propTypesAssignment? t = some (name, literal)) : Within literal t := by
  unfold propTypesAssignment? at h
  split at h
  · split at h
    · obtain ⟨found, hfound, heq⟩ := Option.map_eq_some_iff.mp h
      obtain ⟨_, rfl⟩ := Prod.mk.inj heq
      exact .part (by simp) (objectLiteral?_within hfound)
    · simp at h
  · simp at h

/-- The literal that an item assigns stands in the item. -/
theorem within_of_propTypes {item literal : Tree} {name : String}
    (h : Shape.ofItem item = .propTypes name literal) : Within literal item := by
  unfold Shape.ofItem at h
  split at h
  · split at h <;> simp at h
  · simp at h
  · simp at h
  · split at h <;> simp at h
  · split at h
    · next hassignment =>
      obtain ⟨rfl, rfl⟩ := Shape.propTypes.inj h
      exact .part (by simp) (propTypesAssignment?_within hassignment)
    · simp at h
  · simp at h

theorem staticLiteral?_within {parts : List Tree} {literal : Tree} {form : Form}
    (h : staticLiteral? parts = some literal) : Within literal (.node form parts) := by
  unfold staticLiteral? at h
  split at h
  · split at h
    · exact .part (by simp) (objectLiteral?_within h)
    · simp at h
  · simp at h

theorem ownLiterals_within {t literal : Tree} (h : literal ∈ ownLiterals t) : Within literal t := by
  induction t using Tree.induction with
  | leaf a => cases h
  | node form parts ih =>
    have hparts (hmem : literal ∈ parts.flatMap ownLiterals) : Within literal (.node form parts) := by
      obtain ⟨part, hpart, hliteral⟩ := List.mem_flatMap.mp hmem
      exact .part hpart (ih part hpart hliteral)
    by_cases hdeclaration : form = .known .classDeclaration
    · subst hdeclaration
      rw [ownLiterals_classDeclaration] at h
      cases h
    · by_cases hproperty : form = .known .classProperty
      · subst hproperty
        rw [ownLiterals_classProperty, List.mem_append, Option.mem_toList] at h
        rcases h with hown | hinner
        · exact staticLiteral?_within hown
        · exact hparts hinner
      · rw [ownLiterals_node hdeclaration hproperty] at h
        exact hparts h

/-- A literal that an item has for a component stands in the item. -/
theorem within_of_mem_literalsIn {name : String} {item literal : Tree}
    (h : literal ∈ literalsIn name item) : Within literal item := by
  unfold literalsIn at h
  split at h
  · split at h
    · obtain ⟨part, hpart, hliteral⟩ := List.mem_flatMap.mp h
      exact (ownLiterals_within hliteral).trans (.of_mem_parts hpart)
    · cases h
  · next hshape =>
    split at h
    · rw [List.mem_singleton.mp h]
      exact within_of_propTypes hshape
    · cases h
  · cases h

theorem property?_within {t : Tree} {p : String × Tree} (h : property? t = some p) :
    Within p.2 t := by
  unfold property? at h
  split at h
  · rw [← Option.some.inj h]
    exact .part (by simp) (.refl _)
  · rw [← Option.some.inj h]
    exact .refl _
  · simp at h

theorem within_of_mem_writtenProperties {literal : Tree} {p : String × Tree}
    (h : p ∈ writtenProperties literal) : Within p.2 literal := by
  unfold writtenProperties at h
  split at h
  · obtain ⟨element, helement, hp⟩ := List.mem_filterMap.mp h
    exact .part (by simp) ((property?_within hp).trans (.of_mem_parts helement))
  · cases h

/-- What is written for a component stands in an item of the body. -/
theorem exists_within_of_mem_writtenFor {name : String} {body : List Tree} {p : String × Tree}
    (h : p ∈ writtenFor name body) : ∃ item ∈ body, Within p.2 item := by
  obtain ⟨literal, hliteral, hp⟩ := List.mem_flatMap.mp h
  obtain ⟨item, hitem, hin⟩ := List.mem_flatMap.mp hliteral
  exact ⟨item, (List.dropWhile_sublist _).mem hitem,
    (within_of_mem_writtenProperties hp).trans (within_of_mem_literalsIn hin)⟩

namespace Survey

variable {m : Module} {options : Options} {e : Entry}

/-- The value of a property is an expression of the module without its positions. -/
theorem exists_within_of_mem_properties (he : e ∈ (ofModule m options).registry.entries)
    {p : String × Tree} (hp : p ∈ e.properties) :
    ∃ item ∈ m.body, ∃ value, Within value item ∧ p.2 = value.eraseSpans := by
  obtain ⟨value, hwritten, heq⟩ := exists_written_of_mem_properties he hp
  have hmem : (p.1, value) ∈ writtenFor e.name m.body :=
    List.mem_reverse.mp (Record.mem_of_lookup hwritten)
  obtain ⟨item, hitem, hwithin⟩ := exists_within_of_mem_writtenFor hmem
  exact ⟨item, hitem, value, hwithin, heq⟩

/-- The value of a property mentions only identifiers of the module. -/
theorem identifiers_value_subset (he : e ∈ (ofModule m options).registry.entries)
    {p : String × Tree} (hp : p ∈ e.properties) : p.2.identifiers ⊆ m.identifiers := by
  obtain ⟨item, hitem, value, hwithin, heq⟩ := exists_within_of_mem_properties he hp
  intro x hx
  rw [heq, identifiers_eraseSpans] at hx
  exact List.mem_flatMap.mpr ⟨item, hitem, hwithin.identifiers_subset hx⟩

end Survey

end Component

end PropCatalog
