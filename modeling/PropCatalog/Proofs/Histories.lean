import PropCatalog.Proofs.Properties

/-!
# What a history leaves in a registry

The order of a registry and the order of a component's properties are fixed by what comes first in
the history, while kinds, anchors and values are fixed by what comes last.  This file says both for
every history of registrations and collected literals, however they are interleaved.

The first half is about one operation: entries and the names of their properties keep their places,
new ones are added at the end, and only the entry that the operation names can change
(`Registry.exists_entry_apply`).  The second half reads the whole registry off its history.
-/

namespace PropCatalog.Component

/-! ## Literals -/

/-- The elements of an object literal. -/
def elements : Tree → List Tree
  | .object _ properties => properties.parts
  | _ => []

/-- An element of an object literal declares a property: a value under a key that is a plain name, or
a shorthand, which is its own value. -/
inductive Declares : Tree → String → Tree → Prop
  | keyed (key : String) (parts : List Tree) (value : Tree) :
      Declares (.keyValue (.node (.name key) parts) value) key value
  | shorthand (x : String) (parts : List Tree) :
      Declares (.node (.identifier x) parts) x (.node (.identifier x) parts)

theorem property?_eq_some_iff {element : Tree} {name : String} {value : Tree} :
    property? element = some (name, value) ↔ Declares element name value := by
  constructor
  · intro h
    unfold property? at h
    split at h
    · obtain ⟨rfl, rfl⟩ := Prod.mk.inj (Option.some.inj h)
      exact .keyed _ _ _
    · obtain ⟨rfl, rfl⟩ := Prod.mk.inj (Option.some.inj h)
      exact .shorthand _ _
    · cases h
  · rintro (⟨_, _, _⟩ | ⟨_, _⟩) <;> rfl

theorem writtenProperties_eq_filterMap (literal : Tree) :
    writtenProperties literal = (elements literal).filterMap property? := by
  unfold writtenProperties
  split
  · rw [elements]
  · next h =>
    rw [elements]
    · rfl
    · exact h

/-- The elements that count are those that declare a property. -/
theorem length_writtenProperties (literal : Tree) :
    (writtenProperties literal).length =
      (elements literal).countP fun element => (property? element).isSome := by
  rw [writtenProperties_eq_filterMap, List.length_filterMap_eq_countP]

/-! ## Names of properties keep their places -/

/-- Giving names values adds names at the end and moves none. -/
theorem Record.names_prefix_setAll {α : Type} (pairs : List (String × α)) (r : Record α) :
    r.names <+: (setAll pairs r).names := by
  induction pairs generalizing r with
  | nil => exact List.prefix_refl _
  | cons p pairs ih =>
    have hset : r.names <+: (r.set p.1 p.2).names := by
      rw [names_set]
      split
      · exact List.prefix_refl _
      · exact List.prefix_append _ _
    exact hset.trans (ih (r.set p.1 p.2))

theorem Entry.propertyNames_prefix_collect (e : Entry) (literal : Tree) :
    e.propertyNames <+: (e.collect literal).propertyNames :=
  Record.names_prefix_setAll (declaredProperties literal) e.properties

/-- The name of the component that an operation is about. -/
def Operation.name : Operation → String
  | .register name _ _ => name
  | .collect name _ => name

namespace Registry

theorem getElem?_entries_modify (r : Registry) (name : String) (f : Entry → Entry) (i : Nat) :
    (r.modify name f).entries[i]? =
      r.entries[i]?.map fun e => if e.name = name then f e else e :=
  List.getElem?_map

/-- A change to a component that is not there changes nothing. -/
theorem modify_eq_self {r : Registry} {name : String} (hname : name ∉ r.names)
    (f : Entry → Entry) : r.modify name f = r := by
  have hentries : (r.entries.map fun e => if e.name = name then f e else e) = r.entries := by
    conv => rhs; rw [← List.map_id r.entries]
    apply List.map_congr_left
    intro e he
    exact if_neg fun heq => hname (mem_names.mpr ⟨e, he, heq⟩)
  rw [modify, hentries]

/-- What one operation can do to an entry.  The entry keeps its place and its name, its properties
keep theirs, and it changes only if the operation names it. -/
theorem exists_entry_apply {r : Registry} (op : Operation) {i : Nat} {e : Entry}
    (he : r.entries[i]? = some e) :
    ∃ e', (op.apply r).entries[i]? = some e' ∧ e'.name = e.name ∧
      e.propertyNames <+: e'.propertyNames ∧ (op.name ≠ e.name → e' = e) := by
  have hmodify (name : String) (f : Entry → Entry)
      (hf : (f e).name = e.name ∧ e.propertyNames <+: (f e).propertyNames) :
      ∃ e', (r.modify name f).entries[i]? = some e' ∧ e'.name = e.name ∧
        e.propertyNames <+: e'.propertyNames ∧ (name ≠ e.name → e' = e) := by
    refine ⟨if e.name = name then f e else e, ?_, ?_⟩
    · rw [getElem?_entries_modify, he, Option.map_some]
    · split
      · next hname => exact ⟨hf.1, hf.2, fun hne => absurd hname.symm hne⟩
      · exact ⟨rfl, List.prefix_refl _, fun _ => rfl⟩
  cases op with
  | collect name literal =>
    exact hmodify name _ ⟨rfl, e.propertyNames_prefix_collect literal⟩
  | register name kind anchor =>
    change ∃ e', (r.register name kind anchor).entries[i]? = some e' ∧ _
    unfold register
    split
    · exact hmodify name _ ⟨rfl, List.prefix_refl _⟩
    · have hlt := (List.getElem?_eq_some_iff.mp he).1
      refine ⟨e, ?_, rfl, List.prefix_refl _, fun _ => rfl⟩
      rw [List.getElem?_append_left hlt, he]

/-- An operation adds names at the end and moves none. -/
theorem names_prefix_apply (r : Registry) (op : Operation) : r.names <+: (op.apply r).names := by
  cases op with
  | collect name literal =>
    exact (names_collect r name literal).symm ▸ List.prefix_refl r.names
  | register name kind anchor =>
    change r.names <+: (r.register name kind anchor).names
    rw [names_register]
    split
    · exact List.prefix_refl _
    · exact List.prefix_append _ _

/-! ## The registry after a history -/

/-- The properties written for a component in the literals that were collected for it since it was
first registered, in the order of the history and with repetitions. -/
def writtenSince (name : String) (history : List Operation) : List (String × Tree) :=
  (literalsSince name history).flatMap writtenProperties

theorem Describes.properties_eq_setAll {history : List Operation} {r : Registry}
    (h : Describes history r) {e : Entry} (he : e ∈ r.entries) :
    e.properties =
      Record.setAll ((writtenSince e.name history).map fun p => (p.1, p.2.eraseSpans)) [] := by
  have hcollected := congrArg Entry.properties (h.collected e he)
  have hdeclared : declaredProperties =
      fun literal => (writtenProperties literal).map fun p => (p.1, p.2.eraseSpans) :=
    funext declaredProperties_eq_map
  rw [hcollected, Entry.properties_foldl_collect, hdeclared, writtenSince, List.map_flatMap]

/-- The entry that a history makes for a name. -/
def entryOf (history : List Operation) (name : String) : Entry :=
  let last := (history.filterMap (Operation.registration? name)).getLast?.getD (.classDeclaration, 0)
  (literalsSince name history).foldl Entry.collect ⟨name, last.1, last.2, []⟩

/-- A registry is known by its names and its history. -/
theorem Describes.entries_eq {history : List Operation} {r : Registry} (h : Describes history r) :
    r.entries = r.names.map (entryOf history) := by
  unfold names
  rw [List.map_map]
  conv => lhs; rw [← List.map_id r.entries]
  apply List.map_congr_left
  intro e he
  change e = entryOf history e.name
  rw [entryOf, h.registration e he]
  exact h.collected e he

/-- What every history of operations leaves in a registry that was empty.

The names of the components are pairwise distinct and in the order of their first registrations.  An
entry has the kind and the anchor of the last registration of its name.  The names of its properties
are pairwise distinct and in the order in which they were first written since the component was first
registered, and the value of each is the one written last, without its positions.  Whatever operation
comes next, no entry and no property loses its place, and no entry changes but the one that the
operation names; collecting for an unknown component changes nothing, and for a known one it takes as
many properties as the literal has elements that declare one. -/
theorem run_empty_reading (history : List Operation) :
    let r := empty.run history
    (r.names = (history.filterMap Operation.registered?).eraseDups ∧ r.names.Nodup) ∧
    (∀ e ∈ r.entries,
      (history.filterMap (Operation.registration? e.name)).getLast? = some (e.kind, e.anchor) ∧
      e.propertyNames = ((writtenSince e.name history).map Prod.fst).eraseDups ∧
      e.propertyNames.Nodup ∧
      ∀ property, e.properties.lookup property =
        ((writtenSince e.name history).reverse.lookup property).map Tree.eraseSpans) ∧
    (∀ op : Operation,
      r.names <+: (op.apply r).names ∧
      ∀ (i : Nat) (e : Entry), r.entries[i]? = some e →
        ∃ e', (op.apply r).entries[i]? = some e' ∧ e'.name = e.name ∧
          e.propertyNames <+: e'.propertyNames ∧ (op.name ≠ e.name → e' = e)) ∧
    (∀ name literal,
      (name ∉ r.names → r.collect name literal = r ∧ r.taken? name literal = none) ∧
      (name ∈ r.names → r.taken? name literal =
        some ((elements literal).countP fun element => (property? element).isSome))) ∧
    ∀ element name value, property? element = some (name, value) ↔ Declares element name value := by
  intro r
  have hdescribes : Describes history r := describes_run history
  refine ⟨⟨hdescribes.names_eq, hdescribes.names_nodup⟩, ?_, ?_, ?_, ?_⟩
  · intro e he
    have hproperties := hdescribes.properties_eq_setAll he
    refine ⟨hdescribes.registration e he, ?_, ?_, ?_⟩
    · rw [Entry.propertyNames, hproperties, Record.names_setAll, List.map_map]
      rfl
    · rw [Entry.propertyNames, hproperties]
      exact Record.nodup_names_setAll _
    · intro property
      rw [hproperties, Record.lookup_setAll, ← List.map_reverse, Record.lookup_map]
  · intro op
    exact ⟨r.names_prefix_apply op, fun i e he => exists_entry_apply op he⟩
  · intro name literal
    constructor
    · intro hname
      exact ⟨modify_eq_self hname _, if_neg hname⟩
    · intro hname
      rw [taken?, if_pos hname, declaredProperties_eq_map, List.length_map,
        length_writtenProperties]
  · intro element name value
    exact property?_eq_some_iff

end Registry

end PropCatalog.Component
