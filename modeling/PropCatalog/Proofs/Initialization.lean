import PropCatalog.Proofs.SecondRun

/-!
# Names that metadata reads before they are initialised

A `const` or `let` at the top level of a module can be read only behind its declaration.  The values
that are collected for a component are copied from where they are assigned to where the component is
declared, and so they may move in front of a declaration that they mention.

This file says when.  The metadata of a component stands right behind the last declaration of the
component, wherever its properties are assigned, and all items keep their order.  So it reads a name
early exactly if no item up to that declaration binds the name (`readsEarly_metadata_iff`).  The alias
is the one exception: it is replaced by the library, which is declared before all of them.
-/

namespace PropCatalog

open Component Metadata

namespace Tree

/-! ## Identifiers along chosen parts -/

/-- The spellings of the identifiers that are reached from the root through chosen parts. -/
def gather (chosen : Form → Nat → Bool) : Tree → List String :=
  fold (fun _ => []) fun form parts =>
    form.identifier?.toList ++
      (parts.mapIdx fun position names => if chosen form position then names else []).flatten

@[simp] theorem gather_leaf (chosen : Form → Nat → Bool) (a : Atom) :
    gather chosen (.leaf a) = [] := rfl

theorem gather_node (chosen : Form → Nat → Bool) (form : Form) (parts : List Tree) :
    gather chosen (.node form parts) =
      form.identifier?.toList ++
        (parts.mapIdx fun position t =>
          if chosen form position then gather chosen t else []).flatten := by
  rw [gather, fold_node, List.mapIdx_eq_zipIdx_map, List.mapIdx_eq_zipIdx_map, List.zipIdx_map,
    List.map_map]
  rfl

theorem mem_gather_node {chosen : Form → Nat → Bool} {form : Form} {parts : List Tree}
    {x : String} :
    x ∈ gather chosen (.node form parts) ↔
      form.identifier? = some x ∨
        ∃ position, chosen form position = true ∧
          ∃ t, parts[position]? = some t ∧ x ∈ gather chosen t := by
  rw [gather_node, List.mem_append, Option.mem_toList, List.mem_flatten]
  apply or_congr Iff.rfl
  constructor
  · rintro ⟨names, hnames, hx⟩
    obtain ⟨position, hposition, rfl⟩ := List.mem_mapIdx.mp hnames
    split at hx
    · next hchosen =>
      exact ⟨position, hchosen, parts[position], List.getElem?_eq_getElem hposition, hx⟩
    · cases hx
  · rintro ⟨position, hchosen, t, ht, hx⟩
    obtain ⟨hposition, rfl⟩ := List.getElem?_eq_some_iff.mp ht
    refine ⟨_, List.mem_mapIdx.mpr ⟨position, hposition, rfl⟩, ?_⟩
    rwa [if_pos hchosen]

theorem gather_subset_identifiers (chosen : Form → Nat → Bool) (t : Tree) :
    gather chosen t ⊆ t.identifiers := by
  induction t using Tree.induction with
  | leaf a => exact List.nil_subset _
  | node form parts ih =>
    intro x hx
    rcases mem_gather_node.mp hx with hown | ⟨_, _, t, ht, hx⟩
    · exact mem_identifiers_of_spelling? hown
    · have hpart := List.mem_of_getElem? ht
      exact mem_identifiers_of_mem_parts hpart (ih t hpart hx)

/-- Whether a node mentions what its part at a position mentions.  A name and a source position
mention nothing, and what stands in a function or a class is left out.  The key of a method stands
outside the method. -/
def Form.exposes : Form → Nat → Bool
  | .name _, _ => false
  | .known .functionDeclaration, _ | .known .functionExpression, _ | .known .arrowFunction, _
  | .known .classDeclaration, _ | .known .classExpression, _ => false
  | .known .methodProperty, position => position = 0
  | .known .getterProperty, position | .known .setterProperty, position => position = 1
  | .known kind, position => kind.fields[position]? ≠ some "span"
  | _, _ => true

/-- The identifiers that a tree mentions outside any function or class in it. -/
def mentions : Tree → List String := gather Form.exposes

/-- Whether the part of a pattern at a position holds names that the pattern binds. -/
def Form.holdsTarget : Form → Nat → Bool
  | .list, _ => true
  | .known .arrayPattern, position | .known .objectPattern, position
  | .known .assignmentPattern, position | .known .keyValuePattern, position
  | .known .assignmentPatternProperty, position => position = 1
  | .known .restElement, position => position = 2
  | _, _ => false

/-- The names that a pattern binds. -/
def targets : Tree → List String := gather Form.holdsTarget

/-- The names that a declarator binds. -/
def declaratorNames : Tree → List String
  | declarator _ target _ _ => target.targets
  | _ => []

/-- The names that a declaration binds if it is a `const` or a `let`. -/
def lexicalNames : Tree → List String
  | variableDeclaration _ _ (.leaf (.text keyword)) _ declarators =>
      if keyword = "const" ∨ keyword = "let" then declarators.parts.flatMap declaratorNames else []
  | _ => []

/-- The names that an item of a module binds as a `const` or a `let`, exported or not. -/
def itemNames : Tree → List String
  | .node (.known .exportDeclaration) [_, declaration] => declaration.lexicalNames
  | item => item.lexicalNames

theorem declaratorNames_subset_identifiers (t : Tree) : t.declaratorNames ⊆ t.identifiers := by
  intro x hx
  unfold declaratorNames at hx
  split at hx
  · exact mem_identifiers_of_mem_parts (by simp) (gather_subset_identifiers _ _ hx)
  · cases hx

theorem lexicalNames_subset_identifiers (t : Tree) : t.lexicalNames ⊆ t.identifiers := by
  intro x hx
  unfold lexicalNames at hx
  split at hx
  · next declarators =>
    split at hx
    · obtain ⟨declarator, hdeclarator, hx⟩ := List.mem_flatMap.mp hx
      have hinner : x ∈ declarators.identifiers :=
        (Within.of_mem_parts hdeclarator).identifiers_subset
          (declaratorNames_subset_identifiers declarator hx)
      exact mem_identifiers_of_mem_parts (by simp) hinner
    · cases hx
  · cases hx

/-- The names that an item binds are identifiers of it. -/
theorem itemNames_subset_identifiers (t : Tree) : t.itemNames ⊆ t.identifiers := by
  intro x hx
  unfold itemNames at hx
  split at hx
  · exact mem_identifiers_of_mem_parts (by simp) (lexicalNames_subset_identifiers _ hx)
  · exact lexicalNames_subset_identifiers _ hx

/-! ## Mentions under the passes -/

theorem mentions_node (form : Form) (parts : List Tree) :
    (Tree.node form parts).mentions =
      form.identifier?.toList ++
        (parts.mapIdx fun position t =>
          if form.exposes position then t.mentions else []).flatten :=
  gather_node _ _ _

theorem mem_mentions_node {form : Form} {parts : List Tree} {x : String} :
    x ∈ (Tree.node form parts).mentions ↔
      form.identifier? = some x ∨
        ∃ position, form.exposes position = true ∧
          ∃ t, parts[position]? = some t ∧ x ∈ t.mentions :=
  mem_gather_node

@[simp] theorem mentions_leaf (a : Atom) : (Tree.leaf a).mentions = [] := rfl

/-- A name mentions nothing. -/
@[simp] theorem mentions_name (x : String) (parts : List Tree) :
    (Tree.node (.name x) parts).mentions = [] := by
  have hexposes (position : Nat) : (Form.name x).exposes position = false := rfl
  simp [mentions_node, hexposes, Form.identifier?, List.mapIdx_eq_zipIdx_map]

theorem mentions_parenthesis (span e : Tree) : (parenthesis span e).mentions = e.mentions := by
  show e.mentions ++ [] = e.mentions
  rw [List.append_nil]

theorem mentions_member (span object property : Tree) :
    (member span object property).mentions = object.mentions ++ property.mentions := by
  show object.mentions ++ (property.mentions ++ []) = _
  rw [List.append_nil]

theorem mentions_keyValue (key value : Tree) :
    (keyValue key value).mentions = key.mentions ++ value.mentions := by
  show key.mentions ++ (value.mentions ++ []) = _
  rw [List.append_nil]

/-- A list mentions what its items mention. -/
theorem mem_mentions_list {items : List Tree} {x : String} :
    x ∈ (list items).mentions ↔ ∃ t ∈ items, x ∈ t.mentions := by
  rw [mem_mentions_node]
  constructor
  · rintro (hown | ⟨_, _, t, ht, hx⟩)
    · cases hown
    · exact ⟨t, List.mem_of_getElem? ht, hx⟩
  · rintro ⟨t, ht, hx⟩
    obtain ⟨position, hposition⟩ := List.getElem?_of_mem ht
    exact Or.inr ⟨position, rfl, t, hposition, hx⟩

/-- Erasing keeps what is mentioned. -/
theorem mem_mentions_eraseSpans {t : Tree} {x : String} :
    x ∈ t.eraseSpans.mentions ↔ x ∈ t.mentions := by
  induction t using Tree.induction with
  | leaf a => rfl
  | node form parts ih =>
    have hpart (position : Nat) :
        (∃ t, (parts.map eraseSpans)[position]? = some t ∧ x ∈ t.mentions) ↔
          ∃ t, parts[position]? = some t ∧ x ∈ t.mentions := by
      rw [List.getElem?_map]
      cases hold : parts[position]? with
      | none => simp
      | some t => simpa using ih t (List.mem_of_getElem? hold)
    rw [eraseSpans_node, mem_mentions_node, mem_mentions_node]
    simp only [hpart]

/-- Parentheses mention what stands in them. -/
theorem mem_mentions_unparen {t : Tree} {x : String} :
    x ∈ t.unparen.mentions ↔ x ∈ t.mentions := by
  induction t using unparen_induction with
  | bare t hbare => rw [unparen_eq_self hbare]
  | parenthesis span e ih =>
    rw [unparen_parenthesis, mentions_parenthesis, ih]

end Tree

namespace Metadata

open Tree

variable {aliasName library x : String}

theorem mentions_requiredCall (library : String) (validator : Tree) :
    (requiredCall library validator).mentions = library :: validator.mentions := by
  show library :: (((validator.mentions ++ []) ++ []) ++ []) = _
  simp only [List.append_nil]

/-- Settling adds mentions of the library only, and loses none. -/
theorem mem_mentions_settle (hx : x ≠ library) {t : Tree} :
    x ∈ (settle library t).mentions ↔ x ∈ t.mentions := by
  unfold settle
  split
  · next span validator p parts =>
    split
    · rw [mentions_member, mentions_name, List.append_nil, mentions_requiredCall, List.mem_cons,
        mem_mentions_unparen]
      exact or_iff_right hx
    · rfl
  · rfl

/-- Retargeting replaces mentions of the alias by mentions of the library, and keeps all others. -/
theorem mem_mentions_retargetPlace (hx : x ≠ library) {t : Tree} :
    x ∈ (retargetPlace aliasName library t).mentions ↔ x ∈ t.mentions ∧ x ≠ aliasName := by
  induction t using Tree.induction with
  | leaf a => simp
  | node form parts ih =>
    have hown : (form.rename aliasName library).identifier? = some x ↔
        form.identifier? = some x ∧ x ≠ aliasName := by
      rw [identifier?_rename]
      cases form.identifier? with
      | none => simp
      | some y =>
        simp only [Option.map_some, Option.some.injEq, renamed]
        split
        · next halias =>
          exact ⟨fun h => absurd h.symm hx, fun h => absurd (h.1.symm.trans halias) h.2⟩
        · next hother => exact ⟨fun h => ⟨h, h ▸ hother⟩, And.left⟩
    -- Only identifiers are renamed, so the node exposes the same parts as before.
    have hexposes (position : Nat) :
        (form.rename aliasName library).exposes position = form.exposes position := by
      cases form <;> rfl
    -- A part has been settled or left as it was, which is the same to a name other than the library.
    have hpart (position : Nat) :
        (∃ t, (settleParts library form (parts.map (retargetPlace aliasName library)))[position]?
            = some t ∧ x ∈ t.mentions) ↔
          ∃ t, parts[position]? = some t ∧ x ∈ t.mentions ∧ x ≠ aliasName := by
      rw [settleParts, List.getElem?_mapIdx, List.getElem?_map]
      cases hold : parts[position]? with
      | none => simp
      | some t =>
        have ht := ih t (List.mem_of_getElem? hold)
        simp only [Option.map_some, Option.some.injEq, exists_eq_left']
        split
        · exact ht
        · rw [mem_mentions_settle hx]
          exact ht
    rw [retargetPlace_node, mem_mentions_node, mem_mentions_node, hown]
    simp only [hexposes, hpart]
    by_cases hne : x = aliasName <;> simp [hne]

theorem mem_mentions_retarget (hx : x ≠ library) {t : Tree} :
    x ∈ (retarget aliasName library t).mentions ↔ x ∈ t.mentions ∧ x ≠ aliasName := by
  rw [retarget, mem_mentions_settle hx, mem_mentions_retargetPlace hx]

/-! ## What metadata mentions -/

theorem mem_mentions_objectOf {properties : List (String × Tree)} :
    x ∈ (objectOf properties).mentions ↔ ∃ p ∈ properties, x ∈ p.2.mentions := by
  have hobject : (objectOf properties).mentions =
      (Tree.list (properties.map fun p => .keyValue (plainName p.1) p.2)).mentions := by
    show (Tree.list (properties.map fun p => .keyValue (plainName p.1) p.2)).mentions ++ [] = _
    rw [List.append_nil]
  rw [hobject, mem_mentions_list]
  simp [mentions_keyValue, plainName]

theorem mem_mentions_description {properties : Record Tree} :
    x ∈ (description properties).mentions ↔ ∃ p ∈ properties, x ∈ p.2.mentions := by
  simp [description, mem_mentions_objectOf]

theorem mentions_assignMember (object name : String) (value : Tree) :
    (assignMember object name value).mentions = object :: value.mentions := by
  show object :: ((value.mentions ++ []) ++ []) = _
  simp only [List.append_nil]

end Metadata

namespace Component

/-- Apart from the library, metadata mentions the component and what its values mention, without the
alias. -/
theorem Entry.mem_mentions_metadata {field aliasName library x : String} (hx : x ≠ library)
    (e : Entry) :
    x ∈ (e.metadata field aliasName library).mentions ↔
      (x = e.name ∨ ∃ p ∈ e.properties, x ∈ p.2.mentions) ∧ x ≠ aliasName := by
  rw [Entry.metadata, mem_mentions_retarget hx, Tree.mem_mentions_eraseSpans,
    mentions_assignMember, List.mem_cons, mem_mentions_description]

/-! ## Collected values -/

/-- A value is collected for a property of a component from the item at a position: the item assigns
it, and the component has been declared before. -/
def CollectedAt (body : List Tree) (name property : String) (position : Nat) (value : Tree) :
    Prop :=
  ∃ literal, body[position]?.map Shape.ofItem = some (.propTypes name literal) ∧
    (property, value) ∈ writtenProperties literal ∧
    name ∈ (body.take position).filterMap declaredName?

/-- What is collected from an item is written for the component. -/
theorem CollectedAt.mem_writtenFor {body : List Tree} {name property : String} {position : Nat}
    {value : Tree} (h : CollectedAt body name property position value) :
    (property, value) ∈ writtenFor name body := by
  obtain ⟨literal, hshape, hwritten, hdeclared⟩ := h
  obtain ⟨item, hitem, hshape⟩ := Option.map_eq_some_iff.mp hshape
  refine List.mem_flatMap.mpr ⟨literal, List.mem_flatMap.mpr ⟨item, ?_, ?_⟩, hwritten⟩
  · -- A declaration stands before the item, so it is not dropped with the items before that one.
    have hkept :
        (body.take position).dropWhile (fun item => declaredName? item ≠ some name) ≠ [] := by
      obtain ⟨declarer, hdeclarer, hname⟩ := List.mem_filterMap.mp hdeclared
      intro hnil
      have hnone := List.dropWhile_eq_nil_iff.mp hnil declarer hdeclarer
      simp [hname] at hnone
    have hbehind : item ∈ body.drop position := by
      rw [List.mem_iff_getElem?]
      exact ⟨0, by rwa [List.getElem?_drop]⟩
    rw [← List.take_append_drop position body, List.dropWhile_append, if_neg (by simpa using hkept)]
    exact List.mem_append_right _ hbehind
  · rw [literalsIn, hshape]
    simp

/-- A component that a value is collected for has an entry with properties. -/
theorem CollectedAt.exists_entry {m : Module} {name property : String} {position : Nat}
    {value : Tree} (h : CollectedAt m.body name property position value) (options : Options) :
    ∃ e ∈ (Survey.ofModule m options).registry.entries, e.name = name ∧
      e.hasProperties = true := by
  have hname : name ∈ (Survey.ofModule m options).registry.names := by
    rw [(Survey.describes_ofModule m options).names_eq, Survey.registered_history,
      List.mem_eraseDups]
    obtain ⟨_, _, _, hdeclared⟩ := h
    exact ((List.take_sublist position m.body).filterMap declaredName?).mem hdeclared
  obtain ⟨e, he, rfl⟩ := List.mem_map.mp hname
  have hproperty : property ∈ e.propertyNames := by
    rw [Survey.propertyNames_eq he, List.mem_eraseDups]
    exact List.mem_map_of_mem h.mem_writtenFor
  refine ⟨e, he, rfl, ?_⟩
  cases hproperties : e.properties with
  | nil =>
    rw [Entry.propertyNames, hproperties] at hproperty
    cases hproperty
  | cons p rest => rw [Entry.hasProperties, hproperties]; rfl

end Component

namespace Module

/-! ## Where names are bound -/

/-- The names that the item at a position binds as a `const` or a `let`. -/
def boundAt (body : List Tree) (position : Nat) : List String :=
  (body[position]?.map Tree.itemNames).getD []

/-- The item at a position mentions a name that is bound by a `const` or a `let` of the body, but not
by one that stands before the item.  If the item is an expression, its evaluation comes to the name
before the name is initialised. -/
def ReadsEarly (body : List Tree) (position : Nat) (x : String) : Prop :=
  x ∈ (body[position]?.map Tree.mentions).getD [] ∧ x ∈ body.flatMap Tree.itemNames ∧
    ∀ i < position, x ∉ boundAt body i

instance (body : List Tree) (position : Nat) (x : String) :
    Decidable (ReadsEarly body position x) :=
  inferInstanceAs (Decidable (_ ∧ _ ∧ _))

theorem mem_boundAt {body : List Tree} {position : Nat} {x : String} :
    x ∈ boundAt body position ↔ ∃ item, body[position]? = some item ∧ x ∈ item.itemNames := by
  unfold boundAt
  cases body[position]? <;> simp

theorem mem_itemNames_of_mem_boundAt {body : List Tree} {position : Nat} {x : String}
    (h : x ∈ boundAt body position) : x ∈ body.flatMap Tree.itemNames := by
  obtain ⟨item, hitem, hx⟩ := mem_boundAt.mp h
  exact List.mem_flatMap.mpr ⟨item, List.mem_of_getElem? hitem, hx⟩

theorem itemNames_of_isDirective {item : Tree} (h : isDirective item = true) :
    item.itemNames = [] := by
  unfold isDirective at h
  split at h
  · rfl
  · cases h

theorem itemNames_library (name : String) : (library name).itemNames = [name] := by
  simp [library, constant, binding, Tree.itemNames, Tree.lexicalNames, Tree.declaratorNames,
    Tree.targets, Tree.gather_node, Tree.Form.holdsTarget, Tree.Form.identifier?, Tree.parts]

theorem itemNames_metadata (field aliasName library : String) (e : Entry) :
    (e.metadata field aliasName library).itemNames = [] := by
  rw [Entry.metadata_eq]
  rfl

variable {m : Module} {options : Options} {x : String}

/-- A bound name is an identifier of the module, so it is not the library. -/
theorem ne_library_of_mem_boundAt {position : Nat} (h : x ∈ boundAt m.body position) :
    x ≠ (m.attach options).1.library := by
  rintro rfl
  obtain ⟨item, hitem, hx⟩ := mem_boundAt.mp h
  exact freshName_notMem m options.libraryBaseName (List.mem_flatMap.mpr
    ⟨item, List.mem_of_getElem? hitem, Tree.itemNames_subset_identifiers item hx⟩)

theorem prologueLength_le_of_mem_boundAt {position : Nat} (h : x ∈ boundAt m.body position) :
    prologueLength m.body ≤ position := by
  obtain ⟨item, hitem, hx⟩ := mem_boundAt.mp h
  refine prologueLength_le_of_not_isDirective hitem ?_
  cases hdirective : isDirective item with
  | false => rfl
  | true =>
    rw [itemNames_of_isDirective hdirective] at hx
    cases hx

/-- An item that binds a name stands at its shifted position. -/
theorem attach_body_of_mem_boundAt (options : Options) {position : Nat}
    (h : x ∈ boundAt m.body position) :
    (m.attach options).2.body[shifted (m.insertions options) position]? = m.body[position]? := by
  obtain ⟨item, hitem, _⟩ := mem_boundAt.mp h
  exact m.attach_body_shifted options (prologueLength_le_of_mem_boundAt h)
    (List.getElem?_eq_some_iff.mp hitem).1

/-- Apart from the library, the new body binds what the old one binds, at shifted positions. -/
theorem mem_boundAt_attach (hx : x ≠ (m.attach options).1.library) {position : Nat} :
    x ∈ boundAt (m.attach options).2.body position ↔
      ∃ old, position = shifted (m.insertions options) old ∧ x ∈ boundAt m.body old := by
  constructor
  · intro h
    obtain ⟨item, hitem, hbinds⟩ := mem_boundAt.mp h
    rw [attach_body] at hitem
    -- Of all that was inserted, only the library binds a name.
    rcases getElem?_splice (m.prologueLength_le_of_mem_insertions options) hitem with
      hdirective | rfl | ⟨i, hi, rfl⟩ | ⟨old, hold, hposition⟩
    · rw [itemNames_of_isDirective hdirective] at hbinds
      cases hbinds
    · rw [itemNames_library] at hbinds
      exact absurd (List.mem_singleton.mp hbinds) hx
    · have hstatement := List.mem_map_of_mem (f := Insertion.statement) hi
      rw [map_statement_insertions] at hstatement
      obtain ⟨e, _, heq⟩ := List.mem_map.mp hstatement
      rw [← heq, itemNames_metadata] at hbinds
      cases hbinds
    · exact ⟨old, hposition, mem_boundAt.mpr ⟨item, hold, hbinds⟩⟩
  · rintro ⟨old, rfl, hbound⟩
    rw [boundAt, attach_body_of_mem_boundAt options hbound]
    exact hbound

/-- When metadata reads a name of the module early: it mentions the name, and no item up to the last
declaration of the component binds it. -/
theorem readsEarly_metadata_iff {e : Entry}
    (he : e ∈ (Survey.ofModule m options).registry.entries) (hproperties : e.hasProperties = true)
    {position : Nat} (hbound : x ∈ boundAt m.body position) :
    ReadsEarly (m.attach options).2.body (shifted (m.insertions options) e.anchor + 1) x ↔
      ((x = e.name ∨ ∃ p ∈ e.properties, x ∈ p.2.mentions) ∧ x ≠ (m.attach options).1.alias) ∧
        ∀ i ≤ e.anchor, x ∉ boundAt m.body i := by
  have hx : x ≠ (m.attach options).1.library := ne_library_of_mem_boundAt hbound
  have hstill : x ∈ (m.attach options).2.body.flatMap Tree.itemNames :=
    mem_itemNames_of_mem_boundAt ((mem_boundAt_attach hx).mpr ⟨position, rfl, hbound⟩)
  have hmonotone := shifted_strictMono (m.insertions options)
  -- Before the metadata stand the items up to the anchor, and nothing else that binds the name.
  have hbefore : (∀ i < shifted (m.insertions options) e.anchor + 1,
        x ∉ boundAt (m.attach options).2.body i) ↔
      ∀ i ≤ e.anchor, x ∉ boundAt m.body i := by
    constructor
    · intro h i hi hmem
      exact h _ (Nat.lt_succ_of_le (hmonotone.monotone hi)) ((mem_boundAt_attach hx).mpr
        ⟨i, rfl, hmem⟩)
    · intro h i hi hmem
      obtain ⟨old, rfl, hold⟩ := (mem_boundAt_attach hx).mp hmem
      exact h old (hmonotone.le_iff_le.mp (Nat.le_of_lt_succ hi)) hold
  rw [ReadsEarly, (attach_body_at he hproperties).2, Option.map_some, Option.getD_some,
    e.mem_mentions_metadata hx, hbefore]
  exact and_congr_right fun _ => and_iff_right hstill

/-- Metadata and the names its values mention.  A value is collected for a component from a later
assignment, and mentions a name that a `const` or `let` before the assignment binds, so that the
assignment does not read it early.  The metadata of the component stands right behind the last
declaration of the component, and the item that binds the name where its shifted position says.  So
the metadata stands behind that item exactly if it is not behind the last declaration of the
component, and then the metadata does not read the name early.  As long as the value is not replaced
by a later one, the metadata reads the name early exactly if the name is not the alias and no item up
to that declaration binds it. -/
theorem attach_readsEarly_iff {name property : String} {value : Tree} {k j : Nat}
    (hcollected : CollectedAt m.body name property k value) (hmentioned : x ∈ value.mentions)
    (hbound : x ∈ boundAt m.body j) (hbefore : j < k) :
    let new := (m.attach options).2.body
    let place := shifted (m.insertions options)
    ¬ ReadsEarly m.body k x ∧
    ∃ e ∈ (Survey.ofModule m options).registry.entries,
      e.name = name ∧ LastDeclared m.body name e.kind e.anchor ∧
      new[place e.anchor]? = m.body[e.anchor]? ∧
      new[place e.anchor + 1]? = some (e.metadata options.metadataField (m.attach options).1.alias
        (m.attach options).1.library) ∧
      new[place j]? = m.body[j]? ∧
      (place j < place e.anchor + 1 ↔ j ≤ e.anchor) ∧
      (j ≤ e.anchor → ¬ ReadsEarly new (place e.anchor + 1) x) ∧
      ((property, value.eraseSpans) ∈ e.properties →
        (ReadsEarly new (place e.anchor + 1) x ↔
          x ≠ (m.attach options).1.alias ∧ ∀ i ≤ e.anchor, x ∉ boundAt m.body i)) := by
  intro new place
  obtain ⟨e, he, rfl, hproperties⟩ := hcollected.exists_entry options
  obtain ⟨hdeclaration, hmetadata⟩ := attach_body_at he hproperties
  have hreads := readsEarly_metadata_iff he hproperties hbound
  refine ⟨fun hearly => hearly.2.2 j hbefore hbound, e, he, rfl,
    Survey.lastDeclared_of_mem he, hdeclaration, hmetadata,
    attach_body_of_mem_boundAt options hbound, ?_, ?_, ?_⟩
  · exact Nat.lt_succ_iff.trans (shifted_strictMono (m.insertions options)).le_iff_le
  · intro hj hearly
    exact (hreads.mp hearly).2 j hj hbound
  · intro hkept
    have hmentions : x = e.name ∨ ∃ p ∈ e.properties, x ∈ p.2.mentions :=
      Or.inr ⟨_, hkept, Tree.mem_mentions_eraseSpans.mpr hmentioned⟩
    rw [hreads, and_iff_right hmentions]

/-- `const shape = PropTypes.any;`, `function Panel() {}`, `const size = shape;` and
`Panel.propTypes = { a: shape, b: size };` -/
def panelBetween : Module where
  span := noSpan
  body :=
    constant "shape" (memberOf (reference "PropTypes") "any") ::
      (described "Panel").body.take 1 ++
      [constant "size" (reference "shape"),
       assignMember "Panel" propTypesField
        (objectOf [("a", reference "shape"), ("b", reference "size")])]
  interpreter := .null

/-- What is declared before the component can be read by its metadata. -/
theorem attach_panelBetween_shape :
    CollectedAt panelBetween.body "Panel" "a" 3 (reference "shape") ∧
    "shape" ∈ (reference "shape").mentions ∧ "shape" ∈ boundAt panelBetween.body 0 ∧
    ∃ e ∈ (Survey.ofModule panelBetween {}).registry.entries,
      LastDeclared panelBetween.body "Panel" e.kind e.anchor ∧
      shifted (panelBetween.insertions {}) 0 < shifted (panelBetween.insertions {}) e.anchor + 1 ∧
      ¬ ReadsEarly (panelBetween.attach {}).2.body
        (shifted (panelBetween.insertions {}) e.anchor + 1) "shape" := by
  have hcollected : CollectedAt panelBetween.body "Panel" "a" 3 (reference "shape") :=
    ⟨_, rfl, by decide +kernel, by decide +kernel⟩
  have hmentioned : "shape" ∈ (reference "shape").mentions := by decide +kernel
  have hbound : "shape" ∈ boundAt panelBetween.body 0 := by decide +kernel
  obtain ⟨_, e, he, _, hlast, _, _, _, hbehind, hread, _⟩ :=
    attach_readsEarly_iff hcollected hmentioned hbound (by decide)
  exact ⟨hcollected, hmentioned, hbound, e, he, hlast, hbehind.mpr (Nat.zero_le _),
    hread (Nat.zero_le _)⟩

/-- The metadata stands before what is declared between the component and the assignment, and reads it
early, where the assignment does not. -/
theorem attach_panelBetween_size :
    CollectedAt panelBetween.body "Panel" "b" 3 (reference "size") ∧
    "size" ∈ (reference "size").mentions ∧ "size" ∈ boundAt panelBetween.body 2 ∧
    ¬ ReadsEarly panelBetween.body 3 "size" ∧
    (panelBetween.attach {}).2.body[3]?.bind assignedMember? = some ("Panel", "__metadata") ∧
    (panelBetween.attach {}).2.body[4]? = panelBetween.body[2]? ∧
    ReadsEarly (panelBetween.attach {}).2.body 3 "size" :=
  ⟨⟨_, rfl, by decide +kernel, by decide +kernel⟩, by decide +kernel⟩

end Module

end PropCatalog
