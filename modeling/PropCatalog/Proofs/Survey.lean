import PropCatalog.Component.Survey
import PropCatalog.Proofs.Registry
import PropCatalog.Proofs.StaticFields

/-!
# What a survey finds

A survey is one pass that changes an alias and a registry.  This file gives what it finds without
the pass, by looking at the body of the module as a whole:

* the components are the names of all items that declare one, in order of first occurrence;
* the kind and the anchor of a component are those of the last item that declares it;
* its properties come from the static literals of the classes of that name and from the literals
  assigned to it after the first item that declares it (`literalsFor`);
* the alias is the last one that an import of the library gives.

The registry is treated through its history: every item stands for a list of operations
(`Survey.operations`), and the pass runs them one after the other (`observeAll_registry`).
-/

namespace PropCatalog.Component

/-! ## What an item says -/

/-- The component that an item declares, with how it does so. -/
def declaration? (item : Tree) : Option (Kind × String) :=
  match Shape.ofItem item with
  | .component kind name => some (kind, name)
  | _ => none

/-- The name of the component that an item declares. -/
def declaredName? (item : Tree) : Option String := (declaration? item).map Prod.snd

/-- The local name that an item gives to the default export of the library. -/
def libraryName? (librarySource : String) (item : Tree) : Option String :=
  match Shape.ofItem item with
  | .importing i => if i.source = some librarySource then i.defaultName else none
  | _ => none

/-- The literals that an item has for a component: the static literals of a class of that name, or
the literal assigned to the component. -/
def literalsIn (name : String) (item : Tree) : List Tree :=
  match Shape.ofItem item with
  | .component .classDeclaration n => if n = name then staticLiterals item else []
  | .propTypes n literal => if n = name then [literal] else []
  | _ => []

/-- The literals that a body has for a component, in document order.  Items before the first
declaration of the component are left out; none of them can be a class of that name, so it is
early assignments that this loses. -/
def literalsFor (name : String) (body : List Tree) : List Tree :=
  (body.dropWhile fun item => declaredName? item ≠ some name).flatMap (literalsIn name)

/-- The item at a position is the last that declares a component. -/
def LastDeclared (body : List Tree) (name : String) (kind : Kind) (position : Nat) : Prop :=
  body[position]?.bind declaration? = some (kind, name) ∧
    ∀ later, position < later → body[later]?.bind declaredName? ≠ some name

theorem declaration?_eq_some_iff {item : Tree} {kind : Kind} {name : String} :
    declaration? item = some (kind, name) ↔ Shape.ofItem item = .component kind name := by
  unfold declaration?
  cases Shape.ofItem item <;> simp

theorem declaredName?_eq_some_iff {item : Tree} {name : String} :
    declaredName? item = some name ↔ ∃ kind, declaration? item = some (kind, name) := by
  simp [declaredName?, Option.map_eq_some_iff]

/-- What the last declaration is does not depend on the items before it. -/
theorem LastDeclared.cons {item : Tree} {items : List Tree} {name : String} {kind : Kind}
    {position : Nat} (h : LastDeclared items name kind position) :
    LastDeclared (item :: items) name kind (position + 1) := by
  refine ⟨?_, ?_⟩
  · rw [List.getElem?_cons_succ]
    exact h.1
  · intro later hlater
    obtain ⟨later, rfl⟩ : ∃ n, later = n + 1 := ⟨later - 1, by omega⟩
    rw [List.getElem?_cons_succ]
    exact h.2 later (by omega)

/-- A class that declares a component is the declaration of a class. -/
theorem eq_classDeclaration {item : Tree} {name : String}
    (h : Shape.ofItem item = .component .classDeclaration name) :
    ∃ parts, item = .node (.known .classDeclaration) parts := by
  unfold Shape.ofItem at h
  split at h
  · split at h <;> simp at h
  · exact ⟨_, rfl⟩
  · simp at h
  · split at h <;> simp at h
  · split at h <;> simp at h
  · simp at h

namespace Survey

/-! ## The history behind a survey -/

/-- The operations that an item at a position stands for. -/
def operations (position : Nat) (item : Tree) : List Operation :=
  match Shape.ofItem item with
  | .component kind name =>
      .register name kind position ::
        match kind with
        | .classDeclaration => (staticLiterals item).map (.collect name)
        | _ => []
  | .propTypes name literal => [.collect name literal]
  | _ => []

/-- The operations that the items from a position on stand for. -/
def history : Nat → List Tree → List Operation
  | _, [] => []
  | position, item :: items => operations position item ++ history (position + 1) items

/-- Collecting literals one after the other changes one entry once. -/
theorem run_collect (r : Registry) (name : String) (literals : List Tree) :
    r.run (literals.map (.collect name)) =
      r.modify name fun e => literals.foldl Entry.collect e := by
  induction literals generalizing r with
  | nil =>
    simp [Registry.modify]
  | cons literal literals ih =>
    rw [List.map_cons, Registry.run_cons, ih]
    change (r.collect name literal).modify name _ = _
    unfold Registry.collect Registry.modify
    rw [List.map_map]
    congr 1
    apply List.map_congr_left
    intro e _
    by_cases hname : e.name = name
    · simp [hname]
    · simp [hname]

/-- One item changes the registry by its operations. -/
theorem observe_registry (librarySource : String) (s : Survey) (position : Nat) (item : Tree) :
    (s.observe librarySource position item).registry =
      s.registry.run (operations position item) := by
  unfold observe operations
  cases hshape : Shape.ofItem item with
  | importing i => rfl
  | propTypes name literal => rfl
  | other => rfl
  | component kind name =>
    cases kind with
    | functionDeclaration => rfl
    | functionValue => rfl
    | classDeclaration =>
      obtain ⟨parts, rfl⟩ := eq_classDeclaration hshape
      change (s.registry.register name .classDeclaration position).collectStatic name _ =
        (s.registry.register name .classDeclaration position).run _
      rw [run_collect, Registry.collectStatic]
      simp only [Entry.collectStatic_eq_foldl]

/-- The pass runs the history of the items. -/
theorem observeAll_registry (librarySource : String) (s : Survey) (position : Nat)
    (items : List Tree) :
    (s.observeAll librarySource position items).registry =
      s.registry.run (history position items) := by
  induction items generalizing s position with
  | nil => rfl
  | cons item items ih =>
    rw [observeAll, ih, observe_registry, history, Registry.run_append]

/-! ## The operations of one item -/

/-- An item registers the component it declares. -/
theorem registered_operations (position : Nat) (item : Tree) :
    (operations position item).filterMap Operation.registered? = (declaredName? item).toList := by
  unfold operations declaredName? declaration?
  cases hshape : Shape.ofItem item with
  | importing i => rfl
  | propTypes name literal => rfl
  | other => rfl
  | component kind name =>
    cases kind with
    | functionDeclaration => rfl
    | functionValue => rfl
    | classDeclaration =>
      have hnone : ((staticLiterals item).map (Operation.collect name)).filterMap
          Operation.registered? = [] := by
        rw [List.filterMap_eq_nil_iff]
        intro op hop
        obtain ⟨literal, _, rfl⟩ := List.mem_map.mp hop
        rfl
      rw [List.filterMap_cons_some (by rfl), hnone]
      rfl

/-- An item registers its component at its own position. -/
theorem registration_operations (name : String) (position : Nat) (item : Tree) :
    (operations position item).filterMap (Operation.registration? name) =
      ((declaration? item).bind fun d =>
        if d.2 = name then some (d.1, position) else none).toList := by
  unfold operations declaration?
  cases hshape : Shape.ofItem item with
  | importing i => rfl
  | propTypes n literal => rfl
  | other => rfl
  | component kind n =>
    have hrest : (match kind with
        | .classDeclaration => (staticLiterals item).map (Operation.collect n)
        | _ => []).filterMap (Operation.registration? name) = [] := by
      rw [List.filterMap_eq_nil_iff]
      intro op hop
      cases kind with
      | functionDeclaration => cases hop
      | functionValue => cases hop
      | classDeclaration =>
        obtain ⟨literal, _, rfl⟩ := List.mem_map.mp hop
        rfl
    rw [List.filterMap_cons, hrest]
    by_cases hn : n = name
    · simp [Operation.registration?, hn]
    · simp [Operation.registration?, hn]

/-- An item collects for a component the literals it has for it. -/
theorem collected_operations (name : String) (position : Nat) (item : Tree) :
    (operations position item).filterMap (Operation.collected? name) = literalsIn name item := by
  unfold operations literalsIn
  cases hshape : Shape.ofItem item with
  | importing i => rfl
  | other => rfl
  | propTypes n literal =>
    by_cases hn : n = name
    · simp [Operation.collected?, hn]
    · simp [Operation.collected?, hn]
  | component kind n =>
    cases kind with
    | functionDeclaration => rfl
    | functionValue => rfl
    | classDeclaration =>
      rw [List.filterMap_cons_none (by rfl), List.filterMap_map]
      by_cases hn : n = name
      · subst hn
        simp [Function.comp_def, Operation.collected?]
      · simp [Function.comp_def, Operation.collected?, hn]

/-! ## The history of a body -/

theorem registered_history (position : Nat) (items : List Tree) :
    (history position items).filterMap Operation.registered? = items.filterMap declaredName? := by
  induction items generalizing position with
  | nil => rfl
  | cons item items ih =>
    rw [history, List.filterMap_append, registered_operations, ih]
    cases hname : declaredName? item with
    | none => simp [hname]
    | some name => simp [hname]

theorem collected_history (name : String) (position : Nat) (items : List Tree) :
    (history position items).filterMap (Operation.collected? name) =
      items.flatMap (literalsIn name) := by
  induction items generalizing position with
  | nil => rfl
  | cons item items ih =>
    rw [history, List.filterMap_append, collected_operations, ih, List.flatMap_cons]

/-- An item that declares a component counts as a whole. -/
theorem literalsSince_operations {name : String} {item : Tree}
    (hname : declaredName? item = some name) (position : Nat) :
    Registry.literalsSince name (operations position item) = literalsIn name item := by
  rw [← collected_operations name position item]
  obtain ⟨kind, hdeclaration⟩ := declaredName?_eq_some_iff.mp hname
  have hshape := declaration?_eq_some_iff.mp hdeclaration
  unfold operations Registry.literalsSince
  rw [hshape, List.dropWhile_cons_of_neg (by simp [Operation.registered?])]

/-- What counts for a component in the history is what the body has for it. -/
theorem literalsSince_history (name : String) (position : Nat) (items : List Tree) :
    Registry.literalsSince name (history position items) = literalsFor name items := by
  induction items generalizing position with
  | nil => rfl
  | cons item items ih =>
    have hregistered := registered_operations position item
    by_cases hname : declaredName? item = some name
    · -- From the first declaration on, every literal counts.
      have hmem : name ∈ (operations position item).filterMap Operation.registered? := by
        rw [hregistered, hname]
        exact List.mem_singleton_self name
      rw [history, Registry.literalsSince_append hmem, collected_history,
        literalsSince_operations hname, literalsFor,
        List.dropWhile_cons_of_neg (by simpa using hname), List.flatMap_cons]
    · -- Before it, the operations of an item are dropped together.
      have hmem : name ∉ (operations position item).filterMap Operation.registered? := by
        rw [hregistered, Option.mem_toList]
        exact hname
      rw [history, Registry.literalsSince, List.dropWhile_append,
        Registry.dropWhile_registered_eq_nil hmem, literalsFor,
        List.dropWhile_cons_of_pos (by simpa using hname)]
      exact ih (position + 1)

/-- The last registration of a name is made by the last item that declares it. -/
theorem lastDeclared_of_registration {name : String} {kind : Kind} {anchor : Nat}
    {position : Nat} {items : List Tree}
    (h : ((history position items).filterMap (Operation.registration? name)).getLast? =
      some (kind, anchor)) :
    ∃ offset, anchor = position + offset ∧ LastDeclared items name kind offset := by
  induction items generalizing position with
  | nil => simp [history] at h
  | cons item items ih =>
    rw [history, List.filterMap_append, List.getLast?_append, registration_operations] at h
    cases hrest : ((history (position + 1) items).filterMap
        (Operation.registration? name)).getLast? with
    | some last =>
      rw [hrest, Option.some_or] at h
      obtain ⟨offset, hanchor, hlast⟩ := ih (hrest.trans h)
      exact ⟨offset + 1, by omega, hlast.cons⟩
    | none =>
      -- No later item declares the name, so the registration is the item's own.
      rw [hrest, Option.none_or] at h
      have hlater : name ∉ items.filterMap declaredName? := by
        rw [← registered_history (position + 1), ← filterMap_registration_eq_nil_iff]
        exact List.getLast?_eq_none_iff.mp hrest
      obtain ⟨hdeclaration, hanchor⟩ : declaration? item = some (kind, name) ∧
          position = anchor := by
        cases hdeclaration : declaration? item with
        | none => simp [hdeclaration] at h
        | some d =>
          by_cases hd : d.2 = name
          · simpa [hdeclaration, hd, Prod.ext_iff] using h
          · simp [hdeclaration, hd] at h
      refine ⟨0, hanchor.symm, hdeclaration, ?_⟩
      intro later hpositive hname
      obtain ⟨later, rfl⟩ : ∃ n, later = n + 1 := ⟨later - 1, by omega⟩
      rw [List.getElem?_cons_succ] at hname
      obtain ⟨declarer, hmem, hdeclares⟩ := Option.bind_eq_some_iff.mp hname
      exact hlater (List.mem_filterMap.mpr ⟨declarer, List.mem_of_getElem? hmem, hdeclares⟩)

/-! ## The alias -/

/-- One item replaces the alias if it gives one. -/
theorem observe_alias (librarySource : String) (s : Survey) (position : Nat) (item : Tree) :
    (s.observe librarySource position item).alias =
      (libraryName? librarySource item).getD s.alias := by
  unfold observe libraryName?
  cases hshape : Shape.ofItem item with
  | importing i =>
    change Import.alias librarySource s.alias i = _
    unfold Import.alias
    by_cases hsource : i.source = some librarySource
    · simp [hsource]
    · simp [hsource]
  | propTypes name literal => rfl
  | other => rfl
  | component kind name => cases kind <;> rfl

/-- The alias after a pass is the last one given, or the one from before. -/
theorem observeAll_alias (librarySource : String) (s : Survey) (position : Nat)
    (items : List Tree) :
    (s.observeAll librarySource position items).alias =
      (items.filterMap (libraryName? librarySource)).getLast?.getD s.alias := by
  induction items generalizing s position with
  | nil => rfl
  | cons item items ih =>
    rw [observeAll, ih, observe_alias]
    cases hname : libraryName? librarySource item with
    | none => rw [List.filterMap_cons_none hname, Option.getD_none]
    | some name => rw [List.filterMap_cons_some hname, List.getLast?_cons, Option.getD_some,
        Option.getD_some]

/-! ## The survey of a module -/

section OfModule

variable (m : Module) (options : Options)

theorem describes_ofModule :
    Registry.Describes (history 0 m.body) (ofModule m options).registry := by
  rw [ofModule, observeAll_registry]
  exact Registry.describes_run (history 0 m.body)

variable {m options}

/-- An entry says how and where its component was declared last. -/
theorem lastDeclared_of_mem {e : Entry} (he : e ∈ (ofModule m options).registry.entries) :
    LastDeclared m.body e.name e.kind e.anchor := by
  obtain ⟨offset, hanchor, hlast⟩ :=
    lastDeclared_of_registration ((describes_ofModule m options).registration e he)
  rw [Nat.zero_add] at hanchor
  rwa [hanchor]

/-- An anchor points at an item of the body. -/
theorem anchor_lt_of_mem {e : Entry} (he : e ∈ (ofModule m options).registry.entries) :
    e.anchor < m.body.length := by
  obtain ⟨item, hitem, _⟩ := Option.bind_eq_some_iff.mp (lastDeclared_of_mem he).1
  exact (List.getElem?_eq_some_iff.mp hitem).1

/-- Two entries never share an anchor: the item there declares one name only. -/
theorem eq_of_anchor_eq {e e' : Entry} (he : e ∈ (ofModule m options).registry.entries)
    (he' : e' ∈ (ofModule m options).registry.entries) (hanchor : e.anchor = e'.anchor) :
    e = e' := by
  have hdeclared := (lastDeclared_of_mem he).1
  rw [hanchor, (lastDeclared_of_mem he').1, Option.some.injEq, Prod.mk.injEq] at hdeclared
  exact Registry.eq_of_name_eq (describes_ofModule m options).names_nodup he he'
    hdeclared.2.symm

variable (m options)

theorem anchors_nodup : ((ofModule m options).registry.entries.map Entry.anchor).Nodup := by
  have hentries : (ofModule m options).registry.entries.Nodup :=
    (describes_ofModule m options).names_nodup.of_map Entry.name
  exact hentries.map_on fun e he e' he' hanchor => eq_of_anchor_eq he he' hanchor

/-- The survey of a module in terms of its body alone.  The components are those that some item
declares, in order of first occurrence.  Each stands at the last item that declares it, and no two
at the same item.  Its properties are collected from the literals that the body has for it, and
the alias is the last one that an import of the library gives. -/
theorem ofModule_eq_reading :
    (ofModule m options).registry.names = (m.body.filterMap declaredName?).eraseDups ∧
    (ofModule m options).registry.names.Nodup ∧
    (∀ e ∈ (ofModule m options).registry.entries,
      e.anchor < m.body.length ∧
      LastDeclared m.body e.name e.kind e.anchor ∧
      e.properties = ((literalsFor e.name m.body).foldl Entry.collect
        ⟨e.name, e.kind, e.anchor, []⟩).properties) ∧
    ((ofModule m options).registry.entries.map Entry.anchor).Nodup ∧
    (ofModule m options).alias =
      (m.body.filterMap (libraryName? options.librarySource)).getLast?.getD
        options.defaultAlias := by
  have hdescribes := describes_ofModule m options
  refine ⟨?_, hdescribes.names_nodup, ?_, anchors_nodup m options, ?_⟩
  · rw [hdescribes.names_eq, registered_history]
  · intro e he
    refine ⟨anchor_lt_of_mem he, lastDeclared_of_mem he, ?_⟩
    rw [← literalsSince_history e.name 0 m.body]
    exact congrArg Entry.properties (hdescribes.collected e he)
  · exact observeAll_alias options.librarySource _ 0 m.body

end OfModule

end Survey

end PropCatalog.Component
