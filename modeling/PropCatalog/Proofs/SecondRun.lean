import PropCatalog.Proofs.Description

/-!
# Attaching a second time

What attaching inserts is passed over by a survey: the declaration of the library declares no
component, and a metadata statement assigns to a member that declares no properties, as long as that
member is not `propTypes`.  So a second survey finds what the first one found, with every anchor moved
to where its declaration stands now.

The argument goes through the history of the registry.  The operations of the new body are those of
the old one at moved positions (`Survey.history_splice`), and a registry that is run on moved
operations has moved anchors and is otherwise the same (`Registry.run_moved`).

The second run takes another name for its library, because the first run used one up:
the next candidate that the module does not use.
-/

namespace PropCatalog

open Component Metadata

namespace Component

/-! ## Moving anchors -/

/-- An entry whose declaration was moved. -/
def Entry.moved (f : Nat → Nat) (e : Entry) : Entry := { e with anchor := f e.anchor }

/-- An operation at a moved position. -/
def Operation.moved (f : Nat → Nat) : Operation → Operation
  | .register name kind anchor => .register name kind (f anchor)
  | .collect name literal => .collect name literal

namespace Registry

/-- A registry whose declarations were moved. -/
def moved (f : Nat → Nat) (r : Registry) : Registry := ⟨r.entries.map (Entry.moved f)⟩

@[simp] theorem names_moved (f : Nat → Nat) (r : Registry) : (r.moved f).names = r.names := by
  unfold names moved
  rw [List.map_map]
  rfl

/-- A change that does not look at anchors can be made before or after moving. -/
theorem modify_moved (f : Nat → Nat) (r : Registry) (name : String) {g g' : Entry → Entry}
    (hg : ∀ e, (g e).moved f = g' (e.moved f)) :
    (r.modify name g).moved f = (r.moved f).modify name g' := by
  unfold modify moved
  rw [List.map_map, List.map_map]
  congr 1
  apply List.map_congr_left
  intro e _
  change (if e.name = name then g e else e).moved f =
    if e.name = name then g' (e.moved f) else e.moved f
  split
  · exact hg e
  · rfl

theorem apply_moved (f : Nat → Nat) (r : Registry) (op : Operation) :
    (op.apply r).moved f = (op.moved f).apply (r.moved f) := by
  cases op with
  | collect name literal => exact modify_moved f r name fun _ => rfl
  | register name kind anchor =>
    change (r.register name kind anchor).moved f = (r.moved f).register name kind (f anchor)
    unfold register
    rw [names_moved]
    split
    · exact modify_moved f r name fun _ => rfl
    · simp [moved, Entry.moved]

/-- Running moved operations moves the anchors and changes nothing else. -/
theorem run_moved (f : Nat → Nat) (r : Registry) (ops : List Operation) :
    (r.run ops).moved f = (r.moved f).run (ops.map (Operation.moved f)) := by
  induction ops generalizing r with
  | nil => rfl
  | cons op ops ih => rw [run_cons, ih, apply_moved, List.map_cons, run_cons]

end Registry

/-! ## Items that are passed over -/

namespace Survey

theorem operations_moved (f : Nat → Nat) (position : Nat) (item : Tree) :
    (operations position item).map (Operation.moved f) = operations (f position) item := by
  unfold operations
  cases Shape.ofItem item with
  | importing i => rfl
  | other => rfl
  | propTypes name literal => rfl
  | component kind name =>
    cases kind with
    | functionDeclaration => rfl
    | functionValue => rfl
    | classDeclaration =>
      simp only [List.map_cons, List.map_map]
      rfl

theorem history_append (position : Nat) (items later : List Tree) :
    history position (items ++ later) =
      history position items ++ history (position + items.length) later := by
  induction items generalizing position with
  | nil => rfl
  | cons item items ih =>
    have hposition : position + 1 + items.length = position + (item :: items).length := by
      rw [List.length_cons]
      omega
    rw [List.cons_append, history, ih, history, List.append_assoc, hposition]

/-- Items that are passed over stand for no operation. -/
theorem history_eq_nil {items : List Tree} (h : ∀ item ∈ items, Shape.ofItem item = .other)
    (position : Nat) : history position items = [] := by
  induction items generalizing position with
  | nil => rfl
  | cons item items ih =>
    obtain ⟨hitem, hitems⟩ := List.forall_mem_cons.mp h
    rw [history, ih hitems, operations, hitem]
    rfl

theorem shape_of_isDirective {item : Tree} (h : isDirective item = true) :
    Shape.ofItem item = .other := by
  unfold isDirective at h
  split at h
  · rfl
  · simp at h

end Survey

end Component

namespace Metadata

/-- The library is passed over by a survey. -/
theorem shape_library (name : String) : Shape.ofItem (library name) = .other := rfl

/-- A metadata statement is passed over unless its field is the one that declares properties. -/
theorem shape_metadata {field : String} (hfield : field ≠ propTypesField)
    (aliasName library : String) (e : Entry) :
    Shape.ofItem (e.metadata field aliasName library) = .other := by
  rw [Entry.metadata_eq]
  generalize description _ = value
  have hassignment : propTypesAssignment? (.assignment noSpan (.text "=")
      (memberOf (reference (renamed aliasName library e.name)) field) value) = none := by
    unfold propTypesAssignment? memberOf reference plainName
    exact if_neg hfield
  rw [assignMember, Shape.ofItem, hassignment]

/-! ## The history of a spliced body -/

section

variable {insertions : List Insertion}

/-- Behind the prologue, the operations of a spliced stretch are those of its items where they stand
now: the statements between them stand for none. -/
theorem history_flatMap_statementsAt
    (hinserted : ∀ i ∈ insertions, Shape.ofItem i.statement = .other) (position : Nat)
    (items : List Tree) :
    Survey.history (shifted insertions position)
        ((items.zipIdx position).flatMap fun item =>
          item.1 :: statementsAt insertions item.2) =
      (Survey.history position items).map (Operation.moved (shifted insertions)) := by
  induction items generalizing position with
  | nil => rfl
  | cons item items ih =>
    have hstatements : ∀ statement ∈ statementsAt insertions position,
        Shape.ofItem statement = .other := by
      intro statement hstatement
      obtain ⟨i, hi, rfl⟩ := List.mem_map.mp hstatement
      exact hinserted i (List.mem_filter.mp hi).1
    rw [List.zipIdx_cons, List.flatMap_cons, List.cons_append, Survey.history,
      Survey.history_append, Survey.history_eq_nil hstatements, ← shifted_succ, ih,
      Survey.history, List.map_append, Survey.operations_moved]
    rfl

/-- Splicing in items that are passed over moves the operations of a body. -/
theorem history_splice (body : List Tree) {library : Tree}
    (hlibrary : Shape.ofItem library = .other)
    (hinserted : ∀ i ∈ insertions, Shape.ofItem i.statement = .other)
    (hanchors : ∀ i ∈ insertions, prologueLength body ≤ i.anchor) :
    Survey.history 0 (splice body library insertions) =
      (Survey.history 0 body).map (Operation.moved (shifted insertions)) := by
  have hprologue : ∀ item ∈ body.takeWhile isDirective, Shape.ofItem item = .other :=
    fun _ hitem => Survey.shape_of_isDirective (List.mem_takeWhile_imp hitem)
  -- Directives stand for no operation, so only the bodies behind the prologue are compared.
  have hold : Survey.history 0 body =
      Survey.history (prologueLength body) (body.dropWhile isDirective) := by
    conv => lhs; rw [← List.takeWhile_append_dropWhile (p := isDirective) (l := body)]
    rw [Survey.history_append, Survey.history_eq_nil hprologue, Nat.zero_add]
    rfl
  rw [splice_eq_append body library hanchors, Survey.history_append,
    Survey.history_eq_nil hprologue, hold, ← history_flatMap_statementsAt hinserted,
    shifted_prologueLength hanchors, Nat.zero_add, Survey.history, Survey.operations, hlibrary]
  rfl

/-- What is given by no inserted item is given by a spliced body as by the old one. -/
theorem filterMap_splice {α : Type} {f : Tree → Option α} (body : List Tree) {library : Tree}
    (hlibrary : f library = none) (hinserted : ∀ i ∈ insertions, f i.statement = none)
    (hanchors : ∀ i ∈ insertions, prologueLength body ≤ i.anchor) :
    (splice body library insertions).filterMap f = body.filterMap f := by
  have hstatements (position : Nat) : (statementsAt insertions position).filterMap f = [] := by
    rw [List.filterMap_eq_nil_iff]
    intro statement hstatement
    obtain ⟨i, hi, rfl⟩ := List.mem_map.mp hstatement
    exact hinserted i (List.mem_filter.mp hi).1
  have hitems (items : List Tree) (position : Nat) :
      ((items.zipIdx position).flatMap fun item =>
        item.1 :: statementsAt insertions item.2).filterMap f = items.filterMap f := by
    induction items generalizing position with
    | nil => rfl
    | cons item items ih =>
      rw [List.zipIdx_cons, List.flatMap_cons, List.filterMap_append, List.filterMap_cons,
        hstatements, ih, List.filterMap_cons]
      cases f item <;> rfl
  conv => rhs; rw [← List.takeWhile_append_dropWhile (p := isDirective) (l := body)]
  rw [splice_eq_append body library hanchors, List.filterMap_append,
    List.filterMap_cons_none hlibrary, hitems, List.filterMap_append]

end

/-! ## The next name -/

/-- Once the fresh name is used as well, the next one is the first unused candidate behind it. -/
theorem freshNameAmong_next {used later : List String} {base : String}
    (hlater : ∀ k, candidate (baseName base) (k + 1) ∈ later ↔
      candidate (baseName base) (k + 1) ∈ used ∨
        candidate (baseName base) (k + 1) = freshNameAmong used base) :
    ∃ i j, i < j ∧
      freshNameAmong used base = candidate (baseName base) (i + 1) ∧
      freshNameAmong later base = candidate (baseName base) (j + 1) ∧
      candidate (baseName base) (j + 1) ∉ used ∧
      ∀ k, i < k → k < j → candidate (baseName base) (k + 1) ∈ used := by
  obtain ⟨i, _, hfirst, _, hbeforeFirst⟩ := freshNameAmong_spec used base
  obtain ⟨j, _, hsecond, hunused, hbeforeSecond⟩ := freshNameAmong_spec later base
  rw [hlater, hfirst, not_or] at hunused
  have hlt : i < j := by
    rcases Nat.lt_trichotomy j i with hji | rfl | hij
    · exact absurd (hbeforeFirst j hji) hunused.1
    · exact absurd rfl hunused.2
    · exact hij
  refine ⟨i, j, hlt, hfirst, hsecond, hunused.1, ?_⟩
  intro k hik hkj
  rcases (hlater k).mp (hbeforeSecond k hkj) with hused | heq
  · exact hused
  · have hki : k = i := candidate_injective (baseName base) (heq.trans hfirst)
    omega

end Metadata

namespace Module

variable (m : Module) (options : Options)

/-- Of the candidates, attaching uses up the name of the library and no other. -/
theorem candidate_mem_attach_identifiers (name : String) (k : Nat) :
    candidate name k ∈ (m.attach options).2.identifiers ↔
      candidate name k ∈ m.identifiers ∨ candidate name k = (m.attach options).1.library := by
  constructor
  · intro hmem
    obtain ⟨item, hitem, hx⟩ := List.mem_flatMap.mp hmem
    -- A candidate in an added item is the name of the library or was already there: the other names
    -- that the library brings are none of the candidates.
    rcases mem_attach_body m options hitem with hold | rfl | ⟨e, he, _, rfl⟩
    · exact Or.inl (List.mem_flatMap.mpr ⟨item, hold, hx⟩)
    · rcases (mem_identifiers_library _).mp hx with hlibrary | hother
      · exact Or.inr hlibrary
      · exact absurd hother (notMem_library_of_front (front_candidate name k))
    · rcases List.mem_cons.mp (identifiers_metadata _ _ _ e hx) with hlibrary | hx
      · exact Or.inr hlibrary
      · obtain ⟨y, hy, heq⟩ := List.mem_map.mp hx
        have hmodule : y ∈ m.identifiers := by
          rcases List.mem_cons.mp hy with rfl | hvalue
          · exact Survey.name_mem_identifiers he
          · obtain ⟨p, hp, hyp⟩ := List.mem_flatMap.mp hvalue
            exact Survey.identifiers_value_subset he hp hyp
        rw [← heq, renamed]
        split
        · exact Or.inr rfl
        · exact Or.inl hmodule
  · have hlayout := attach_body_eq_layout m options
    rintro (hold | heq)
    · obtain ⟨item, hitem, hx⟩ := List.mem_flatMap.mp hold
      refine List.mem_flatMap.mpr ⟨item, ?_, hx⟩
      rw [hlayout]
      exact (sublist_layout m.body _ _).subset hitem
    · refine List.mem_flatMap.mpr ⟨library (m.attach options).1.library, ?_, ?_⟩
      · rw [hlayout, layout]
        exact List.mem_append_right _ List.mem_cons_self
      · exact (mem_identifiers_library _).mpr (Or.inl heq)

/-- An item behind the prologue stands at its shifted position. -/
theorem attach_body_shifted {position : Nat} (hprologue : prologueLength m.body ≤ position)
    (hlt : position < m.body.length) :
    (m.attach options).2.body[shifted (m.insertions options) position]? = m.body[position]? := by
  have hitem : m.body[position]? = some m.body[position] := List.getElem?_eq_getElem hlt
  obtain ⟨before, after, hbody, hbefore⟩ :=
    exists_splice_eq_append m.body (library (freshName m options.libraryBaseName))
      (m.prologueLength_le_of_mem_insertions options) hprologue hitem
  rw [attach_body, hbody, ← hbefore, hitem, List.getElem?_append_right (Nat.le_refl _),
    Nat.sub_self]
  rfl

variable {options}

theorem shape_of_mem_insertions (hfield : options.metadataField ≠ propTypesField) :
    ∀ i ∈ m.insertions options, Shape.ofItem i.statement = .other := by
  intro i hi
  have hstatement : i.statement ∈ (m.insertions options).map Insertion.statement :=
    List.mem_map_of_mem hi
  rw [map_statement_insertions] at hstatement
  obtain ⟨e, _, heq⟩ := List.mem_map.mp hstatement
  rw [← heq]
  exact shape_metadata hfield _ _ e

/-- A second survey finds the registry of the first one, moved. -/
theorem registry_ofModule_attach (hfield : options.metadataField ≠ propTypesField) :
    (Survey.ofModule (m.attach options).2 options).registry =
      (Survey.ofModule m options).registry.moved (shifted (m.insertions options)) := by
  rw [Survey.ofModule, Survey.observeAll_registry, attach_body,
    history_splice m.body (shape_library _) (m.shape_of_mem_insertions hfield)
      (m.prologueLength_le_of_mem_insertions options),
    Survey.ofModule, Survey.observeAll_registry, Registry.run_moved]
  rfl

/-- A second survey finds the alias of the first one. -/
theorem alias_ofModule_attach (hfield : options.metadataField ≠ propTypesField) :
    (Survey.ofModule (m.attach options).2 options).alias = (Survey.ofModule m options).alias := by
  have hinert {item : Tree} (h : Shape.ofItem item = .other) :
      libraryName? options.librarySource item = none := by
    rw [libraryName?, h]
  rw [Survey.ofModule, Survey.observeAll_alias, attach_body,
    filterMap_splice m.body (hinert (shape_library _))
      (fun i hi => hinert (m.shape_of_mem_insertions hfield i hi))
      (m.prologueLength_le_of_mem_insertions options),
    Survey.ofModule, Survey.observeAll_alias]

/-- Attaching twice, when the metadata field is not the one that declares properties.  The second
survey passes over all that was inserted: it finds the same alias and the same entries in the same
order, and each anchor is where the same declaration stands now.  The second report names the same
components, and its library is the first candidate behind the first library that the module does
not use. -/
theorem attach_attach (hfield : options.metadataField ≠ propTypesField) :
    let first := m.attach options
    let second := first.2.attach options
    let survey := Survey.ofModule m options
    let survey' := Survey.ofModule first.2 options
    let base := baseName options.libraryBaseName
    (∀ item ∈ library first.1.library ::
        (survey.registry.entries.filter Entry.hasProperties).map
          (Entry.metadata options.metadataField first.1.alias first.1.library),
      Shape.ofItem item = .other) ∧
    survey'.alias = survey.alias ∧
    survey'.registry.entries = survey.registry.entries.map (fun e =>
      { e with anchor := shifted (m.insertions options) e.anchor }) ∧
    (∀ e ∈ survey.registry.entries,
      first.2.body[shifted (m.insertions options) e.anchor]? = m.body[e.anchor]?) ∧
    second.1.alias = first.1.alias ∧
    second.1.components = first.1.components ∧
    ∃ i j, i < j ∧ first.1.library = candidate base (i + 1) ∧
      second.1.library = candidate base (j + 1) ∧
      candidate base (j + 1) ∉ m.identifiers ∧
      ∀ k, i < k → k < j → candidate base (k + 1) ∈ m.identifiers := by
  intro first second survey survey' base
  have halias : survey'.alias = survey.alias := m.alias_ofModule_attach hfield
  have hentries : survey'.registry.entries = survey.registry.entries.map (fun e =>
      { e with anchor := shifted (m.insertions options) e.anchor }) :=
    congrArg Registry.entries (m.registry_ofModule_attach hfield)
  refine ⟨?_, halias, hentries, ?_, halias, ?_, ?_⟩
  · intro item hitem
    rcases List.mem_cons.mp hitem with rfl | hmetadata
    · exact shape_library _
    · obtain ⟨e, _, rfl⟩ := List.mem_map.mp hmetadata
      exact shape_metadata hfield _ _ e
  · intro e he
    exact m.attach_body_shifted options (Survey.prologueLength_le_anchor he)
      (Survey.anchor_lt_of_mem he)
  · -- A report does not show anchors.
    change survey'.registry.entries.map Entry.report = survey.registry.entries.map Entry.report
    rw [hentries, List.map_map]
    rfl
  · exact freshNameAmong_next fun k => m.candidate_mem_attach_identifiers options base (k + 1)

/-- A second run on a module whose component has the name that would come next. -/
theorem attach_attach_taken :
    let m := described "_fakePropTypes2"
    let first := m.attach {}
    ({} : Options).metadataField ≠ propTypesField ∧
    first.1.library = "_fakePropTypes" ∧
    (first.2.attach {}).1.library = "_fakePropTypes3" ∧
    (first.2.attach {}).1.components = [⟨"_fakePropTypes2", .functionDeclaration, ["a"], true⟩] ∧
    (Survey.ofModule first.2 {}).registry.entries.map Entry.anchor = [1] := by
  intro m first
  have hfield : ({} : Options).metadataField ≠ propTypesField := by decide
  obtain ⟨_, _, hentries, _, _, hcomponents, _⟩ := m.attach_attach hfield
  refine ⟨hfield, by decide +kernel, by decide +kernel, ?_, ?_⟩
  · exact hcomponents.trans (by decide +kernel)
  · rw [hentries]
    decide +kernel

end Module

end PropCatalog
