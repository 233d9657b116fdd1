import PropCatalog.Proofs.Description
import PropCatalog.Proofs.Marking
import PropCatalog.Proofs.Readable
import PropCatalog.Source.Attach

/-!
# Modules that no text gives back

Retargeting turns a marked validator `v.isRequired` into the call `L.isRequired(v)`.  In two positions
the grammar has no call without parentheses around it, and none are added: in what `new` makes, and
inside parentheses that are assigned to.  A tree without these positions is admissible after
retargeting if it was before, and one with any of them is not (`admissible_retarget_iff`).

Whatever is read is admissible, so a module that was given such a statement is the reading of no text
at all, and the text that is written for it is read as something else.
-/

namespace PropCatalog

open Component Metadata Source

namespace Metadata

open PropCatalog.Tree

/-! ## Where a call cannot stand -/

/-- Whether an expression, or one that it is a chain of accesses to, is marked as required. -/
def marksChain : Tree → Bool
  | .member s base property => isMarked (.member s base property) || marksChain base
  | _ => false

/-- Whether what is assigned to is a marked validator in parentheses. -/
def isMarkedPlace : Tree → Bool
  | .parenthesis _ e => isMarked e.unparen
  | _ => false

/-- Whether a node has a marked validator where a call cannot stand. -/
def clashes : Form → List Tree → Bool
  | .known .newExpression, parts => parts[2]?.any marksChain
  | .known .assignmentExpression, parts => parts[2]?.any isMarkedPlace
  | _, _ => false

/-- Nowhere in a tree does a marked validator stand where a call cannot. -/
def Settleable (t : Tree) : Prop := t.all (fun f parts => !clashes f parts) = true

instance (t : Tree) : Decidable (Settleable t) := inferInstanceAs (Decidable (_ = _))

theorem settleable_node {f : Form} {parts : List Tree} :
    Settleable (.node f parts) ↔ clashes f parts = false ∧ ∀ t ∈ parts, Settleable t := by
  simp only [Settleable, all_node, Bool.and_eq_true, List.all_eq_true, Bool.not_eq_true']

variable (aliasName library : String)

/-! ## What begins with a call and what is assigned to -/

theorem beginsWithCall_node {f : Form} {parts : List Tree}
    (h : f = .known .memberExpression → parts.length ≠ 3) :
    (Tree.node f parts).beginsWithCall = decide (f = .known .callExpression) := by
  unfold beginsWithCall
  split <;> simp_all

theorem marksChain_node {f : Form} {parts : List Tree}
    (h : f = .known .memberExpression → parts.length ≠ 3) : marksChain (.node f parts) = false := by
  unfold marksChain
  split <;> simp_all

/-- A chain begins with a call after retargeting if it did before or if an access of it is marked. -/
theorem beginsWithCall_retarget (t : Tree) :
    (retarget aliasName library t).beginsWithCall = (t.beginsWithCall || marksChain t) := by
  induction t using Tree.induction with
  | leaf a => rfl
  | node f parts ih =>
    -- The chain goes on only at an access with its three parts.
    by_cases hmember : f = .known .memberExpression ∧ parts.length = 3
    · obtain ⟨rfl, hlength⟩ := hmember
      obtain ⟨span, base, property, rfl⟩ := List.length_eq_three.mp hlength
      rw [beginsWithCall_member, marksChain]
      cases hmark : isMarked (.member span base property) with
      | true =>
        rw [retarget_of_isMarked aliasName library hmark]
        simp [requiredCall, callOf, beginsWithCall]
      | false =>
        rw [retarget_of_not_isMarked aliasName library hmark,
          retargetPlace_node_eq aliasName library (by decide)]
        exact ih base (by simp)
    · have hlength : f = .known .memberExpression → parts.length ≠ 3 := fun hf hl =>
        hmember ⟨hf, hl⟩
      rw [retarget_of_not_isMarked aliasName library (isMarked_node hlength), retargetPlace_node,
        beginsWithCall_node hlength, marksChain_node hlength, Bool.or_false, beginsWithCall_node]
      · simp only [rename_eq_known]
      · intro hf
        simpa [settleParts] using hlength ((rename_eq_known aliasName library).mp hf)

/-- Only parentheses are looked into to see whether something can be assigned to. -/
theorem isTarget_node {f : Form} {parts : List Tree}
    (h : ∀ s e, Tree.node f parts ≠ .parenthesis s e) :
    Grammar.isTarget (.node f parts) = Grammar.isTarget (.node f []) := by
  cases f with
  | known k =>
    cases k
    case parenthesisExpression =>
      rcases parts with _ | ⟨a, _ | ⟨b, _ | ⟨c, rest⟩⟩⟩
      · rfl
      · rfl
      · exact absurd rfl (h a b)
      · rfl
    all_goals rfl
  | _ => rfl

theorem isTarget_retargetPlace_of_ne {t : Tree} (ht : ∀ s e, t ≠ .parenthesis s e) :
    Grammar.isTarget (retargetPlace aliasName library t) = Grammar.isTarget t := by
  have hplace := retargetPlace_ne_parenthesis aliasName library ht
  cases t with
  | leaf a => rfl
  | node f parts =>
    rw [retargetPlace_node] at hplace ⊢
    rw [isTarget_node hplace, isTarget_node ht]
    cases f <;> rfl

/-- What can be assigned to can be assigned to after retargeting unless it is marked. -/
theorem isTarget_retarget (t : Tree) :
    Grammar.isTarget (retarget aliasName library t) = (Grammar.isTarget t && !isMarked t.unparen) := by
  induction t using unparen_induction with
  | parenthesis s e ih =>
    rw [retarget_parenthesis, unparen_parenthesis, Grammar.isTarget, ih, Grammar.isTarget]
  | bare t ht =>
    rw [unparen_eq_self ht]
    cases hmark : isMarked t with
    | true =>
      obtain ⟨span, validator, parts, rfl, -⟩ := isMarked_iff.mp hmark
      rw [retarget_of_isMarked aliasName library hmark, Bool.not_true, Bool.and_false]
      rfl
    | false =>
      rw [retarget_of_not_isMarked aliasName library hmark,
        isTarget_retargetPlace_of_ne aliasName library ht]
      simp

theorem isTarget_retargetPlace (t : Tree) :
    Grammar.isTarget (retargetPlace aliasName library t) =
      (Grammar.isTarget t && !isMarkedPlace t) := by
  by_cases ht : ∃ s e, t = .parenthesis s e
  · obtain ⟨s, e, rfl⟩ := ht
    rw [retargetPlace_node_eq aliasName library (by decide)]
    exact isTarget_retarget aliasName library e
  · have hne (s e : Tree) : t ≠ .parenthesis s e := fun h => ht ⟨s, e, h⟩
    have hplace : isMarkedPlace t = false := by
      unfold isMarkedPlace
      split <;> simp_all
    rw [isTarget_retargetPlace_of_ne aliasName library hne, hplace]
    simp

/-! ## Admissibility -/

@[simp] theorem admissible_name (x : String) : Admissible (Metadata.plainName x) := rfl

@[simp] theorem admissible_identifier (x : String) : Admissible (Metadata.reference x) := rfl

theorem admissible_requiredCall {validator : Tree} :
    Admissible (requiredCall library validator) ↔ Admissible validator := by
  simp [requiredCall, callOf, memberOf, plainArgument, noSpan, noContext]

theorem retarget_of_isLeaf {t : Tree} (h : t.isLeaf = true) : retarget aliasName library t = t := by
  cases t with
  | leaf a => rfl
  | node f parts => cases h

/-- The parentheses of an admissible expression add nothing to what must be admissible. -/
theorem admissible_unparen_retarget {t : Tree} (h : Admissible t) :
    Admissible (retarget aliasName library t).unparen ↔ Admissible (retarget aliasName library t) := by
  induction t using unparen_induction with
  | parenthesis s e ih =>
    obtain ⟨hs, hspan, he⟩ := admissible_parenthesis.mp h
    rw [retarget_parenthesis, unparen_parenthesis, admissible_parenthesis, ih he,
      retarget_of_isLeaf aliasName library hs]
    simp [hs, hspan]
  | bare t ht => rw [unparen_eq_self (retarget_ne_parenthesis aliasName library ht)]

/-- Settling loses only leaves of an admissible expression, and parentheses. -/
theorem admissible_retarget_iff_place {t : Tree} (h : Admissible t) :
    Admissible (retarget aliasName library t) ↔ Admissible (retargetPlace aliasName library t) := by
  cases hmark : isMarked t with
  | false => rw [retarget_of_not_isMarked aliasName library hmark]
  | true =>
    obtain ⟨span, validator, parts, rfl, -⟩ := isMarked_iff.mp hmark
    obtain ⟨hleaf, hspan, hvalidator, hname⟩ := admissible_member.mp h
    -- What settling drops are the position of the access and the parts of its name, all leaves.
    have hparts : parts.map (retarget aliasName library) = parts := by
      refine (List.map_congr_left fun t ht => ?_).trans (List.map_id parts)
      exact retarget_of_isLeaf aliasName library (List.all_eq_true.mp (admissible_node.mp hname).1 t ht)
    rw [retarget_of_isMarked aliasName library hmark, admissible_requiredCall,
      admissible_unparen_retarget aliasName library hvalidator,
      retargetPlace_node_eq aliasName library (by decide)]
    simp only [rename_known, List.map_cons, List.map_nil, retarget_name, hparts,
      retarget_of_isLeaf aliasName library hleaf]
    rw [admissible_member]
    simp [hleaf, hspan, hname]

/-- A part that is a leaf is retargeted to a leaf. -/
theorem all_isLeaf_settleParts {f : Form} {parts : List Tree} {position : Nat}
    (hplace : isPlace f position = false) (h : parts[position]?.all isLeaf = true) :
    (settleParts library f (parts.map (retargetPlace aliasName library)))[position]?.all isLeaf
      = true := by
  rw [getElem?_settleParts, hplace]
  cases hpart : parts[position]? with
  | none => rfl
  | some part =>
    rw [hpart] at h
    simpa [retarget_of_isLeaf aliasName library h] using h

/-- What the grammar asks of a node is lost in retargeting if and only if the node clashes. -/
theorem admits_retargetPlace {f : Form} {parts : List Tree} (h : Grammar.admits f parts = true) :
    Grammar.admits (f.rename aliasName library)
      (settleParts library f (parts.map (retargetPlace aliasName library))) = !clashes f parts := by
  cases f with
  | known k =>
    rw [rename_known]
    cases k
    -- Only these two look into the part that may become a call.
    case newExpression =>
      simp only [admits_new, clashes, getElem?_settleParts] at h ⊢
      cases hcallee : parts[2]? with
      | none => rfl
      | some callee =>
        rw [hcallee] at h
        simp_all [isPlace, beginsWithCall_retarget]
    case assignmentExpression =>
      simp only [admits_assignment, clashes, getElem?_settleParts] at h ⊢
      cases hleft : parts[2]? with
      | none => rfl
      | some left =>
        rw [hleft] at h
        simp_all [isPlace, isTarget_retargetPlace]
    case memberExpression => exact all_isLeaf_settleParts aliasName library rfl h
    case parenthesisExpression => exact all_isLeaf_settleParts aliasName library rfl h
    all_goals rfl
  | name x =>
    change parts.all isLeaf = true at h
    change (settleParts library (.name x) _).all isLeaf = true
    rw [settleParts_eq_map library (by constructor <;> simp), List.map_map, List.all_map]
    rw [List.all_eq_true] at h ⊢
    intro t ht
    change (retarget aliasName library t).isLeaf = true
    rw [retarget_of_isLeaf aliasName library (h t ht)]
    exact h t ht
  | _ => rfl

/-- To have a property of all retargeted parts, it is enough that settling neither gives nor takes
it. -/
theorem forall_mem_settleParts {P : Tree → Prop} {f : Form} {parts : List Tree}
    (hP : ∀ t ∈ parts, P (settle library t) ↔ P t) :
    (∀ t ∈ settleParts library f parts, P t) ↔ ∀ t ∈ parts, P t := by
  constructor
  · intro h t ht
    obtain ⟨position, hposition, rfl⟩ := List.mem_iff_getElem.mp ht
    have hsettled := h _ (List.mem_mapIdx.mpr ⟨position, hposition, rfl⟩)
    split at hsettled
    · exact hsettled
    · exact (hP _ ht).mp hsettled
  · intro h t ht
    obtain ⟨part, hpart, heq | heq⟩ := mem_settleParts library ht
    · exact heq ▸ h part hpart
    · exact heq ▸ (hP part hpart).mpr (h part hpart)

theorem admissible_retargetPlace_iff {t : Tree} (h : Admissible t) :
    Admissible (retargetPlace aliasName library t) ↔ Settleable t := by
  induction t using Tree.induction with
  | leaf a => exact iff_of_true rfl rfl
  | node f parts ih =>
    obtain ⟨hadmits, hparts⟩ := admissible_node.mp h
    rw [retargetPlace_node, admissible_node, settleable_node,
      admits_retargetPlace aliasName library hadmits, Bool.not_eq_true',
      forall_mem_settleParts, List.forall_mem_map]
    · refine and_congr_right fun _ => forall₂_congr fun t ht => ih t ht (hparts t ht)
    · rw [List.forall_mem_map]
      exact fun t ht => admissible_retarget_iff_place aliasName library (hparts t ht)

/-- Retargeting keeps an expression admissible if and only if no call gets where none can stand. -/
theorem admissible_retarget_iff {t : Tree} (h : Admissible t) :
    Admissible (retarget aliasName library t) ↔ Settleable t :=
  (admissible_retarget_iff_place aliasName library h).trans
    (admissible_retargetPlace_iff aliasName library h)

/-! ## What leaves hold does not matter -/

theorem isLeaf_mapAtoms (g : Atom → Atom) (t : Tree) : (t.mapAtoms g).isLeaf = t.isLeaf := by
  cases t with
  | leaf a => rfl
  | node f parts => rw [mapAtoms_node]; rfl

theorem beginsWithCall_mapAtoms (g : Atom → Atom) (t : Tree) :
    (t.mapAtoms g).beginsWithCall = t.beginsWithCall := by
  induction t using Tree.induction with
  | leaf a => rfl
  | node f parts ih =>
    rw [mapAtoms_node]
    by_cases hmember : f = .known .memberExpression ∧ parts.length = 3
    · obtain ⟨rfl, hlength⟩ := hmember
      obtain ⟨span, base, property, rfl⟩ := List.length_eq_three.mp hlength
      exact (beginsWithCall_member _ _ _).trans
        ((ih base (by simp)).trans (beginsWithCall_member span base property).symm)
    · rw [beginsWithCall_node fun hf hl => hmember ⟨hf, hl⟩,
        beginsWithCall_node fun hf hl => hmember ⟨hf, by simpa using hl⟩]

theorem isTarget_mapAtoms (g : Atom → Atom) (t : Tree) :
    Grammar.isTarget (t.mapAtoms g) = Grammar.isTarget t := by
  induction t using unparen_induction with
  | parenthesis s e ih => rw [mapAtoms_node, Grammar.isTarget, ← ih]; rfl
  | bare t ht =>
    cases t with
    | leaf a => rfl
    | node f parts =>
      rw [mapAtoms_node, isTarget_node ht, isTarget_node]
      intro s e heq
      obtain ⟨rfl, hparts⟩ := Tree.node.inj heq
      obtain ⟨span, inner, rfl⟩ : ∃ span inner, parts = [span, inner] :=
        List.length_eq_two.mp (by simpa using congrArg List.length hparts)
      exact ht span inner rfl

theorem admits_mapAtoms (g : Atom → Atom) (f : Form) (parts : List Tree) :
    Grammar.admits f (parts.map (mapAtoms g)) = Grammar.admits f parts := by
  unfold Grammar.admits
  split <;> simp [Option.all_map, Function.comp_def, isLeaf_mapAtoms, beginsWithCall_mapAtoms,
    isTarget_mapAtoms]

/-- Whether a tree is admissible can be seen from its forms alone. -/
theorem admissible_mapAtoms {g : Atom → Atom} {t : Tree} :
    Admissible (t.mapAtoms g) ↔ Admissible t := by
  induction t using Tree.induction with
  | leaf a => exact iff_of_true rfl rfl
  | node f parts ih =>
    rw [mapAtoms_node, admissible_node, admissible_node, admits_mapAtoms, List.forall_mem_map]
    exact and_congr_right fun _ => forall₂_congr ih

/-! ## Inserted statements -/

theorem admissible_objectOf {properties : List (String × Tree)} :
    Admissible (objectOf properties) ↔ ∀ p ∈ properties, Admissible p.2 := by
  rw [objectOf, admissible_known (by decide) (by decide) (by decide) (by decide),
    noSpan, List.forall_mem_cons, and_iff_right (admissible_leaf _), List.forall_mem_singleton,
    admissible_list, List.forall_mem_map]
  exact forall₂_congr fun p _ => by simp

theorem admissible_library (name : String) : Admissible (Metadata.library name) := rfl

end Metadata

/-- The metadata of a component is admissible if and only if all its values are. -/
theorem Component.Entry.admissible_metadata_iff {field aliasName library : String} {e : Entry} :
    Admissible (e.metadata field aliasName library) ↔
      ∀ p ∈ e.properties, Admissible (retarget aliasName library p.2.eraseSpans) := by
  have hassign (name : String) (value : Tree) :
      Admissible (assignMember name field value) ↔ Admissible value := by
    simp [assignMember, memberOf, noSpan, Grammar.isTarget]
  rw [Entry.metadata_eq, hassign, description, admissible_objectOf, List.forall_mem_singleton,
    admissible_objectOf, List.forall_mem_map, mapValues, List.forall_mem_map]
  exact forall₂_congr fun p _ => by rw [admissible_objectOf, List.forall_mem_singleton]

/-- Whatever is within an admissible tree is admissible. -/
theorem Tree.Within.admissible {s t : Tree} (h : Within s t) (ht : Admissible t) : Admissible s := by
  induction h with
  | refl => exact ht
  | part hmem _ ih => exact ih ((admissible_node.mp ht).2 _ hmem)

namespace Module

/-- Attaching keeps an admissible module admissible if and only if no collected value has a marked
validator where a call cannot stand. -/
theorem admissible_attach_iff {m : Module} (options : Options) (h : ∀ t ∈ m.body, Admissible t) :
    (∀ t ∈ (m.attach options).2.body, Admissible t) ↔
      ∀ e ∈ (Survey.ofModule m options).registry.entries, ∀ p ∈ e.properties, Settleable p.2 := by
  have hvalue {e : Entry} (he : e ∈ (Survey.ofModule m options).registry.entries)
      {p : String × Tree} (hp : p ∈ e.properties) (aliasName library : String) :
      Admissible (retarget aliasName library p.2.eraseSpans) ↔ Settleable p.2 := by
    obtain ⟨item, hitem, value, hwithin, heq⟩ := Survey.exists_within_of_mem_properties he hp
    -- Values are collected without positions, and erasing them once more changes nothing.
    rw [heq, Tree.eraseSpans_eraseSpans]
    exact admissible_retarget_iff _ _ (admissible_mapAtoms.mpr (hwithin.admissible (h item hitem)))
  have hperm := splice_perm m.body (library (freshName m options.libraryBaseName))
    (m.lt_length_of_mem_insertions options)
  rw [map_statement_insertions, ← attach_body] at hperm
  constructor
  · intro hbody e he p hp
    have hproperties : e.hasProperties = true := by
      cases hp' : e.properties with
      | nil => exact absurd hp (by simp [hp'])
      | cons q qs => simp [Entry.hasProperties, hp']
    have hmetadata := hperm.mem_iff.mpr (List.mem_append_right _ (List.mem_cons_of_mem _
      (List.mem_map_of_mem (List.mem_filter.mpr ⟨he, hproperties⟩))))
    exact (hvalue he hp _ _).mp (Entry.admissible_metadata_iff.mp (hbody _ hmetadata) p hp)
  · intro hsettleable item hitem
    rcases m.mem_attach_body options hitem with hold | rfl | ⟨e, he, -, rfl⟩
    · exact h item hold
    · exact admissible_library _
    · exact Entry.admissible_metadata_iff.mpr fun p hp =>
        (hvalue he hp _ _).mpr (hsettleable e he p hp)

end Module

namespace Source

/-- A tree without anything that its leaves hold: positions, values and spellings. -/
def skeleton : Tree → Tree := Tree.mapAtoms fun _ => .null

/-- What is written for a text that can be read, and when it is the text of no module.

Every text that can be read is given a report and a new text, those of its module.  The new module is
admissible if and only if every collected value is settleable.  If one is not, then no text at all is
read as the new module, whatever the dialect and whatever the leaves hold. -/
theorem Document.attach_settleable {dialect : Dialect} {text : String} {d : Document} (options : Options)
    (h : Document.read? dialect text = some d) :
    attach? dialect text options =
      some ((d.contents.attach options).1, (d.attach options).2.render) ∧
    ((∀ t ∈ (d.attach options).2.contents.body, Admissible t) ↔
      ∀ e ∈ (Survey.ofModule d.contents options).registry.entries,
        ∀ p ∈ e.properties, Settleable p.2) ∧
    ((∃ e ∈ (Survey.ofModule d.contents options).registry.entries,
        ∃ p ∈ e.properties, ¬ Settleable p.2) →
      ∀ dialect' text' d', Document.read? dialect' text' = some d' →
        d'.contents.body.map skeleton ≠ (d.attach options).2.contents.body.map skeleton) := by
  have hiff := Module.admissible_attach_iff options (Document.admissible_of_read? h)
  refine ⟨by rw [attach?, h]; rfl, hiff, ?_⟩
  rintro ⟨e, he, p, hp, hclash⟩ dialect' text' d' h' heq
  refine hclash (hiff.mp (fun t ht => ?_) e he p hp)
  obtain ⟨t', ht', hskeleton⟩ := List.mem_map.mp (heq ▸ List.mem_map_of_mem (f := skeleton) ht)
  have hadmissible : Admissible (skeleton t') :=
    admissible_mapAtoms.mpr (Document.admissible_of_read? h' t' ht')
  rw [hskeleton] at hadmissible
  exact admissible_mapAtoms.mp hadmissible

/-- A component with a property whose value makes what a required validator gives. -/
def madeRequired : String :=
  "class A\x7b\x7dA.propTypes=\x7bp:new a.b.isRequired\x7d"

theorem Document.attach_settleable_madeRequired :
    ∃ d, Document.read? ⟨false, true⟩ madeRequired = some d ∧
      ∀ dialect text d', Document.read? dialect text = some d' →
        d'.contents.body.map skeleton ≠ (d.attach {}).2.contents.body.map skeleton := by
  have hread : ((Document.read? ⟨false, true⟩ madeRequired).map fun d =>
      (Survey.ofModule d.contents {}).registry.entries.any fun e =>
        e.properties.any fun p => !decide (Settleable p.2)) = some true := by
    decide +kernel
  obtain ⟨d, hd, hclash⟩ := Option.map_eq_some_iff.mp hread
  obtain ⟨e, he, hproperty⟩ := List.any_eq_true.mp hclash
  obtain ⟨p, hp, hvalue⟩ := List.any_eq_true.mp hproperty
  exact ⟨d, hd, (Document.attach_settleable {} hd).2.2 ⟨e, he, p, hp, by simpa using hvalue⟩⟩

/-- The text written for a module is read as another module, and not only for its parentheses. -/
theorem Document.reread_madeRequired :
    ∃ d d', Document.read? ⟨false, true⟩ madeRequired = some d ∧
      Document.read? ⟨false, true⟩ (d.attach {}).2.render = some d' ∧
      d'.contents.body.map (skeleton ∘ unwrap) ≠
        (d.attach {}).2.contents.body.map (skeleton ∘ unwrap) := by
  have hread : ((Document.read? ⟨false, true⟩ madeRequired).bind fun d =>
      (Document.read? ⟨false, true⟩ (d.attach {}).2.render).map fun d' =>
        decide (d'.contents.body.map (skeleton ∘ unwrap) ≠
          (d.attach {}).2.contents.body.map (skeleton ∘ unwrap))) = some true := by
    decide +kernel
  obtain ⟨d, hd, hagain⟩ := Option.bind_eq_some_iff.mp hread
  obtain ⟨d', hd', hne⟩ := Option.map_eq_some_iff.mp hagain
  exact ⟨d, d', hd, hd', of_decide_eq_true hne⟩

end Source

end PropCatalog
