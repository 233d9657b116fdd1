import PropCatalog.Proofs.Identifiers
import PropCatalog.Proofs.Marking

/-!
# Retargeting can be undone

Retargeting renames identifiers and turns marked validators into calls in one pass, and the calls
stand inside each other and inside arguments.  Still nothing of a statement is lost but positions and
parentheses: `restore` makes every call `L.isRequired(v)` the marked validator `v.isRequired` again and
every other identifier `L` the alias.

That works because the calls which retargeting makes are the only ones of their kind.  A call of the
same kind that is made of the source would come from a member `isRequired` of the alias itself, and a
statement that has one is excluded here, as is one that uses the name of the library
(`Recoverable`).
-/

namespace PropCatalog

open Component Source

namespace Metadata

open PropCatalog.Tree

/-! ## Undoing -/

/-- The validator of a call `library.isRequired(validator)`, where the one argument is not spread. -/
def requiredValidator? (library : String) : Tree → Option Tree
  | .call _ _ (.member _ (.node (.identifier x) _) (.node (.name p) _))
      (.list [.argument .null validator]) _ =>
      if x = library ∧ p = requiredField then some validator else none
  | _ => none

/-- A tree with `validator.isRequired` for every call `library.isRequired(validator)`, and with the
alias for every other identifier that is spelled like the library. -/
def restore (aliasName library : String) : Tree → Tree :=
  para .leaf fun form parts =>
    match requiredValidator? library (.node form (parts.map Prod.fst)), parts.map Prod.snd with
    | some _, [_, _, _, .list [.argument _ validator], _] => memberOf validator requiredField
    | _, restored => .node (form.rename library aliasName) restored

/-- A tree without its positions and without its parentheses. -/
def essence (t : Tree) : Tree := (unwrap t).eraseSpans

variable {aliasName library : String}

theorem requiredValidator?_eq_some {t validator : Tree}
    (h : requiredValidator? library t = some validator) :
    ∃ span context span' identifier name typeArguments,
      t = .call span context
        (.member span' (.node (.identifier library) identifier) (.node (.name requiredField) name))
        (.list [.argument .null validator]) typeArguments := by
  unfold requiredValidator? at h
  split at h
  · next span context span' x identifier p name validator' typeArguments =>
    split at h
    · next hcallee =>
      obtain ⟨rfl, rfl⟩ := hcallee
      obtain rfl := Option.some.inj h
      exact ⟨span, context, span', identifier, name, typeArguments, rfl⟩
    · cases h
  · cases h

/-- Only a call is such a call. -/
theorem requiredValidator?_node {form : Form} (hform : form ≠ .known .callExpression)
    (parts : List Tree) : requiredValidator? library (.node form parts) = none := by
  cases h : requiredValidator? library (.node form parts) with
  | none => rfl
  | some validator =>
    obtain ⟨_, _, _, _, _, _, heq⟩ := requiredValidator?_eq_some h
    exact absurd (Tree.node.inj heq).1 hform

theorem restore_node {form : Form} {parts : List Tree}
    (h : requiredValidator? library (.node form parts) = none) :
    restore aliasName library (.node form parts) =
      .node (form.rename library aliasName) (parts.map (restore aliasName library)) := by
  rw [restore, para_node, ← restore]
  simp only [List.map_map, Function.comp_def, List.map_id', h]

theorem restore_call {t validator : Tree} (h : requiredValidator? library t = some validator) :
    restore aliasName library t =
      memberOf (restore aliasName library validator) requiredField := by
  obtain ⟨span, context, span', identifier, name, typeArguments, rfl⟩ := requiredValidator?_eq_some h
  -- Neither the list of arguments nor the argument is a call, so both stay around the validator.
  have harguments : restore aliasName library (.list [.argument .null validator]) =
      .list [.argument .null (restore aliasName library validator)] := by
    rw [restore_node (requiredValidator?_node (by simp) _), List.map_singleton,
      restore_node (requiredValidator?_node (by simp) _)]
    rfl
  rw [restore, para_node, ← restore]
  simp only [List.map_cons, List.map_nil, h, harguments]

/-! ## What is left without positions and parentheses -/

@[simp] theorem essence_leaf (a : Atom) : essence (.leaf a) = .leaf a.eraseSpan := rfl

theorem essence_parenthesis (span e : Tree) : essence (.parenthesis span e) = essence e := by
  rw [essence, unwrap, fold_node]
  rfl

theorem essence_node {form : Form} {parts : List Tree}
    (h : form = .known .parenthesisExpression → parts.length ≠ 2) :
    essence (.node form parts) = .node form (parts.map essence) := by
  have hunwrap : unwrap (.node form parts) = .node form (parts.map unwrap) := by
    rw [unwrap, fold_node]
    split
    · next heq =>
      refine absurd ?_ (h rfl)
      simpa using congrArg List.length heq
    · rfl
  rw [essence, hunwrap, eraseSpans_node, List.map_map]
  rfl

/-- What is left of a node depends on what is left of its parts. -/
theorem essence_congr {form : Form} {parts parts' : List Tree}
    (h : parts.map essence = parts'.map essence) :
    essence (.node form parts) = essence (.node form parts') := by
  have hlength : parts.length = parts'.length := by
    simpa using congrArg List.length h
  by_cases hparenthesis : form = .known .parenthesisExpression ∧ parts.length = 2
  · obtain ⟨rfl, htwo⟩ := hparenthesis
    obtain ⟨span, e, rfl⟩ := List.length_eq_two.mp htwo
    obtain ⟨span', e', rfl⟩ := List.length_eq_two.mp (hlength.symm.trans htwo)
    rw [essence_parenthesis, essence_parenthesis]
    simpa using (List.cons.inj h).2
  · rw [essence_node fun hform htwo => hparenthesis ⟨hform, htwo⟩,
      essence_node fun hform htwo => hparenthesis ⟨hform, hlength.trans htwo⟩, h]

theorem essence_restore_unparen (t : Tree) :
    essence (restore aliasName library t.unparen) = essence (restore aliasName library t) := by
  induction t using unparen_induction with
  | bare t ht => rw [unparen_eq_self ht]
  | parenthesis span e ih =>
    rw [unparen_parenthesis, ih, restore_node (requiredValidator?_node (by simp) _)]
    exact (essence_parenthesis _ _).symm

/-! ## Statements that are recovered -/

/-- Whether a node has its positions: a name has one and nothing else, and a member access has one
before its object. -/
def isPositioned : Form → List Tree → Bool
  | .name _, [.span _] => true
  | .name _, _ => false
  | .known .memberExpression, .span _ :: _ => true
  | .known .memberExpression, _ => false
  | _, _ => true

/-- Whether a node is the member `isRequired` of an identifier, with or without parentheses around
the identifier. -/
def isRequiredOf (x : String) : Form → List Tree → Bool
  | .known .memberExpression, [_, base, .node (.name p) _] =>
      p == requiredField && base.unparen.spelling? == some x
  | _, _ => false

/-- A tree that can be recovered after retargeting. -/
structure Recoverable (aliasName library : String) (t : Tree) : Prop where
  /-- Names and member accesses have their positions, as in every statement. -/
  positioned : t.all isPositioned = true
  /-- No identifier is spelled like the library. -/
  unused : library ∉ t.identifiers
  /-- Nowhere is there `isRequired` of the alias itself. -/
  indirect : t.all (fun form parts => !isRequiredOf aliasName form parts) = true

theorem Recoverable.of_mem {form : Form} {parts : List Tree} {t : Tree}
    (h : Recoverable aliasName library (.node form parts)) (ht : t ∈ parts) :
    Recoverable aliasName library t := by
  obtain ⟨hpositioned, hunused, hindirect⟩ := h
  rw [all_node, Bool.and_eq_true, List.all_eq_true] at hpositioned hindirect
  exact ⟨hpositioned.2 t ht, fun hmem => hunused (mem_identifiers_of_mem_parts ht hmem),
    hindirect.2 t ht⟩

theorem eq_known_of_retargetPlace {form : Form} {kind : Tree.Kind} {parts parts' : List Tree}
    (h : retargetPlace aliasName library (.node form parts) = .node (.known kind) parts') :
    form = .known kind :=
  (rename_eq_known aliasName library).mp
    (Tree.node.inj ((retargetPlace_node _ _ _ _).symm.trans h)).1

/-- Retargeting makes no member access. -/
theorem eq_member_of_retarget {t span object property : Tree}
    (h : retarget aliasName library t = .member span object property) :
    ∃ span' object' property', t = .member span' object' property' ∧
      object = retarget aliasName library object' ∧
      property = retarget aliasName library property' := by
  rcases settle_cases library (retargetPlace aliasName library t) with heq | ⟨-, validator, heq⟩
  · have hplace : retargetPlace aliasName library t = .member span object property := heq.symm.trans h
    cases t with
    | leaf a => cases hplace
    | node form parts =>
      obtain rfl := eq_known_of_retargetPlace hplace
      rw [retargetPlace_node_eq aliasName library (by decide)] at hplace
      have hparts := (Tree.node.inj hplace).2
      obtain ⟨span', object', property', rfl⟩ : ∃ a b c, parts = [a, b, c] := by
        rw [← List.length_eq_three]
        simpa using congrArg List.length hparts
      simp only [List.map_cons, List.map_nil, List.cons.injEq, and_true] at hparts
      exact ⟨span', object', property', rfl, hparts.2.1.symm, hparts.2.2.symm⟩
  · cases heq.symm.trans h

theorem unparen_of_spelling? {t : Tree} {x : String} (h : t.spelling? = some x) : t.unparen = t := by
  apply unparen_eq_self
  rintro span e rfl
  cases h

/-- Only the alias takes the spelling of a library that is not used. -/
theorem eq_alias_of_renamed {x : String} (hx : x ≠ library)
    (h : renamed aliasName library x = library) : x = aliasName := by
  unfold renamed at h
  split at h
  · assumption
  · exact absurd h hx

/-- Of a tree that can be recovered, nothing becomes a call that marks a validator by its parts
alone. -/
theorem Recoverable.requiredValidator?_eq_none {t : Tree} (h : Recoverable aliasName library t) :
    requiredValidator? library (retargetPlace aliasName library t) = none := by
  cases hcall : requiredValidator? library (retargetPlace aliasName library t) with
  | none => rfl
  | some validator =>
    obtain ⟨_, _, _, _, name, _, heq⟩ := requiredValidator?_eq_some hcall
    cases t with
    | leaf a => cases heq
    | node form parts =>
      obtain rfl := eq_known_of_retargetPlace heq
      rw [retargetPlace_node_eq aliasName library (by decide)] at heq
      have hparts := (Tree.node.inj heq).2
      -- The callee was a member access, its object the alias, and its property `isRequired`.
      obtain ⟨callee, hmem, hcallee⟩ : ∃ callee ∈ parts, retarget aliasName library callee = _ := by
        rw [← List.mem_map, hparts]
        exact List.mem_cons_of_mem _ (List.mem_cons_of_mem _ List.mem_cons_self)
      obtain ⟨span, object, property, rfl, hobject, hproperty⟩ := eq_member_of_retarget hcallee
      obtain ⟨names, rfl⟩ := eq_name_of_retarget aliasName library hproperty.symm
      have hcalleeOk := h.of_mem hmem
      have hspelling : object.spelling?.map (renamed aliasName library) = some library := by
        rw [← spelling?_retarget, ← hobject]
        rfl
      obtain ⟨x, hx, hrenamed⟩ := Option.map_eq_some_iff.mp hspelling
      have hne : x ≠ library := by
        rintro rfl
        exact hcalleeOk.unused (mem_identifiers_of_mem_parts (t := object) (by simp)
          (mem_identifiers_of_spelling? hx))
      obtain rfl := eq_alias_of_renamed hne hrenamed
      have hindirect := hcalleeOk.indirect
      rw [all_node, Bool.and_eq_true] at hindirect
      simp [isRequiredOf, unparen_of_spelling? hx, hx] at hindirect

theorem rename_rename_eq_self {form : Form} (h : library ∉ form.identifier?.toList) :
    (form.rename aliasName library).rename library aliasName = form := by
  cases form with
  | identifier x =>
    have hx : x ≠ library := by
      rintro rfl
      simp [Form.identifier?] at h
    by_cases hold : x = aliasName <;> simp [Form.rename, hold, hx]
  | _ => rfl

/-- A member access that is built again differs from one with positions in its positions only. -/
theorem essence_memberOf {span e validator : Tree} {names : List Tree}
    (hpositioned : (Tree.member span validator (.node (.name requiredField) names)).all isPositioned = true)
    (he : essence e = essence validator) :
    essence (memberOf e requiredField) =
      essence (.member span validator (.node (.name requiredField) names)) := by
  have hspan : ∃ s, span = .span s := by
    rw [all_node, Bool.and_eq_true] at hpositioned
    have hmember := hpositioned.1
    unfold isPositioned at hmember
    split at hmember <;> simp_all
  have hname : ∃ s, names = [.span s] := by
    rw [all_node, Bool.and_eq_true, List.all_eq_true] at hpositioned
    have hproperty := hpositioned.2 (.node (.name requiredField) names) (by simp)
    rw [all_node, Bool.and_eq_true] at hproperty
    have hown := hproperty.1
    unfold isPositioned at hown
    split at hown <;> simp_all
  obtain ⟨s, rfl⟩ := hspan
  obtain ⟨s', rfl⟩ := hname
  apply essence_congr
  simp only [List.map_cons, List.map_nil, he]
  rfl

/-- Undoing recovers a tree, whether it was retargeted as a place or as an expression. -/
theorem essence_restore {t : Tree} (h : Recoverable aliasName library t) :
    essence (restore aliasName library (retargetPlace aliasName library t)) = essence t ∧
    essence (restore aliasName library (retarget aliasName library t)) = essence t := by
  induction t using Tree.induction with
  | leaf a => exact ⟨rfl, rfl⟩
  | node form parts ih =>
    have hparts : ((settleParts library form (parts.map (retargetPlace aliasName library))).map
        (restore aliasName library)).map essence = parts.map essence := by
      apply List.ext_getElem?
      intro position
      rw [List.getElem?_map, List.getElem?_map, getElem?_settleParts, List.getElem?_map]
      cases hpart : parts[position]? with
      | none => rfl
      | some part =>
        have hmem := List.mem_of_getElem? hpart
        obtain ⟨hplace, hexpression⟩ := ih part hmem (h.of_mem hmem)
        simp only [Option.map_some]
        split
        · rw [hplace]
        · rw [hexpression]
    have hform : (form.rename aliasName library).rename library aliasName = form := by
      refine rename_rename_eq_self fun hmem => h.unused ?_
      rw [identifiers_node]
      exact List.mem_append_left _ hmem
    have hplace : essence (restore aliasName library
        (retargetPlace aliasName library (.node form parts))) = essence (.node form parts) := by
      have hnone := h.requiredValidator?_eq_none
      rw [retargetPlace_node] at hnone ⊢
      rw [restore_node hnone, hform]
      exact essence_congr hparts
    -- As an expression the node may have become a call, which is undone first.
    refine ⟨hplace, ?_⟩
    cases hmarked : isMarked (.node form parts) with
    | false => rwa [retarget_of_not_isMarked aliasName library hmarked]
    | true =>
      obtain ⟨span, validator, names, heq, -⟩ := isMarked_iff.mp hmarked
      obtain ⟨rfl, rfl⟩ := Tree.node.inj heq
      have hcall : requiredValidator? library
          (requiredCall library (retarget aliasName library validator).unparen) =
            some (retarget aliasName library validator).unparen := by
        simp [requiredCall, callOf, memberOf, reference, plainName, plainArgument,
          requiredValidator?]
      have hvalidator : essence (restore aliasName library
          (retarget aliasName library validator).unparen) = essence validator := by
        rw [essence_restore_unparen]
        exact (ih validator (by simp) (h.of_mem (by simp))).2
      rw [retarget_of_isMarked aliasName library hmarked, restore_call hcall]
      exact essence_memberOf h.positioned hvalidator

/-- Retargeting loses nothing but positions and parentheses: undoing it recovers what was retargeted,
and two statements that are retargeted to the same one differ in nothing else. -/
theorem essence_restore_retarget (aliasName library : String) :
    (∀ t, Recoverable aliasName library t →
      essence (restore aliasName library (retarget aliasName library t)) = essence t) ∧
    (∀ s t, Recoverable aliasName library s → Recoverable aliasName library t →
      retarget aliasName library s = retarget aliasName library t → essence s = essence t) := by
  refine ⟨fun t h => (essence_restore h).2, fun s t hs ht heq => ?_⟩
  calc essence s = essence (restore aliasName library (retarget aliasName library s)) :=
        (essence_restore hs).2.symm
    _ = essence (restore aliasName library (retarget aliasName library t)) := by rw [heq]
    _ = essence t := (essence_restore ht).2

/-- The statement `a.b.isRequired;` as it is read at an offset. -/
def requiredChain (offset : Nat) (wrap : Tree → Tree) : Tree :=
  let chain := Tree.member (.span ⟨1, 4⟩)
    (.node (.identifier "a") [.span ⟨1, 2⟩, noContext, .bool false]) (.node (.name "b") [.span ⟨3, 4⟩])
  .expressionStatement (.span ⟨1, 20⟩)
    (.member (.span ⟨offset, offset + 14⟩) (wrap chain)
      (.node (.name requiredField) [.span ⟨offset + 4, offset + 14⟩]))

/-- `a.b.isRequired;` and `(a.b).isRequired;` are retargeted to the same statement, from which both are
recovered. -/
theorem essence_restore_requiredChain :
    essence (restore "a" "L" (retarget "a" "L" (requiredChain 1 id))) =
      essence (requiredChain 1 id) ∧
    requiredChain 1 id ≠ requiredChain 3 (.parenthesis (.span ⟨0, 6⟩)) ∧
    essence (requiredChain 1 id) = essence (requiredChain 3 (.parenthesis (.span ⟨0, 6⟩))) := by
  have hplain : Recoverable "a" "L" (requiredChain 1 id) :=
    ⟨by decide, by decide, by decide⟩
  have hwrapped : Recoverable "a" "L" (requiredChain 3 (.parenthesis (.span ⟨0, 6⟩))) :=
    ⟨by decide, by decide, by decide⟩
  exact ⟨(essence_restore_retarget "a" "L").1 _ hplain, by decide,
    (essence_restore_retarget "a" "L").2 _ _ hplain hwrapped (by decide)⟩

end Metadata

end PropCatalog
