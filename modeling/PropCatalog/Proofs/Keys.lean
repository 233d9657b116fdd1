import PropCatalog.Proofs.Identifiers
import PropCatalog.Proofs.Marking

/-!
# Keys of object literals

Retargeting renames identifiers wherever they stand and rebuilds expressions around them.  This file
follows the object literals of a statement through it.  None is lost and none is added, and they keep
their order, although a literal can move out of the object of a member access into the argument of a
call (`objects_retarget`).

The key of a property is a name or a literal, and retargeting touches neither.  The exception is a
shorthand: `{ k }` has one identifier that is the key and the value at once.  If it is spelled like the
alias it has to refer to the library afterwards, and its key is changed along with it
(`key?_retarget`).
-/

namespace PropCatalog

open Component

namespace Tree

/-! ## Object literals of a tree -/

/-- What is given for the parts of a node, without what is given for source positions.  These stand
under `span`, and a name has nothing else. -/
def Form.code {α : Type} (form : Form) (parts : List α) : List α :=
  match form with
  | .known kind => ((kind.fields.zip parts).filter fun p => p.1 ≠ "span").map Prod.snd
  | .name _ => []
  | _ => parts

/-- The items of a tree that is a list. -/
def listItems? : Tree → Option (List Tree)
  | .list items => some items
  | _ => none

/-- The elements of an object literal, given its form and its parts. -/
def objectItems? : Form → List Tree → Option (List Tree)
  | .known .objectExpression, [_, properties] => properties.listItems?
  | _, _ => none

/-- The object literals of a tree at any depth, each given by its elements, in the order of a
traversal. -/
def objects : Tree → List (List Tree) :=
  para (fun _ => []) fun form parts =>
    (objectItems? form (parts.map Prod.fst)).toList ++ (form.code (parts.map Prod.snd)).flatten

theorem Form.code_map {α β : Type} (form : Form) (g : α → β) (parts : List α) :
    form.code (parts.map g) = (form.code parts).map g := by
  cases form with
  | known kind =>
    simp only [code, List.zip_map_right, List.filter_map, List.map_map]
    rfl
  | _ => rfl

@[simp] theorem objects_leaf (a : Atom) : (Tree.leaf a).objects = [] := rfl

theorem objects_node (form : Form) (parts : List Tree) :
    (Tree.node form parts).objects =
      (objectItems? form parts).toList ++ (form.code (parts.map objects)).flatten := by
  rw [objects, para_node, ← objects]
  simp only [List.map_map, Function.comp_def, List.map_id']

theorem listItems?_of_ne {form : Form} (h : form ≠ .list) (parts : List Tree) :
    (Tree.node form parts).listItems? = none := by
  unfold listItems?
  split
  · next heq => exact absurd (Tree.node.inj heq).1 h
  · rfl

theorem objectItems?_of_ne {form : Form} (h : form ≠ .known .objectExpression) (parts : List Tree) :
    objectItems? form parts = none := by
  unfold objectItems?
  split
  · exact absurd rfl h
  · rfl

@[simp] theorem objects_name (x : String) (parts : List Tree) :
    (Tree.node (.name x) parts).objects = [] := by
  rw [objects_node]
  rfl

@[simp] theorem objects_parenthesis (span e : Tree) :
    (Tree.parenthesis span e).objects = e.objects := by
  rw [objects_node]
  exact List.append_nil _

@[simp] theorem objects_member (span object property : Tree) :
    (Tree.member span object property).objects = object.objects ++ property.objects := by
  rw [objects_node]
  change object.objects ++ (property.objects ++ []) = _
  rw [List.append_nil]

theorem objects_unparen (t : Tree) : t.unparen.objects = t.objects := by
  induction t using unparen_induction with
  | bare t ht => rw [unparen_eq_self ht]
  | parenthesis span e ih => rw [unparen_parenthesis, ih, objects_parenthesis]

/-! ## Keys -/

/-- A key that is not computed: a word, or the literal of a text or a number. -/
inductive Key where
  | word (spelling : String)
  | literal (t : Tree)
deriving DecidableEq, Repr

/-- Whether a tree is made of leaves and lists alone. -/
def isData : Tree → Bool :=
  fold (fun _ => true) fun form parts => form = .list && parts.all id

/-- The kinds of literals that can be keys. -/
def keyLiterals : List Kind := [.stringLiteral, .numericLiteral, .bigIntLiteral]

/-- The key that stands before the value of a property, unless it is computed. -/
def Key.ofTree? : Tree → Option Key
  | .node (.name x) _ => some (.word x)
  | .node (.identifier x) _ => some (.word x)
  | .node (.known kind) parts =>
      if kind ∈ keyLiterals ∧ parts.all isData then some (.literal (.node (.known kind) parts))
      else none
  | _ => none

/-- The key of an element of an object literal.  A shorthand is its own key; a spread and a property
with a computed key have none. -/
def key? (element : Tree) : Option Key :=
  match element.spelling? with
  | some x => some (.word x)
  | none => (element.field? "key").bind Key.ofTree?

/-- The identifier that an element of an object literal has for its key: that of a shorthand `{ k }`,
or of `{ k = v }`, which is a literal only until it turns out to be a pattern. -/
def shorthand? (element : Tree) : Option String :=
  match element.spelling? with
  | some x => some x
  | none => (element.field? "key").bind spelling?

/-- The place of the key in an element of an object literal.  A shorthand is all key. -/
def keyTree? (element : Tree) : Option Tree :=
  if element.spelling?.isSome then some element else element.field? "key"

theorem Key.ofTree?_of_spelling? {t : Tree} {x : String} (h : t.spelling? = some x) :
    Key.ofTree? t = some (.word x) := by
  cases t with
  | leaf a => cases h
  | node form parts =>
    cases form with
    | identifier y =>
      rw [← Option.some.inj h]
      rfl
    | _ => cases h

theorem key?_eq_bind (element : Tree) : element.key? = element.keyTree?.bind Key.ofTree? := by
  unfold key? keyTree?
  cases hspelling : element.spelling? with
  | none => rfl
  | some x => exact (Key.ofTree?_of_spelling? hspelling).symm

theorem shorthand?_eq_bind (element : Tree) :
    element.shorthand? = element.keyTree?.bind spelling? := by
  unfold shorthand? keyTree?
  cases hspelling : element.spelling? with
  | none => rfl
  | some x => exact hspelling.symm

/-- The identifier of a shorthand is its key. -/
theorem key?_of_shorthand? {element : Tree} {x : String} (h : element.shorthand? = some x) :
    element.key? = some (.word x) := by
  rw [shorthand?_eq_bind] at h
  obtain ⟨key, hkey, hspelling⟩ := Option.bind_eq_some_iff.mp h
  rw [key?_eq_bind, hkey, Option.bind_some, Key.ofTree?_of_spelling? hspelling]

/-- A field that a kind does not have is not found. -/
theorem field?_eq_none {kind : Kind} {field : String} (h : field ∉ kind.fields) (parts : List Tree) :
    (Tree.node (.known kind) parts).field? field = none := by
  rw [field?, List.lookup_eq_none_iff]
  intro p hp
  have hne : field ≠ p.1 := by
    intro heq
    exact h (heq ▸ (List.of_mem_zip hp).1)
  simpa using hne

theorem isData_node (form : Form) (parts : List Tree) :
    (Tree.node form parts).isData = (decide (form = .list) && parts.all isData) := by
  rw [isData, fold_node, ← isData, List.all_map]
  rfl

end Tree

namespace Metadata

open PropCatalog.Tree

variable (aliasName library : String)

/-! ## What retargeting makes of a node -/

/-- A node keeps its form under retargeting, up to the spelling of an identifier, unless it is a member
access that becomes a call. -/
theorem exists_retarget_node (form : Form) (parts : List Tree) :
    ∃ parts', retarget aliasName library (.node form parts) =
        .node (form.rename aliasName library) parts' ∨
      form = .known .memberExpression ∧
        retarget aliasName library (.node form parts) = .node (.known .callExpression) parts' := by
  rcases settle_cases library (retargetPlace aliasName library (.node form parts)) with
    heq | ⟨hmember, validator, heq⟩
  · exact ⟨_, Or.inl (heq.trans (retargetPlace_node _ _ _ _))⟩
  · rw [retargetPlace_node, isMember_node, decide_eq_true_eq, rename_eq_known] at hmember
    exact ⟨_, Or.inr ⟨hmember, heq⟩⟩

/-- Only a list becomes a list. -/
theorem exists_retarget_node_of_ne_list {form : Form} (h : form ≠ .list) (parts : List Tree) :
    ∃ form' parts', retarget aliasName library (.node form parts) = .node form' parts' ∧
      form' ≠ .list := by
  obtain ⟨parts', heq | ⟨-, heq⟩⟩ := exists_retarget_node aliasName library form parts
  · refine ⟨_, _, heq, ?_⟩
    cases form <;> simp_all [Form.rename]
  · exact ⟨_, _, heq, by simp⟩

theorem listItems?_retarget (t : Tree) :
    (retarget aliasName library t).listItems? =
      t.listItems?.map (List.map (retarget aliasName library)) := by
  cases t with
  | leaf a => rfl
  | node form parts =>
    by_cases hlist : form = .list
    · subst hlist
      rw [retarget_list]
      rfl
    · obtain ⟨form', parts', heq, hlist'⟩ :=
        exists_retarget_node_of_ne_list aliasName library hlist parts
      rw [heq, listItems?_of_ne hlist, listItems?_of_ne hlist']
      rfl

/-- What is data stays as it is. -/
theorem retarget_of_isData {t : Tree} (h : t.isData = true) : retarget aliasName library t = t := by
  induction t using Tree.induction with
  | leaf a => rfl
  | node form parts ih =>
    rw [isData_node, Bool.and_eq_true, decide_eq_true_eq, List.all_eq_true] at h
    obtain ⟨rfl, hparts⟩ := h
    rw [retarget_list, List.map_congr_left fun part hpart => ih part hpart (hparts part hpart),
      List.map_id']

/-- Nothing becomes data. -/
theorem isData_retarget (t : Tree) : (retarget aliasName library t).isData = t.isData := by
  induction t using Tree.induction with
  | leaf a => rfl
  | node form parts ih =>
    by_cases hlist : form = .list
    · subst hlist
      rw [retarget_list, isData_node, isData_node, List.all_map]
      congr 1
      rw [Bool.eq_iff_iff, List.all_eq_true, List.all_eq_true]
      exact forall₂_congr fun part hpart => by rw [Function.comp, ih part hpart]
    · obtain ⟨form', parts', heq, hlist'⟩ :=
        exists_retarget_node_of_ne_list aliasName library hlist parts
      rw [heq, isData_node, isData_node, decide_eq_false hlist, decide_eq_false hlist']
      rfl

/-! ## Literals under retargeting -/

theorem objects_requiredCall (validator : Tree) :
    (requiredCall library validator).objects = validator.objects := by
  simp [requiredCall, callOf, memberOf, reference, plainName, plainArgument, noSpan, noContext,
    objects_node, objectItems?, Form.code, Kind.fields, Kind.layout]

/-- Settling moves what a validator has and drops only positions and names. -/
theorem objects_settle (t : Tree) : (settle library t).objects = t.objects := by
  cases hmarked : isMarked t with
  | false => rw [settle_of_not_isMarked library hmarked]
  | true =>
    obtain ⟨span, validator, parts, rfl, -⟩ := isMarked_iff.mp hmarked
    rw [settle_of_isMarked library hmarked, objects_requiredCall, objects_unparen, objects_member,
      objects_name, List.append_nil]

/-- An object literal stays one, with its elements retargeted, and nothing becomes one. -/
theorem objectItems?_retargetPlace (form : Form) (parts : List Tree) :
    objectItems? (form.rename aliasName library)
        (settleParts library form (parts.map (retargetPlace aliasName library))) =
      (objectItems? form parts).map (List.map (retarget aliasName library)) := by
  by_cases hobject : form = .known .objectExpression
  · subst hobject
    rw [settleParts_eq_map library (by decide), List.map_map]
    rcases parts with _ | ⟨span, _ | ⟨properties, _ | ⟨extra, rest⟩⟩⟩
    · rfl
    · rfl
    · exact listItems?_retarget aliasName library properties
    · rfl
  · have hrenamed := mt (rename_eq_known aliasName library).mp hobject
    rw [objectItems?_of_ne hobject, objectItems?_of_ne hrenamed]
    rfl

theorem objects_retargetPlace (t : Tree) :
    (retargetPlace aliasName library t).objects =
      t.objects.map (List.map (retarget aliasName library)) := by
  induction t using Tree.induction with
  | leaf a => rfl
  | node form parts ih =>
    -- Whether a part is settled makes no difference to the literals in it.
    have hparts : (settleParts library form (parts.map (retargetPlace aliasName library))).map objects =
        (parts.map objects).map (List.map (List.map (retarget aliasName library))) := by
      apply List.ext_getElem?
      intro position
      rw [List.getElem?_map, getElem?_settleParts, List.getElem?_map, List.getElem?_map]
      cases hpart : parts[position]? with
      | none => rfl
      | some part =>
        have hpart := ih part (List.mem_of_getElem? hpart)
        simp only [Option.map_some]
        split
        · rw [hpart]
        · rw [retarget, objects_settle, hpart]
    have hcode : (form.rename aliasName library).code
        ((parts.map objects).map (List.map (List.map (retarget aliasName library)))) =
          (form.code (parts.map objects)).map (List.map (List.map (retarget aliasName library))) := by
      rw [Form.code_map]
      cases form <;> rfl
    rw [retargetPlace_node, objects_node, objectItems?_retargetPlace, hparts, hcode, objects_node,
      List.map_append, List.map_flatten, Option.toList_map]

/-- Retargeting keeps the object literals of a tree in their order, each with as many elements. -/
theorem objects_retarget (t : Tree) :
    (retarget aliasName library t).objects =
      t.objects.map (List.map (retarget aliasName library)) := by
  rw [retarget, objects_settle, objects_retargetPlace]

/-! ## Keys under retargeting -/

theorem retarget_keyLiteral {kind : Tree.Kind} (hkind : kind ∈ keyLiterals) (parts : List Tree) :
    retarget aliasName library (.node (.known kind) parts) =
      .node (.known kind) (parts.map (retarget aliasName library)) := by
  have hforms : ∀ kind ∈ keyLiterals,
      HasNoPlace (.known kind) ∧ Form.known kind ≠ .known .memberExpression := by
    decide
  obtain ⟨hplace, hmember⟩ := hforms kind hkind
  exact retarget_node aliasName library hplace hmember parts

/-- A key that is no identifier is kept. -/
theorem keyOfTree?_retarget_of_not_spelling? {t : Tree} (h : t.spelling? = none) :
    Key.ofTree? (retarget aliasName library t) = Key.ofTree? t := by
  cases t with
  | leaf a => rfl
  | node form parts =>
    cases form with
    | identifier x => cases h
    | known kind =>
      by_cases hkind : kind ∈ keyLiterals
      · have hdata : (parts.map (retarget aliasName library)).all isData = parts.all isData := by
          rw [List.all_map]
          congr 1
          exact funext fun part => isData_retarget aliasName library part
        rw [retarget_keyLiteral aliasName library hkind, Key.ofTree?, Key.ofTree?, hdata]
        split
        · next hall =>
          rw [List.map_congr_left fun part hpart =>
            retarget_of_isData aliasName library (List.all_eq_true.mp hall.2 part hpart), List.map_id']
        · rfl
      · -- Neither the node nor what becomes of it is a literal, so neither is a key.
        obtain ⟨parts', heq | ⟨-, heq⟩⟩ := exists_retarget_node aliasName library (.known kind) parts
        · rw [heq, rename_known, Key.ofTree?, Key.ofTree?, if_neg fun h => hkind h.1,
            if_neg fun h => hkind h.1]
        · rw [heq, Key.ofTree?, Key.ofTree?, if_neg (by simp [keyLiterals]),
            if_neg fun h => hkind h.1]
    | _ =>
      rw [retarget_node aliasName library (by constructor <;> simp) (by simp)]
      rfl

/-- In the place of a key, only an identifier that is spelled like the alias is changed. -/
theorem keyOfTree?_retarget (t : Tree) :
    Key.ofTree? (retarget aliasName library t) =
      if t.spelling? = some aliasName then some (.word library) else Key.ofTree? t := by
  cases hspelling : t.spelling? with
  | none => rw [keyOfTree?_retarget_of_not_spelling? aliasName library hspelling, if_neg (by simp)]
  | some x =>
    have hrenamed : (retarget aliasName library t).spelling? = some (renamed aliasName library x) := by
      rw [spelling?_retarget, hspelling, Option.map_some]
    rw [Key.ofTree?_of_spelling? hrenamed, Key.ofTree?_of_spelling? hspelling, renamed]
    by_cases hx : x = aliasName <;> simp [hx]

/-- What stands under `key` is retargeted by itself. -/
theorem field?_key_retarget (t : Tree) :
    (retarget aliasName library t).field? "key" =
      (t.field? "key").map (retarget aliasName library) := by
  have hlookup (names : List String) (parts : List Tree) :
      (names.zip (parts.map (retarget aliasName library))).lookup "key" =
        ((names.zip parts).lookup "key").map (retarget aliasName library) := by
    rw [List.zip_map_right]
    exact Record.lookup_map (retarget aliasName library) "key" (names.zip parts)
  cases t with
  | leaf a => rfl
  | node form parts =>
    cases form with
    | known kind =>
      by_cases hkind : HasNoPlace (.known kind) ∧ Form.known kind ≠ .known .memberExpression
      · rw [retarget_node aliasName library hkind.1 hkind.2]
        exact hlookup kind.fields parts
      · -- The kinds with a place, and member accesses, have nothing under `key`.
        have hkey : "key" ∉ kind.fields := by
          intro hmem
          apply hkind
          revert hmem
          cases kind <;> decide
        rw [field?_eq_none hkey]
        obtain ⟨parts', heq | ⟨-, heq⟩⟩ := exists_retarget_node aliasName library (.known kind) parts
        · rw [heq, rename_known, field?_eq_none hkey]
          rfl
        · rw [heq, field?_eq_none (by decide)]
          rfl
    | record tag names =>
      rw [retarget_node aliasName library (by constructor <;> simp) (by simp)]
      exact hlookup names parts
    | _ =>
      rw [retarget_node aliasName library (by constructor <;> simp) (by simp)]
      rfl

/-- The place of a key is retargeted by itself. -/
theorem keyTree?_retarget (element : Tree) :
    (retarget aliasName library element).keyTree? =
      element.keyTree?.map (retarget aliasName library) := by
  unfold keyTree?
  rw [spelling?_retarget, Option.isSome_map, field?_key_retarget]
  split <;> rfl

/-- Retargeting keeps the key of an element, unless it is a shorthand that is spelled like the
alias. -/
theorem key?_retarget (element : Tree) :
    (retarget aliasName library element).key? =
      if element.shorthand? = some aliasName then some (.word library) else element.key? := by
  rw [key?_eq_bind, keyTree?_retarget, shorthand?_eq_bind, key?_eq_bind]
  cases element.keyTree? with
  | none => rfl
  | some key => exact keyOfTree?_retarget aliasName library key

/-- The keys of a literal stay the same if and only if none of its shorthands is renamed. -/
theorem map_key?_retarget_eq_iff (items : List Tree) :
    (items.map (retarget aliasName library)).map key? = items.map key? ↔
      aliasName = library ∨ ∀ element ∈ items, element.shorthand? ≠ some aliasName := by
  rw [List.map_map, List.map_inj_left]
  constructor
  · intro h
    by_contra hnot
    push Not at hnot
    obtain ⟨hne, element, helement, hshorthand⟩ := hnot
    have hkeys := h element helement
    rw [Function.comp, key?_retarget, if_pos hshorthand, key?_of_shorthand? hshorthand] at hkeys
    exact hne (by simpa using hkeys.symm)
  · rintro hkept element helement
    rw [Function.comp, key?_retarget]
    split
    · next hshorthand =>
      rcases hkept with rfl | hkept
      · exact (key?_of_shorthand? hshorthand).symm
      · exact absurd hshorthand (hkept element helement)
    · rfl

/-- Retargeting changes the key of a shorthand that is spelled like the alias, and no other key.  The
object literals of what is retargeted stand for those of the result one by one and in order.  Each has
as many elements afterwards, and element by element the same keys, computed ones left aside, but for a
shorthand with the spelling of the alias, whose key becomes the library.  So a literal keeps all its
keys if and only if it has no such shorthand or the library is spelled like the alias. -/
theorem keys_retarget (aliasName library : String) (t : Tree) :
    List.Forall₂
      (fun items items' =>
        items' = items.map (retarget aliasName library) ∧
        items'.map key? = (items.map fun element =>
          if element.shorthand? = some aliasName then some (.word library) else element.key?) ∧
        (items'.map key? = items.map key? ↔
          aliasName = library ∨ ∀ element ∈ items, element.shorthand? ≠ some aliasName))
      t.objects (retarget aliasName library t).objects := by
  rw [objects_retarget, List.forall₂_map_right_iff, List.forall₂_same]
  intro items _
  refine ⟨rfl, ?_, map_key?_retarget_eq_iff aliasName library items⟩
  rw [List.map_map]
  exact List.map_congr_left fun element _ => key?_retarget aliasName library element

/-- The statement `x = { PropTypes };`. -/
def shorthandAlias : Tree :=
  .expressionStatement noSpan (.assignment noSpan (.text "=") (binding "x")
    (.object noSpan (.list [reference "PropTypes"])))

/-- A shorthand that is spelled like the alias loses its key: `x = { PropTypes };` becomes
`x = { _lib };`. -/
theorem keys_retarget_shorthandAlias :
    shorthandAlias.objects.map (List.map key?) = [[some (.word "PropTypes")]] ∧
    (retarget "PropTypes" "_lib" shorthandAlias).objects.map (List.map key?) =
      [[some (.word "_lib")]] := by
  decide

end Metadata

end PropCatalog
