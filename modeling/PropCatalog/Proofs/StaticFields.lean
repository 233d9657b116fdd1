import Mathlib.Data.List.Basic
import PropCatalog.Component.StaticFields

/-!
# The static literals of a class declaration

The walk through a class declaration counts the class declarations it is in and collects at count
one.  Here the count is replaced by what stands around a node: `Tree.occurrences` lists all that stands
in a tree, in document order and each with the forms of the nodes around it, and a walk that starts at
some count collects where that count and the class declarations around make one
(`Walk.visit_eq`).  So a field belongs to the nearest class declaration around it, a nested declaration
is passed over as a whole, and a class expression is looked into like any other node.

`staticLiterals` gives the same literals by recursion on the tree, and collecting the static fields of
a declaration is collecting these one after the other (`Entry.collectStatic_eq_foldl`).
-/

namespace PropCatalog

namespace Tree

/-! ## What stands in a tree -/

/-- A tree that stands in another one, with the forms of the nodes around it from the outside in. -/
structure Occurrence where
  around : List Form
  tree : Tree
deriving DecidableEq, Repr

/-- An occurrence seen from a node further out. -/
def Occurrence.under (form : Form) (o : Occurrence) : Occurrence := ⟨form :: o.around, o.tree⟩

/-- All that stands in a tree, the tree itself included, in the order in which a traversal arrives
there. -/
def occurrences : Tree → List Occurrence :=
  para (fun a => [⟨[], .leaf a⟩]) fun form parts =>
    ⟨[], .node form (parts.map Prod.fst)⟩ ::
      parts.flatMap fun part => part.2.map (.under form)

@[simp] theorem occurrences_leaf (a : Atom) : occurrences (.leaf a) = [⟨[], .leaf a⟩] := rfl

theorem occurrences_node (form : Form) (parts : List Tree) :
    occurrences (.node form parts) =
      ⟨[], .node form parts⟩ :: parts.flatMap fun t => (occurrences t).map (.under form) := by
  rw [occurrences, para_node, ← occurrences, List.map_map, List.flatMap_map]
  simp [Function.comp_def]

end Tree

namespace Component

open Tree

/-! ## Literals by recursion -/

/-- The static literals under a node that belong to the class declaration around it, from those
under its parts. -/
def nodeLiterals (form : Form) (parts : List (Tree × List Tree)) : List Tree :=
  match form with
  | .known .classDeclaration => []
  | .known .classProperty =>
      (staticLiteral? (parts.map Prod.fst)).toList ++ parts.flatMap Prod.snd
  | _ => parts.flatMap Prod.snd

/-- The static literals in a tree that belong to the class declaration around the tree. -/
def ownLiterals : Tree → List Tree :=
  para (fun _ => []) nodeLiterals

/-- The static literals that belong to a class declaration. -/
def staticLiterals (declaration : Tree) : List Tree :=
  declaration.parts.flatMap ownLiterals

@[simp] theorem ownLiterals_leaf (a : Atom) : ownLiterals (.leaf a) = [] := rfl

/-- A nested class declaration keeps its literals to itself. -/
@[simp] theorem ownLiterals_classDeclaration (parts : List Tree) :
    ownLiterals (.node (.known .classDeclaration) parts) = [] := by
  rw [ownLiterals, para_node]
  rfl

theorem ownLiterals_classProperty (parts : List Tree) :
    ownLiterals (.node (.known .classProperty) parts) =
      (staticLiteral? parts).toList ++ parts.flatMap ownLiterals := by
  rw [ownLiterals, para_node]
  simp [nodeLiterals, List.map_map, Function.comp_def, List.flatMap_map]

theorem ownLiterals_node {form : Form} (hdeclaration : form ≠ .known .classDeclaration)
    (hproperty : form ≠ .known .classProperty) (parts : List Tree) :
    ownLiterals (.node form parts) = parts.flatMap ownLiterals := by
  rw [ownLiterals, para_node]
  unfold nodeLiterals
  split
  · exact absurd rfl hdeclaration
  · exact absurd rfl hproperty
  · simp [List.flatMap_map]

/-! ## Literals by what stands around them -/

/-- The spelling of a key that is a name. -/
def nameSpelling? : Tree → Option String
  | .node (.name x) _ => some x
  | _ => none

/-- The object literal, apart from parentheses around it, that a class property has as its value if it
is static and its key is the name `propTypes`. -/
def propTypesLiteral? (t : Tree) : Option Tree :=
  match t with
  | .node (.known .classProperty) _ =>
      if t.field? "isStatic" = some (.bool true) ∧
          (t.field? "key").bind nameSpelling? = some propTypesField then
        (t.field? "value").bind objectLiteral?
      else none
  | _ => none

/-- The literals that a walk at the given depth finds at depth one in a tree: those for which the depth
and the number of class declarations around them make one. -/
def literalsAt (depth : Nat) (t : Tree) : List Tree :=
  ((occurrences t).filter fun o =>
    depth + o.around.count (.known .classDeclaration) = 1).filterMap fun o =>
      propTypesLiteral? o.tree

/-- How much deeper it is below a node than at the node. -/
def descent (form : Form) : Nat := if form = .known .classDeclaration then 1 else 0

theorem exists_of_nameSpelling? {t : Tree} {x : String} (h : nameSpelling? t = some x) :
    ∃ parts, t = .node (.name x) parts := by
  unfold nameSpelling? at h
  split at h
  · next y parts => exact ⟨parts, by rw [Option.some.inj h]⟩
  · cases h

/-- The fields of a class property stand at fixed positions. -/
theorem field?_classProperty (parts : List Tree) :
    (Tree.node (.known .classProperty) parts).field? "key" = parts[1]? ∧
    (Tree.node (.known .classProperty) parts).field? "value" = parts[2]? ∧
    (Tree.node (.known .classProperty) parts).field? "isStatic" = parts[4]? := by
  rcases parts with _ | ⟨_, _ | ⟨_, _ | ⟨_, _ | ⟨_, _ | ⟨_, _⟩⟩⟩⟩⟩ <;> exact ⟨rfl, rfl, rfl⟩

theorem propTypesLiteral?_classProperty (parts : List Tree) :
    propTypesLiteral? (.node (.known .classProperty) parts) = staticLiteral? parts := by
  obtain ⟨hkey, hvalue, hstatic⟩ := field?_classProperty parts
  rw [propTypesLiteral?, hkey, hvalue, hstatic, eq_comm]
  unfold staticLiteral?
  split
  · simp [nameSpelling?]
  · next hshape =>
    -- A property with the right key and mark has the shape that is looked for.
    refine (if_neg ?_).symm
    rintro ⟨hmark, hname⟩
    obtain ⟨key, hat, hspelling⟩ := Option.bind_eq_some_iff.mp hname
    obtain ⟨names, rfl⟩ := exists_of_nameSpelling? hspelling
    rcases parts with _ | ⟨_, _ | ⟨_, _ | ⟨_, _ | ⟨_, _ | ⟨_, _⟩⟩⟩⟩⟩ <;> simp at hmark hat
    subst hmark hat
    exact hshape _ _ _ _ _ _ rfl

theorem propTypesLiteral?_of_ne {form : Form} (h : form ≠ .known .classProperty)
    (parts : List Tree) : propTypesLiteral? (.node form parts) = none := by
  unfold propTypesLiteral?
  split
  · next heq => exact absurd (Tree.node.inj heq).1 h
  · rfl

theorem count_under (form : Form) (o : Occurrence) :
    (o.under form).around.count (.known .classDeclaration) =
      descent form + o.around.count (.known .classDeclaration) := by
  change (form :: o.around).count _ = _
  rw [List.count_cons, Nat.add_comm]
  congr 1
  unfold descent
  simp only [beq_iff_eq]

@[simp] theorem literalsAt_leaf (depth : Nat) (a : Atom) : literalsAt depth (.leaf a) = [] := by
  unfold literalsAt
  rw [List.filterMap_eq_nil_iff]
  intro o ho
  rw [List.mem_singleton.mp (List.mem_filter.mp ho).1]
  rfl

/-- A node comes before what is below it, and what is below it is as much deeper. -/
theorem literalsAt_node (depth : Nat) (form : Form) (parts : List Tree) :
    literalsAt depth (.node form parts) =
      (if depth = 1 then (propTypesLiteral? (.node form parts)).toList else []) ++
        parts.flatMap (literalsAt (depth + descent form)) := by
  have hbelow (t : Tree) :
      (((occurrences t).map (Occurrence.under form)).filter fun o =>
        depth + o.around.count (.known .classDeclaration) = 1).filterMap
          (fun o => propTypesLiteral? o.tree) =
      literalsAt (depth + descent form) t := by
    rw [List.filter_map, List.filterMap_map, literalsAt]
    simp only [Function.comp_def, count_under, Nat.add_assoc]
    rfl
  have hself : ([(⟨[], .node form parts⟩ : Occurrence)].filter fun o =>
        depth + o.around.count (.known .classDeclaration) = 1).filterMap
          (fun o => propTypesLiteral? o.tree) =
      if depth = 1 then (propTypesLiteral? (.node form parts)).toList else [] := by
    by_cases hdepth : depth = 1
    · cases hliteral : propTypesLiteral? (.node form parts) <;> simp [hdepth, hliteral]
    · simp [hdepth]
  rw [literalsAt, occurrences_node, ← List.singleton_append, List.filter_append,
    List.filterMap_append, hself, List.filter_flatMap, List.filterMap_flatMap]
  simp only [hbelow]

/-- Below a second class declaration there is nothing. -/
theorem literalsAt_deep {depth : Nat} (hdepth : 2 ≤ depth) (t : Tree) : literalsAt depth t = [] := by
  unfold literalsAt
  rw [List.filter_eq_nil_iff.mpr, List.filterMap_nil]
  intro o _
  rw [decide_eq_true_eq]
  omega

/-- Going down from depth one reaches the literals that belong to the declaration around. -/
theorem literalsAt_one (t : Tree) : literalsAt 1 t = ownLiterals t := by
  induction t using Tree.induction with
  | leaf a => rw [literalsAt_leaf, ownLiterals_leaf]
  | node form parts ih =>
    rw [literalsAt_node, if_pos rfl]
    by_cases hdeclaration : form = .known .classDeclaration
    · subst hdeclaration
      rw [propTypesLiteral?_of_ne (by decide), ownLiterals_classDeclaration]
      simp [descent, literalsAt_deep]
    · have hparts : parts.flatMap (literalsAt (1 + descent form)) = parts.flatMap ownLiterals := by
        rw [descent, if_neg hdeclaration]
        exact List.flatMap_congr ih
      rw [hparts]
      by_cases hproperty : form = .known .classProperty
      · subst hproperty
        rw [propTypesLiteral?_classProperty, ownLiterals_classProperty]
      · rw [propTypesLiteral?_of_ne hproperty, ownLiterals_node hdeclaration hproperty]
        rfl

namespace Walk

/-! ## The walk -/

/-- Arriving at a node, a walk goes down by its descent and, at count one, collects its literal. -/
theorem enter_eq (w : Walk) (form : Form) (parts : List Tree) :
    w.enter form parts =
      ⟨w.depth + descent form,
        (if w.depth = 1 then (propTypesLiteral? (.node form parts)).toList else []).foldl
          Entry.collect w.entry⟩ := by
  by_cases hdeclaration : form = .known .classDeclaration
  · subst hdeclaration
    rw [propTypesLiteral?_of_ne (by decide), Option.toList_none, ite_self]
    rfl
  · rw [descent, if_neg hdeclaration]
    by_cases hproperty : form = .known .classProperty
    · subst hproperty
      rw [propTypesLiteral?_classProperty]
      unfold enter
      cases hliteral : staticLiteral? parts with
      | none => simp
      | some literal =>
        by_cases hdepth : w.depth = 1 <;> simp [hdepth]
    · have hself : w.enter form parts = w := by
        unfold enter
        split
        · exact absurd rfl hdeclaration
        · exact absurd rfl hproperty
        · rfl
      rw [hself, propTypesLiteral?_of_ne hproperty, Option.toList_none, ite_self]
      rfl

/-- Leaving a node undoes the descent. -/
theorem leave_descent (depth : Nat) (entry : Entry) (form : Form) :
    leave ⟨depth + descent form, entry⟩ form = ⟨depth, entry⟩ := by
  by_cases hdeclaration : form = .known .classDeclaration
  · subst hdeclaration
    rfl
  · rw [descent, if_neg hdeclaration]
    unfold leave
    split
    · exact absurd rfl hdeclaration
    · rfl

theorem visitAll_eq {parts : List Tree}
    (hparts : ∀ t ∈ parts, ∀ w : Walk,
      visit t w = ⟨w.depth, (literalsAt w.depth t).foldl Entry.collect w.entry⟩) (w : Walk) :
    visitAll parts w =
      ⟨w.depth, (parts.flatMap (literalsAt w.depth)).foldl Entry.collect w.entry⟩ := by
  induction parts generalizing w with
  | nil => rfl
  | cons part parts ih =>
    obtain ⟨hhead, htail⟩ := List.forall_mem_cons.mp hparts
    rw [visitAll, hhead, ih htail, List.flatMap_cons, List.foldl_append]

/-- A walk restores its count and collects, in document order, the literals at which its count and the
class declarations around make one. -/
theorem visit_eq (t : Tree) : ∀ w : Walk,
    visit t w = ⟨w.depth, (literalsAt w.depth t).foldl Entry.collect w.entry⟩ := by
  induction t using Tree.induction with
  | leaf a =>
    intro w
    rw [literalsAt_leaf]
    rfl
  | node form parts ih =>
    intro w
    rw [visit, enter_eq, visitAll_eq ih, leave_descent, literalsAt_node, List.foldl_append]

end Walk

/-- Collecting the static fields of a class declaration is collecting its static literals one
after the other. -/
theorem Entry.collectStatic_eq_foldl (entry : Entry) (parts : List Tree) :
    entry.collectStatic (.node (.known .classDeclaration) parts) =
      (staticLiterals (.node (.known .classDeclaration) parts)).foldl Entry.collect entry := by
  have hliterals : literalsAt 0 (.node (.known .classDeclaration) parts) =
      staticLiterals (.node (.known .classDeclaration) parts) := by
    rw [literalsAt_node, if_neg (by decide), List.nil_append]
    exact List.flatMap_congr fun t _ => literalsAt_one t
  rw [Entry.collectStatic, Walk.visit_eq, hliterals]

/-- Counted from outside a class declaration, one is reached where nothing but that declaration itself
is a class declaration around. -/
theorem literalsAt_zero (parts : List Tree) :
    literalsAt 0 (.node (.known .classDeclaration) parts) =
      ((occurrences (.node (.known .classDeclaration) parts)).filter fun o =>
        .known .classDeclaration ∉ o.around.tail).filterMap fun o => propTypesLiteral? o.tree := by
  rw [literalsAt, occurrences_node, List.filter_cons_of_neg (by simp),
    List.filter_cons_of_pos (by simp),
    List.filterMap_cons_none (f := fun o : Occurrence => propTypesLiteral? o.tree)
      (propTypesLiteral?_of_ne (by decide) parts)]
  congr 1
  apply List.filter_congr
  intro o ho
  obtain ⟨t, -, hinner⟩ := List.mem_flatMap.mp ho
  obtain ⟨inner, -, rfl⟩ := List.mem_map.mp hinner
  have htail : (inner.under (.known .classDeclaration)).around.tail = inner.around := rfl
  have hcount : 0 + (inner.under (.known .classDeclaration)).around.count (.known .classDeclaration) =
      1 ↔ .known .classDeclaration ∉ inner.around := by
    rw [count_under, ← List.count_eq_zero, descent, if_pos rfl]
    omega
  rw [htail]
  exact decide_eq_decide.mpr hcount

/-- A class declaration collects, in document order, the literals of the static `propTypes` fields in
it between which and itself there is no other class declaration.  On the way the count is restored
after every subtree; a class expression, wherever it stands, is walked like any list of trees; and a
class declaration that stands in another one leaves everything as it was. -/
theorem Entry.collectStatic_nearest (entry : Entry) (parts : List Tree) :
    entry.collectStatic (.node (.known .classDeclaration) parts) =
      (((occurrences (.node (.known .classDeclaration) parts)).filter fun o =>
        .known .classDeclaration ∉ o.around.tail).filterMap fun o =>
          propTypesLiteral? o.tree).foldl Entry.collect entry ∧
    (∀ (t : Tree) (w : Walk), (Walk.visit t w).depth = w.depth) ∧
    (∀ (inner : List Tree) (w : Walk),
      Walk.visit (.node (.known .classExpression) inner) w = Walk.visitAll inner w) ∧
    (∀ (inner : List Tree) (depth : Nat) (e : Entry),
      Walk.visit (.node (.known .classDeclaration) inner) ⟨depth + 1, e⟩ = ⟨depth + 1, e⟩) := by
  refine ⟨?_, ?_, ?_, ?_⟩
  · rw [← literalsAt_zero, Entry.collectStatic, Walk.visit_eq]
  · intro t w
    rw [Walk.visit_eq]
  · intro inner w
    rfl
  · intro inner depth e
    have hnone : literalsAt (depth + 1) (.node (.known .classDeclaration) inner) = [] := by
      rw [literalsAt_node, propTypesLiteral?_of_ne (by decide), Option.toList_none, ite_self,
        List.nil_append, List.flatMap_eq_nil_iff]
      intro t _
      exact literalsAt_deep (by simp [descent]) t
    rw [Walk.visit_eq, hnone]
    rfl

end Component

end PropCatalog
