import PropCatalog.Proofs.Identifiers
import PropCatalog.Proofs.Marking

/-!
# Retargeting leaves nothing to retarget

Retargeting works from the bottom up, and at every step it builds a call and moves a validator out of
its parentheses.  Either could be something to retarget again further out, as in
`a.b.isRequired.isRequired`.  This file says what is left: no identifier is spelled like the alias, and
no expression at any depth is a validator marked as required (`Metadata.IsRetargeted`).

Marks may stay where there is no expression, directly as the left side of an assignment and directly
as the base of an optional chain.  Which positions these are is said by the fields of a node
(`Tree.Form.holdsPlace`), and an expression is whatever stands in another position.

A tree with nothing to retarget is left as it is (`retarget_eq_self`), so retargeting twice is
retargeting once.
-/

namespace PropCatalog

namespace Tree

/-! ## Expressions of a tree -/

/-- Whether what a kind of node has under a field is no expression by itself: what an assignment
assigns to, and what an optional chain goes on from. -/
def Kind.holdsPlace (kind : Kind) (field : String) : Bool :=
  match kind with
  | .assignmentExpression => field == "left"
  | .optionalChain => field == "base"
  | _ => false

/-- Whether the part of a node at a position is no expression by itself. -/
def Form.holdsPlace (form : Form) (position : Nat) : Bool :=
  match form with
  | .known kind => kind.fields[position]?.any kind.holdsPlace
  | _ => false

/-- A tree stands as an expression somewhere below the top of another one. -/
inductive ExpressionBelow (e : Tree) : Tree → Prop
  | part {form : Form} {parts : List Tree} {position : Nat} (hpart : parts[position]? = some e)
      (hplace : form.holdsPlace position = false) : ExpressionBelow e (.node form parts)
  | deeper {form : Form} {parts : List Tree} {t : Tree} (ht : t ∈ parts)
      (he : ExpressionBelow e t) : ExpressionBelow e (.node form parts)

/-- A tree is another one, or stands as an expression somewhere in it. -/
def ExpressionIn (e t : Tree) : Prop := e = t ∨ ExpressionBelow e t

theorem not_expressionBelow_leaf (e : Tree) (a : Atom) : ¬ ExpressionBelow e (.leaf a) := by
  intro h
  cases h

end Tree

namespace Metadata

open PropCatalog.Tree

variable {aliasName library : String}

/-- The fields tell the same positions apart as retargeting does. -/
theorem holdsPlace_eq_isPlace (form : Form) (position : Nat) :
    form.holdsPlace position = isPlace form position := by
  cases form with
  | known kind =>
    by_cases hassignment : kind = .assignmentExpression
    · subst hassignment
      rcases position with _ | _ | _ | _ | position <;>
        simp [Form.holdsPlace, isPlace, Kind.fields, Kind.layout, Kind.holdsPlace]
    · by_cases hchain : kind = .optionalChain
      · subst hchain
        rcases position with _ | _ | _ | position <;>
          simp [Form.holdsPlace, isPlace, Kind.fields, Kind.layout, Kind.holdsPlace]
      · have hkind : kind.holdsPlace = fun _ => false := by
          funext field
          unfold Kind.holdsPlace
          split <;> simp_all
        have hform : HasNoPlace (.known kind) := by
          constructor <;> simpa
        rw [isPlace_eq_false hform, Form.holdsPlace, hkind]
        cases kind.fields[position]? <;> rfl
  | _ => rfl

theorem holdsPlace_eq_false {form : Form} (hform : HasNoPlace form) (position : Nat) :
    form.holdsPlace position = false := by
  rw [holdsPlace_eq_isPlace, isPlace_eq_false hform]

/-! ## Trees without marked expressions -/

/-- No expression below the top of a tree is a call or a member access marked as required. -/
def UnmarkedBelow (t : Tree) : Prop := ∀ e, ExpressionBelow e t → isMarked e = false

/-- No expression of a tree, and not the tree itself, is a call or a member access marked as
required. -/
def Unmarked (t : Tree) : Prop := ∀ e, ExpressionIn e t → isMarked e = false

theorem unmarked_iff {t : Tree} : Unmarked t ↔ isMarked t = false ∧ UnmarkedBelow t := by
  constructor
  · intro h
    exact ⟨h t (Or.inl rfl), fun e he => h e (Or.inr he)⟩
  · rintro ⟨htop, hbelow⟩ e (rfl | he)
    · exact htop
    · exact hbelow e he

@[simp] theorem unmarkedBelow_leaf (a : Atom) : UnmarkedBelow (.leaf a) := by
  intro e he
  exact absurd he (not_expressionBelow_leaf e a)

@[simp] theorem unmarked_leaf (a : Atom) : Unmarked (.leaf a) :=
  unmarked_iff.mpr ⟨rfl, unmarkedBelow_leaf a⟩

/-- Of a part that is no expression only what is below it counts. -/
theorem unmarkedBelow_node {form : Form} {parts : List Tree} :
    UnmarkedBelow (.node form parts) ↔ ∀ position t, parts[position]? = some t →
      UnmarkedBelow t ∧ (form.holdsPlace position = false → isMarked t = false) := by
  constructor
  · intro h position t ht
    exact ⟨fun e he => h e (.deeper (List.mem_of_getElem? ht) he), fun hplace => h t (.part ht hplace)⟩
  · intro h e he
    cases he with
    | part hpart hplace => exact (h _ e hpart).2 hplace
    | deeper ht he =>
      obtain ⟨position, hposition⟩ := List.mem_iff_getElem?.mp ht
      exact (h position _ hposition).1 e he

/-- In a node without places every part is an expression. -/
theorem unmarked_node {form : Form} (hform : HasNoPlace form) {parts : List Tree} :
    Unmarked (.node form parts) ↔
      isMarked (.node form parts) = false ∧ ∀ t ∈ parts, Unmarked t := by
  rw [unmarked_iff, unmarkedBelow_node]
  refine and_congr_right fun _ => ?_
  constructor
  · intro h t ht
    obtain ⟨position, hposition⟩ := List.mem_iff_getElem?.mp ht
    obtain ⟨hbelow, htop⟩ := h position t hposition
    exact unmarked_iff.mpr ⟨htop (holdsPlace_eq_false hform position), hbelow⟩
  · intro h position t ht
    obtain ⟨htop, hbelow⟩ := unmarked_iff.mp (h t (List.mem_of_getElem? ht))
    exact ⟨hbelow, fun _ => htop⟩

theorem Unmarked.unparen {t : Tree} (h : Unmarked t) : Unmarked t.unparen := by
  induction t using unparen_induction with
  | bare t ht => rwa [unparen_eq_self ht]
  | parenthesis span inner ih =>
    rw [unparen_parenthesis]
    exact ih (((unmarked_node (by decide)).mp h).2 inner (by simp))

/-! ## Retargeting -/

/-- The call that settling makes adds nothing that is marked: its callee is a member of an
identifier. -/
theorem unmarked_requiredCall {validator : Tree} (h : Unmarked validator) :
    Unmarked (requiredCall library validator) := by
  have hform {form : Form} (hidentifier : ∀ kind, form ≠ .known kind) : HasNoPlace form :=
    ⟨hidentifier _, hidentifier _⟩
  have hreference : Unmarked (reference library) :=
    (unmarked_node (hform (by simp))).mpr ⟨rfl, by simp [noSpan, noContext]⟩
  have hname : Unmarked (plainName requiredField) :=
    (unmarked_node (hform (by simp))).mpr ⟨rfl, by simp [noSpan]⟩
  have hcallee : Unmarked (memberOf (reference library) requiredField) :=
    (unmarked_node (by decide)).mpr ⟨rfl, by simp [noSpan, hreference, hname]⟩
  have hargument : Unmarked (plainArgument validator) :=
    (unmarked_node (by decide)).mpr ⟨rfl, by simp [h]⟩
  have harguments : Unmarked (.list [plainArgument validator]) :=
    (unmarked_node (by decide)).mpr ⟨rfl, by simp [hargument]⟩
  exact (unmarked_node (by decide)).mpr ⟨rfl, by simp [noSpan, noContext, hcallee, harguments]⟩

/-- Settling an expression of which everything below is settled leaves nothing marked. -/
theorem unmarked_settle {t : Tree} (h : UnmarkedBelow t) : Unmarked (settle library t) := by
  cases hmarked : isMarked t with
  | false =>
    rw [settle_of_not_isMarked library hmarked]
    exact unmarked_iff.mpr ⟨hmarked, h⟩
  | true =>
    obtain ⟨span, validator, parts, rfl, -⟩ := isMarked_iff.mp hmarked
    have hvalidator : Unmarked validator := by
      obtain ⟨hbelow, htop⟩ := unmarkedBelow_node.mp h 1 validator rfl
      exact unmarked_iff.mpr ⟨htop rfl, hbelow⟩
    rw [settle_of_isMarked library hmarked]
    exact unmarked_requiredCall hvalidator.unparen

theorem unmarkedBelow_retargetPlace (t : Tree) : UnmarkedBelow (retargetPlace aliasName library t) := by
  induction t using Tree.induction with
  | leaf a => exact unmarkedBelow_leaf a
  | node form parts ih =>
    rw [retargetPlace_node, unmarkedBelow_node]
    intro position t ht
    rw [getElem?_settleParts, Option.map_eq_some_iff] at ht
    obtain ⟨old, hold, rfl⟩ := ht
    have hbelow := ih old (List.mem_of_getElem? hold)
    have hform : (form.rename aliasName library).holdsPlace position = isPlace form position := by
      rw [← holdsPlace_eq_isPlace]
      cases form <;> rfl
    rw [hform]
    cases hplace : isPlace form position with
    | true => exact ⟨hbelow, by simp⟩
    | false =>
      -- An expression is settled after what is below it, so neither can be marked.
      have hsettled : Unmarked (retarget aliasName library old) := unmarked_settle hbelow
      obtain ⟨htop, hbelow⟩ := unmarked_iff.mp hsettled
      exact ⟨hbelow, fun _ => htop⟩

theorem unmarked_retarget (t : Tree) : Unmarked (retarget aliasName library t) :=
  unmarked_settle (unmarkedBelow_retargetPlace t)

variable (aliasName library) in
/-- A tree in which there is nothing to retarget. -/
structure IsRetargeted (t : Tree) : Prop where
  /-- No identifier is spelled like the alias. -/
  identifiers : aliasName ≠ library → aliasName ∉ t.identifiers
  /-- No expression is a call or a member access marked as required. -/
  expressions : ∀ e, ExpressionIn e t → isMarked e = false

theorem rename_eq_self {form : Form}
    (h : aliasName ≠ library → aliasName ∉ form.identifier?.toList) :
    form.rename aliasName library = form := by
  cases form with
  | identifier x =>
    by_cases hx : x = aliasName
    · by_cases hsame : aliasName = library
      · simp [Form.rename, hx, hsame]
      · exact absurd (by simp [Form.identifier?, hx]) (h hsame)
    · simp [Form.rename, hx]
  | _ => rfl

/-- As a place, a tree with nothing to retarget below its top is left as it is. -/
theorem retargetPlace_eq_self {t : Tree} (hnames : aliasName ≠ library → aliasName ∉ t.identifiers)
    (hbelow : UnmarkedBelow t) : retargetPlace aliasName library t = t := by
  induction t using Tree.induction with
  | leaf a => rfl
  | node form parts ih =>
    have hform : form.rename aliasName library = form := by
      refine rename_eq_self fun hne hmem => hnames hne ?_
      rw [identifiers_node]
      exact List.mem_append_left _ hmem
    rw [retargetPlace_node, hform]
    -- Part by part: what stands in a place is left alone, and nothing else here is marked.
    congr 1
    apply List.ext_getElem?
    intro position
    rw [getElem?_settleParts]
    cases hpart : parts[position]? with
    | none => rfl
    | some part =>
      have hmem := List.mem_of_getElem? hpart
      obtain ⟨hbelow, htop⟩ := unmarkedBelow_node.mp hbelow position part hpart
      have hpart : retargetPlace aliasName library part = part :=
        ih part hmem (fun hne hx => hnames hne (Component.mem_identifiers_of_mem_parts hmem hx)) hbelow
      rw [Option.map_some, retarget, hpart]
      split
      · rfl
      · next hplace =>
        rw [holdsPlace_eq_isPlace] at htop
        rw [settle_of_not_isMarked library (htop (by simpa using hplace))]

theorem retarget_eq_self {t : Tree} (h : IsRetargeted aliasName library t) :
    retarget aliasName library t = t := by
  obtain ⟨htop, hbelow⟩ := unmarked_iff.mp h.expressions
  rw [retarget, retargetPlace_eq_self h.identifiers hbelow, settle_of_not_isMarked library htop]

/-- Whatever is retargeted, nothing to retarget is left in it, and so retargeting it again changes
nothing. -/
theorem isRetargeted_retarget (aliasName library : String) (t : Tree) :
    IsRetargeted aliasName library (retarget aliasName library t) ∧
      retarget aliasName library (retarget aliasName library t) = retarget aliasName library t := by
  have hretargeted : IsRetargeted aliasName library (retarget aliasName library t) :=
    ⟨fun hne => notMem_identifiers_retarget hne t, unmarked_retarget t⟩
  exact ⟨hretargeted, retarget_eq_self hretargeted⟩

-- Each mark becomes a call around the one inside it.
example : retarget "a" "L" (memberOf (memberOf (memberOf (reference "a") "b") requiredField)
    requiredField) = requiredCall "L" (requiredCall "L" (memberOf (reference "L") "b")) := by
  decide

end Metadata

end PropCatalog
