import Mathlib
import PropCatalog.Source.Grammar.Module

/-!
# What can be read

The grammar asks two things of a tree that its kinds do not show.  What `new` makes is not the result
of a call, since the arguments of the call would be taken for those of `new`; and what is assigned to
is a name, a member or one of these with a type.  Parentheses get around the first.  Besides, the
positions of accesses, parentheses and names are leaves, so that nothing is lost with them.

Every tree that is read has these properties at every node, whatever the text: a rule builds its nodes
from what other rules gave, and only a few rules build the nodes that matter.  So each rule has one
specification here, and the recursion that ties the rules together is followed by an induction on
its depth (`Grammar.readGoal_spec`, `Document.admissible_of_read?`).
-/

namespace PropCatalog

namespace Tree

/-- Whether a tree is a leaf. -/
def isLeaf : Tree → Bool
  | .leaf _ => true
  | .node _ _ => false

@[simp] theorem isLeaf_leaf (a : Atom) : isLeaf (.leaf a) = true := rfl

/-- Whether a chain of accesses begins with a call. -/
def beginsWithCall : Tree → Bool
  | .node (.known .callExpression) _ => true
  | .member _ base _ => base.beginsWithCall
  | _ => false

end Tree

namespace Source

open Reader Std.Do

set_option mvcgen.warning false

/-- What the grammar asks of a node beyond its kind. -/
def Grammar.admits : Tree.Form → List Tree → Bool
  | .known .newExpression, parts => parts[2]?.all fun callee => !callee.beginsWithCall
  | .known .assignmentExpression, parts => parts[2]?.all isTarget
  | .known .memberExpression, parts => parts[0]?.all Tree.isLeaf
  | .known .parenthesisExpression, parts => parts[0]?.all Tree.isLeaf
  | .name _, parts => parts.all Tree.isLeaf
  | _, _ => true

/-- The grammar admits every node of a tree. -/
def Admissible (t : Tree) : Prop := t.all Grammar.admits = true

@[simp] theorem admissible_leaf (a : Tree.Atom) : Admissible (.leaf a) := rfl

theorem admissible_node {f : Tree.Form} {parts : List Tree} :
    Admissible (.node f parts) ↔ Grammar.admits f parts = true ∧ ∀ t ∈ parts, Admissible t := by
  simp only [Admissible, Tree.all_node, Bool.and_eq_true, List.all_eq_true]

/-- The grammar admits a tree, and the tree does not begin with a call. -/
def Solid (t : Tree) : Prop := Admissible t ∧ t.beginsWithCall = false

@[simp] theorem solid_iff {t : Tree} : Solid t ↔ Admissible t ∧ t.beginsWithCall = false := Iff.rfl

/-! ## Specifications of readers -/

variable {α : Type}

/-- A property of every value that a reader gives. -/
abbrev Yields (r : Reader α) (P : α → Prop) : Prop := ⦃⌜True⌝⦄ r ⦃⇓? a => ⌜P a⌝⦄

theorem yields_iff {r : Reader α} {P : α → Prop} :
    Yields r P ↔ ∀ c a c', r c = some (a, c') → P a := by
  -- A reader that refuses leaves nothing to show, since the postcondition lets it fail.
  have happly (c : Cursor) : (wp⟦r⟧ (⇓? a => ⌜P a⌝) c).down
      = (wp⟦r c⟧ (fun p => ⌜P p.1⌝, fun _ => ⌜True⌝, ())).down := rfl
  refine ⟨fun h c a c' hr => ?_, fun h c _ => ?_⟩
  · have hc : (wp⟦r⟧ (⇓? a => ⌜P a⌝) c).down := h c trivial
    rw [happly, hr] at hc
    exact hc
  · show (wp⟦r⟧ (⇓? a => ⌜P a⌝) c).down
    rw [happly]
    cases hr : r c with
    | none => trivial
    | some p => exact h c p.1 p.2 hr

theorem yields_true (r : Reader α) : Yields r fun _ => True :=
  yields_iff.mpr fun _ _ _ _ => trivial

theorem Yields.bind {β : Type} {r : Reader α} {f : α → Reader β} {P : α → Prop} {Q : β → Prop}
    (h : Yields r P) (hf : ∀ a, P a → Yields (f a) Q) : Yields (r >>= f) Q := by
  rw [yields_iff] at h ⊢
  intro c b c'' hb
  obtain ⟨⟨a, c'⟩, hr, hf'⟩ := Option.bind_eq_some_iff.mp (show (r c).bind _ = some (b, c'') from hb)
  exact yields_iff.mp (hf a (h c a c' hr)) c' b c'' hf'

theorem yields_failure (P : α → Prop) : Yields (failure : Reader α) P :=
  yields_iff.mpr fun _ a c' h =>
    nomatch (show (none : Option (α × Cursor)) = some (a, c') from h)

@[spec] theorem failure_spec : Yields (failure : Reader α) fun _ => False := yields_failure _

@[spec] theorem orElse_spec {r r' : Reader Tree} (h : Yields r Admissible)
    (h' : Yields r' Admissible) : Yields (r <|> r') Admissible := by
  rw [yields_iff] at h h' ⊢
  intro c a c' hr
  change (r c).orElse (fun _ => r' c) = some (a, c') at hr
  cases hv : r c with
  | none =>
    rw [hv] at hr
    exact h' c a c' hr
  | some p =>
    rw [hv] at hr
    obtain rfl := Option.some.inj (show some p = some (a, c') from hr)
    exact h c a c' hv

namespace Reader

@[spec] theorem guard_spec (p : Prop) [Decidable p] :
    Yields (guard p : Reader Unit) fun _ => p := by
  unfold guard
  split
  case isTrue h => exact yields_iff.mpr fun _ _ _ _ => h
  case isFalse => exact yields_failure _

@[spec] theorem next_spec : Yields next fun _ => True := yields_true _
@[spec] theorem look_spec : Yields look fun _ => True := yields_true _
@[spec] theorem lookSecond_spec : Yields lookSecond fun _ => True := yields_true _
@[spec] theorem isNext_spec (t : Token) : Yields (isNext t) fun _ => True := yields_true _
@[spec] theorem isMark_spec (m : String) : Yields (isMark m) fun _ => True := yields_true _
@[spec] theorem isWord_spec (w : String) : Yields (isWord w) fun _ => True := yields_true _
@[spec] theorem takes_spec (t : Token) : Yields (takes t) fun _ => True := yields_true _
@[spec] theorem mark_spec (m : String) : Yields (mark m) fun _ => True := yields_true _
@[spec] theorem word_spec (w : String) : Yields (word w) fun _ => True := yields_true _
@[spec] theorem anyWord_spec : Yields anyWord fun _ => True := yields_true _
@[spec] theorem isNewLine_spec : Yields isNewLine fun _ => True := yields_true _
@[spec] theorem semicolon_spec : Yields semicolon fun _ => True := yields_true _
@[spec] theorem position_spec : Yields position fun _ => True := yields_true _
@[spec] theorem identifierWord_spec : Yields identifierWord fun _ => True := yields_true _

@[spec] theorem modifier_spec (w : String) (isOther : Lexed → Bool) :
    Yields (modifier w isOther) fun _ => True := yields_true _

end Reader

/-! ## Admissible trees -/

@[simp] theorem admits_list (parts : List Tree) : Grammar.admits .list parts = true := rfl

@[simp] theorem admits_identifier (x : String) (parts : List Tree) :
    Grammar.admits (.identifier x) parts = true := rfl

@[simp] theorem admits_name (x : String) (parts : List Tree) :
    Grammar.admits (.name x) parts = parts.all Tree.isLeaf := rfl

@[simp] theorem admits_new (parts : List Tree) :
    Grammar.admits (.known .newExpression) parts =
      parts[2]?.all fun callee => !callee.beginsWithCall := rfl

@[simp] theorem admits_assignment (parts : List Tree) :
    Grammar.admits (.known .assignmentExpression) parts = parts[2]?.all Grammar.isTarget := rfl

@[simp] theorem admits_member (parts : List Tree) :
    Grammar.admits (.known .memberExpression) parts = parts[0]?.all Tree.isLeaf := rfl

@[simp] theorem admits_parenthesis (parts : List Tree) :
    Grammar.admits (.known .parenthesisExpression) parts = parts[0]?.all Tree.isLeaf := rfl

@[simp] theorem admissible_known {k : Tree.Kind} {parts : List Tree} (hn : k ≠ .newExpression)
    (ha : k ≠ .assignmentExpression) (hm : k ≠ .memberExpression)
    (hp : k ≠ .parenthesisExpression) :
    Admissible (.node (.known k) parts) ↔ ∀ t ∈ parts, Admissible t := by
  rw [admissible_node, and_iff_right]
  cases k
  case newExpression => exact absurd rfl hn
  case assignmentExpression => exact absurd rfl ha
  case memberExpression => exact absurd rfl hm
  case parenthesisExpression => exact absurd rfl hp
  all_goals rfl

@[simp] theorem admissible_kind {k : Tree.Kind} {parts : List Tree} (hn : k ≠ .newExpression)
    (ha : k ≠ .assignmentExpression) (hm : k ≠ .memberExpression)
    (hp : k ≠ .parenthesisExpression) :
    Admissible (node k parts) ↔ ∀ t ∈ parts, Admissible t :=
  admissible_known hn ha hm hp

@[simp] theorem admissible_member {span base property : Tree} :
    Admissible (.member span base property) ↔
      span.isLeaf = true ∧ Admissible span ∧ Admissible base ∧ Admissible property := by
  simp [admissible_node]

@[simp] theorem admissible_parenthesis {span e : Tree} :
    Admissible (.parenthesis span e) ↔ span.isLeaf = true ∧ Admissible span ∧ Admissible e := by
  simp [admissible_node]

@[simp] theorem admissible_assignment {span operator left right : Tree} :
    Admissible (.assignment span operator left right) ↔ Grammar.isTarget left = true ∧
      Admissible span ∧ Admissible operator ∧ Admissible left ∧ Admissible right := by
  simp [admissible_node]

@[simp] theorem beginsWithCall_known {k : Tree.Kind} {parts : List Tree} (hc : k ≠ .callExpression)
    (hm : k ≠ .memberExpression) : (Tree.node (.known k) parts).beginsWithCall = false := by
  cases k
  case callExpression => exact absurd rfl hc
  case memberExpression => exact absurd rfl hm
  all_goals rfl

@[simp] theorem beginsWithCall_kind {k : Tree.Kind} {parts : List Tree} (hc : k ≠ .callExpression)
    (hm : k ≠ .memberExpression) : (node k parts).beginsWithCall = false :=
  beginsWithCall_known hc hm

@[simp] theorem beginsWithCall_member (span base property : Tree) :
    (Tree.member span base property).beginsWithCall = base.beginsWithCall := rfl

@[simp] theorem beginsWithCall_reference (span : Tree) (x : String) :
    (reference span x).beginsWithCall = false := rfl

@[simp] theorem admissible_list {ts : List Tree} :
    Admissible (.list ts) ↔ ∀ t ∈ ts, Admissible t := by
  simp [admissible_node]

@[simp] theorem admissible_context : Admissible context := rfl

@[simp] theorem admissible_reference {span : Tree} {x : String} :
    Admissible (reference span x) ↔ Admissible span := by
  simp [reference, admissible_node]

@[simp] theorem admissible_binding {span type : Tree} {x : String} {optional : Bool} :
    Admissible (binding span x optional type) ↔ Admissible span ∧ Admissible type := by
  simp [binding, admissible_node]

@[simp] theorem admissible_plainName {span : Tree} {x : String} :
    Admissible (plainName span x) ↔ span.isLeaf = true ∧ Admissible span := by
  simp [plainName, admissible_node]

namespace Reader

@[spec] theorem spanFrom_spec (start : Nat) :
    Yields (spanFrom start) fun t => t.isLeaf = true ∧ Admissible t := by
  mvcgen [spanFrom]

@[spec] theorem identifier_spec : Yields identifier Admissible := by
  mvcgen [identifier]
  simp_all

@[spec] theorem anyReference_spec : Yields anyReference Admissible := by
  mvcgen [anyReference]
  simp_all

@[spec] theorem anyName_spec : Yields anyName Admissible := by
  mvcgen [anyName]
  simp_all

@[spec] theorem stringLiteral_spec : Yields stringLiteral Solid := by
  mvcgen [stringLiteral] <;> simp_all

@[spec] theorem numberLiteral_spec : Yields numberLiteral Solid := by
  mvcgen [numberLiteral] <;> simp_all

/-! ## Repetition -/

theorem collect_spec {step : Reader (Option Tree)}
    (h : Yields step fun o => ∀ t ∈ o, Admissible t) (n : Nat) :
    Yields (collect step n) fun ts => ∀ t ∈ ts, Admissible t := by
  induction n with
  | zero => exact yields_failure _
  | succ n ih => mvcgen [collect, h, ih] <;> simp_all

@[spec] theorem many_spec {step : Reader (Option Tree)}
    (h : Yields step fun o => ∀ t ∈ o, Admissible t) :
    Yields (many step) fun ts => ∀ t ∈ ts, Admissible t := by
  have hcollect := collect_spec h
  mvcgen [many, hcollect]

@[spec] theorem many_unit_spec (step : Reader (Option Unit)) : Yields (many step) fun _ => True :=
  yields_true _

theorem extend_spec {step : Tree → Reader (Option Tree)} {P : Tree → Prop}
    (h : ∀ t, P t → Yields (step t) fun o => ∀ t ∈ o, P t) (n : Nat) {t : Tree} (ht : P t) :
    Yields (extend step n t) P := by
  induction n generalizing t with
  | zero => exact yields_failure _
  | succ n ih =>
    have hstep := h t ht
    mvcgen [extend, hstep, ih]
    simp_all

theorem extendAll_spec {step : Tree → Reader (Option Tree)} {P : Tree → Prop}
    (h : ∀ t, P t → Yields (step t) fun o => ∀ t ∈ o, P t) {t : Tree} (ht : P t) :
    Yields (extendAll step t) P := by
  have hextend (n : Nat) := extend_spec h n ht
  mvcgen [extendAll, hextend]

@[spec] theorem series_spec {close : String} {item : Reader Tree} (h : Yields item Admissible) :
    Yields (series close item) fun ts => ∀ t ∈ ts, Admissible t := by
  have hstep : Yields (seriesStep close item) fun o => ∀ t ∈ o, Admissible t := by
    mvcgen [seriesStep, h] <;> simp_all
  mvcgen [series, hstep]

end Reader

namespace Grammar

/-! ## Types -/

theorem qualification_spec (start : Nat) {left : Tree} (h : Admissible left) :
    Yields (qualification? start left) fun o => ∀ t ∈ o, Admissible t := by
  mvcgen [qualification?] <;> simp_all

@[spec] theorem typeName_spec : Yields typeName Admissible := by
  have hname (start : Nat) {left : Tree} (h : Admissible left) :=
    extendAll_spec (fun _ => qualification_spec start) h
  mvcgen [typeName, hname] <;> simp_all +zetaDelta

@[spec] theorem typedMark_spec (g : Grammar) (m : String) :
    Yields (typedMark g m) fun _ => True := yields_true _

@[spec] theorem ascription_spec (g : Grammar) : Yields (ascription g) Admissible := by
  mvcgen [ascription]
  simp_all

/-! ## Names and texts of markup -/

@[spec] theorem glance_spec : Yields glance fun _ => True := yields_true _

@[spec] theorem symbol_spec (x : Char) : Yields (symbol x) fun _ => True := yields_true _

@[spec] theorem takesSymbol_spec (x : Char) : Yields (takesSymbol x) fun _ => True := yields_true _

@[spec] theorem markupWord_spec : Yields markupWord fun _ => True := yields_true _

@[spec] theorem isClosing_spec : Yields isClosing fun _ => True := yields_true _

@[spec] theorem markupPlainName_spec : Yields markupPlainName Admissible := by
  mvcgen [markupPlainName]
  simp_all

theorem elementMember_spec (start : Nat) {base : Tree} (h : Admissible base) :
    Yields (elementMember? start base) fun o => ∀ t ∈ o, Admissible t := by
  mvcgen [elementMember?] <;> simp_all

@[spec] theorem elementName_spec : Yields elementName Admissible := by
  have hmember (start : Nat) {base : Tree} (h : Admissible base) :=
    extendAll_spec (fun _ => elementMember_spec start) h
  mvcgen [elementName, hmember] <;> simp_all +zetaDelta

@[spec] theorem attributeName_spec : Yields attributeName Admissible := by
  mvcgen [attributeName]
  simp_all

@[spec] theorem attributeString_spec : Yields attributeString Admissible := by
  refine position_spec.bind fun start _ => (yields_true _).bind fun spelling _ => ?_
  mvcgen
  simp_all +zetaDelta

@[spec] theorem markupText_spec : Yields markupText fun o => ∀ t ∈ o, Admissible t := by
  rw [yields_iff]
  intro c o c' h
  simp only [markupText] at h
  split at h <;> cases h <;> simp

/-! ## Imports -/

@[spec] theorem importSpecifier_spec : Yields importSpecifier Admissible := by
  mvcgen [importSpecifier] <;> simp_all

@[spec] theorem importAll_spec : Yields importAll Admissible := by
  mvcgen [importAll]
  simp_all

@[spec] theorem importedNames_spec : Yields importedNames fun ts => ∀ t ∈ ts, Admissible t := by
  mvcgen [importedNames]
  simp_all

@[spec] theorem importClause_spec : Yields importClause fun ts => ∀ t ∈ ts, Admissible t := by
  mvcgen [importClause] <;> simp_all +zetaDelta

@[spec] theorem importItem_spec : Yields importItem Admissible := by
  mvcgen [importItem] <;> simp_all

@[spec] theorem exportSpecifier_spec : Yields exportSpecifier Admissible := by
  mvcgen [exportSpecifier] <;> simp_all

@[spec] theorem exportSource_spec : Yields exportSource Admissible := by
  mvcgen [exportSource]
  simp_all

/-! ## Keywords, assertions and arrows -/

theorem solid_keywordExpression {w : String} {span e : Tree} (hspan : Admissible span)
    (h : keywordExpression? w span = some e) : Solid e := by
  unfold keywordExpression? at h
  split at h <;> cases h <;> simp [hspan]

@[spec] theorem assertion_spec (start : Nat) {left : Tree} (h : Admissible left) :
    Yields (assertion start left) Admissible := by
  mvcgen [assertion] <;> simp_all

@[spec] theorem arrowMark_spec : Yields arrowMark fun _ => True := yields_true _

/-! ## Rules that ask for goals -/

section Rules

variable {g : Grammar} (hg : ∀ goal, Yields (g.read goal) Admissible)
include hg

theorem propertyKey_spec : Yields (propertyKey g) Admissible := by
  mvcgen [propertyKey, hg] <;> simp_all

theorem patternElement_spec : Yields (patternElement g) Admissible := by
  mvcgen [patternElement, hg] <;> simp_all

theorem initialValue_spec : Yields (initialValue g) Admissible := by
  mvcgen [initialValue, hg]

theorem patternProperty_spec : Yields (patternProperty g) Admissible := by
  have hkey := propertyKey_spec hg
  have helement := patternElement_spec hg
  have hvalue := initialValue_spec hg
  mvcgen [patternProperty, hkey, helement, hvalue] <;> simp_all +zetaDelta

theorem pattern_spec : Yields (pattern g) Admissible := by
  have hproperty := patternProperty_spec hg
  have helement := patternElement_spec hg
  mvcgen [pattern, hproperty, helement] <;> simp_all

theorem parameters_spec : Yields (parameters g) Admissible := by
  have helement := patternElement_spec hg
  mvcgen [parameters, helement] <;> simp_all

theorem block_spec : Yields (block g) Admissible := by
  mvcgen [block, hg] <;> simp_all

theorem functionParts_spec (start : Nat) (async : Bool) :
    Yields (functionParts g start async) fun ts => ∀ t ∈ ts, Admissible t := by
  have hparameters := parameters_spec hg
  have hblock := block_spec hg
  mvcgen [functionParts, hparameters, hblock]
  simp_all

/-! ### Markup -/

theorem container_spec (mayBeEmpty : Bool) : Yields (container g mayBeEmpty) Admissible := by
  mvcgen [container, hg] <;> simp_all +zetaDelta

theorem attributeValue_spec : Yields (attributeValue g) Admissible := by
  have hcontainer := container_spec hg
  mvcgen [attributeValue, hg, hcontainer]

theorem elementAttribute_spec : Yields (elementAttribute g) Admissible := by
  have hvalue := attributeValue_spec hg
  mvcgen [elementAttribute, hg, hvalue] <;> simp_all

theorem children_spec : Yields (children g) fun ts => ∀ t ∈ ts, Admissible t := by
  have hcontainer := container_spec hg
  mvcgen [children, hg, hcontainer] <;> simp_all

theorem markup_spec : Yields (markup g) Solid := by
  have hattribute := elementAttribute_spec hg
  have hchildren := children_spec hg
  mvcgen [markup, hattribute, hchildren] <;> simp_all +zetaDelta

/-! ### Expressions -/

theorem functionExpression_spec (start : Nat) (async : Bool) :
    Yields (functionExpression g start async) Solid := by
  have hparts := functionParts_spec hg
  mvcgen [functionExpression, hparts] <;> simp_all

theorem classMember_spec : Yields (classMember g) Admissible := by
  have hkey := propertyKey_spec hg
  have hparameters := parameters_spec hg
  have hblock := block_spec hg
  have hparts := functionParts_spec hg
  have hvalue := initialValue_spec hg
  mvcgen [classMember, hkey, hparameters, hblock, hparts, hvalue] <;> simp_all

theorem argument_spec : Yields (argument g) Admissible := by
  mvcgen [argument, hg] <;> simp_all

theorem callArguments_spec : Yields (callArguments g) Admissible := by
  have hargument := argument_spec hg
  mvcgen [callArguments, hargument]
  simp_all

/-- An access keeps what its chain begins with. -/
theorem access_spec (start : Nat) {left : Tree} (h : Solid left) :
    Yields (access? g start left) fun o => ∀ t ∈ o, Solid t := by
  mvcgen [access?, hg] <;> simp_all +zetaDelta

theorem suffix_spec (start : Nat) {left : Tree} (h : Admissible left) :
    Yields (suffix? g start left) fun o => ∀ t ∈ o, Admissible t := by
  have harguments := callArguments_spec hg
  -- Here the chain may begin with a call, so `access_spec` does not apply.
  have haccess : Yields (access? g start left) fun o => ∀ t ∈ o, Admissible t := by
    mvcgen [access?, hg] <;> simp_all +zetaDelta
  mvcgen [suffix?, haccess, harguments] <;> simp_all

theorem superClass_spec {primary : Reader Tree} (hp : Yields primary Solid) :
    Yields (superClass g primary) Admissible := by
  have hsuffix (start : Nat) {left : Tree} (h : Admissible left) :=
    extendAll_spec (fun _ => suffix_spec hg start) h
  mvcgen [superClass, hp, hsuffix]
  simp_all

theorem classParts_spec {primary : Reader Tree} (hp : Yields primary Solid) (start : Nat) :
    Yields (classParts g primary start) fun ts => ∀ t ∈ ts, Admissible t := by
  have hparent := superClass_spec hg hp
  have hmember := classMember_spec hg
  mvcgen [classParts, hparent, hmember] <;> simp_all

theorem classExpression_spec {primary : Reader Tree} (hp : Yields primary Solid) :
    Yields (classExpression g primary) Solid := by
  have hparts := classParts_spec hg hp
  mvcgen [classExpression, hparts] <;> simp_all

theorem arrayExpression_spec : Yields (arrayExpression g) Solid := by
  have hargument := argument_spec hg
  mvcgen [arrayExpression, hargument]
  simp_all

theorem objectProperty_spec : Yields (objectProperty g) Admissible := by
  have hkey := propertyKey_spec hg
  have hparts := functionParts_spec hg
  mvcgen [objectProperty, hg, hkey, hparts] <;> simp_all

theorem objectExpression_spec : Yields (objectExpression g) Solid := by
  have hproperty := objectProperty_spec hg
  mvcgen [objectExpression, hproperty]
  simp_all

theorem parenthesis_spec : Yields (parenthesis g) Solid := by
  mvcgen [parenthesis, hg]
  simp_all

theorem plainOperand_spec : Yields (plainOperand g) Solid := by
  have hfunction := functionExpression_spec hg
  have harray := arrayExpression_spec hg
  have hobject := objectExpression_spec hg
  have hparenthesis := parenthesis_spec hg
  have hmarkup := markup_spec hg
  mvcgen [plainOperand, hfunction, harray, hobject, hparenthesis, hmarkup]
  all_goals first
    | exact solid_keywordExpression (And.right ‹_›) ‹_›
    | simp_all

theorem operand_spec : Yields (operand g) Solid := by
  have hplain := plainOperand_spec hg
  have hclass := classExpression_spec hg hplain
  mvcgen [operand, hplain, hclass]

/-- What is made is an operand with accesses, so it does not begin with a call. -/
theorem newExpression_spec : Yields (newExpression g) Admissible := by
  have hoperand := operand_spec hg
  have hcallee (start : Nat) {left : Tree} (h : Solid left) :=
    extendAll_spec (fun _ => access_spec hg start) h
  have harguments := callArguments_spec hg
  mvcgen [newExpression, hoperand, hcallee, harguments] <;>
    simp_all [node, admissible_node]

theorem chain_spec : Yields (chain g) Admissible := by
  have hoperand := operand_spec hg
  have hnew := newExpression_spec hg
  have hsuffix (start : Nat) {left : Tree} (h : Admissible left) :=
    extendAll_spec (fun _ => suffix_spec hg start) h
  mvcgen [chain, chainHead, hnew, hoperand, hsuffix] <;> simp_all

theorem unary_spec : Yields (unary g) Admissible := by
  have hchain := chain_spec hg
  mvcgen [unary, hg, hchain] <;> simp_all

theorem operation_spec (start level : Nat) {left : Tree} (h : Admissible left) :
    Yields (operation? g start level left) fun o => ∀ t ∈ o, Admissible t := by
  mvcgen [operation?, hg] <;> simp_all

theorem binary_spec (level : Nat) : Yields (binary g level) Admissible := by
  have hunary := unary_spec hg
  have hoperation (start : Nat) {left : Tree} (h : Admissible left) :=
    extendAll_spec (fun _ => operation_spec hg start level) h
  mvcgen [binary, hunary, hoperation]
  simp_all

theorem conditional_spec : Yields (conditional g) Admissible := by
  have hbinary := binary_spec hg
  mvcgen [conditional, hg, hbinary]
  simp_all

theorem arrowParameters_spec :
    Yields (arrowParameters g) fun p => Admissible p.1 ∧ Admissible p.2 := by
  have helement := patternElement_spec hg
  mvcgen [arrowParameters, helement] <;> simp_all

theorem arrow_spec : Yields (arrow g) Admissible := by
  have hparameters := arrowParameters_spec hg
  have hblock := block_spec hg
  mvcgen [arrow, hg, hparameters, hblock] <;> simp_all

/-- The left side of an assignment is tested before the assignment is built. -/
theorem assignment_spec : Yields (assignment g) Admissible := by
  have hconditional := conditional_spec hg
  refine orElse_spec (arrow_spec hg) ?_
  mvcgen [hg, hconditional]
  simp_all [admissible_node]

theorem expression_spec : Yields (expression g) Admissible := by
  have hassignment := assignment_spec hg
  mvcgen [expression, hassignment] <;> simp_all

/-! ### Statements -/

theorem declarator_spec : Yields (declarator g) Admissible := by
  have hvalue := initialValue_spec hg
  mvcgen [declarator, hg, hvalue]
  simp_all

theorem variableDeclaration_spec : Yields (variableDeclaration g) Admissible := by
  have hdeclarator := declarator_spec hg
  mvcgen [variableDeclaration, hdeclarator] <;> simp_all

theorem variableStatement_spec : Yields (variableStatement g) Admissible := by
  have hdeclaration := variableDeclaration_spec hg
  mvcgen [variableStatement, hdeclaration] <;> simp_all

theorem functionDeclaration_spec : Yields (functionDeclaration g) Admissible := by
  have hparts := functionParts_spec hg
  mvcgen [functionDeclaration, hparts]
  simp_all

theorem classDeclaration_spec : Yields (classDeclaration g) Admissible := by
  have hparts := classParts_spec hg (plainOperand_spec hg)
  mvcgen [classDeclaration, hparts]
  simp_all

theorem declaration_spec :
    Yields (declaration? g) fun o => ∀ r ∈ o, Yields r Admissible := by
  have hvariable := variableStatement_spec hg
  have hfunction := functionDeclaration_spec hg
  have hclass := classDeclaration_spec hg
  mvcgen [declaration?] <;> simp_all

theorem ifStatement_spec : Yields (ifStatement g) Admissible := by
  mvcgen [ifStatement, hg] <;> simp_all

theorem returnStatement_spec : Yields (returnStatement g) Admissible := by
  mvcgen [returnStatement, hg] <;> simp_all

theorem expressionStatement_spec : Yields (expressionStatement g) Admissible := by
  mvcgen [expressionStatement, hg]
  simp_all

theorem statement_spec : Yields (statement g) Admissible := by
  have hdeclaration := declaration_spec hg
  have hblock := block_spec hg
  have hif := ifStatement_spec hg
  have hreturn := returnStatement_spec hg
  have hexpression := expressionStatement_spec hg
  -- The declaration that was recognised is a reader itself, and not one that is known by name.
  refine hdeclaration.bind fun o ho => ?_
  cases o with
  | some declaration => exact ho declaration rfl
  | none =>
    mvcgen [hblock, hif, hreturn, hexpression]
    simp_all

/-! ### Exports and items -/

theorem exportDefault_spec (start : Nat) : Yields (exportDefault g start) Admissible := by
  have hclass := classExpression_spec hg (plainOperand_spec hg)
  have hfunction := functionExpression_spec hg
  mvcgen [exportDefault, hg, hclass, hfunction] <;> simp_all

theorem exportItem_spec : Yields (exportItem g) Admissible := by
  have hdefault := exportDefault_spec hg
  have hdeclaration := declaration_spec hg
  have hexport {declaration : Reader Tree} (h : Yields declaration Admissible) (start : Nat) :
      Yields (do
        let d ← declaration
        return node .exportDeclaration [← spanFrom start, d]) Admissible := by
    mvcgen [h]
    simp_all
  refine position_spec.bind fun start _ => (word_spec _).bind fun _ _ => look_spec.bind fun l _ => ?_
  split
  · exact hdefault start
  · mvcgen <;> simp_all
  · mvcgen <;> simp_all
  · refine hdeclaration.bind fun o ho => ?_
    cases o with
    | some declaration => exact hexport (ho declaration rfl) start
    | none => exact yields_failure _

theorem item_spec : Yields (item g) Admissible := by
  have hexport := exportItem_spec hg
  mvcgen [item, hg, hexport]

theorem items_spec : Yields (items g) fun ts => ∀ t ∈ ts, Admissible t := by
  have hitem := item_spec hg
  mvcgen [items, hitem] <;> simp_all

theorem rule_spec (goal : Goal) : Yields (rule g goal) Admissible := by
  cases goal with
  | statement => exact statement_spec hg
  | expression => exact expression_spec hg
  | assignment => exact assignment_spec hg
  | binary level => exact binary_spec hg level
  | unary => exact unary_spec hg
  | pattern => exact pattern_spec hg
  | markup =>
    have hmarkup := markup_spec hg
    mvcgen [rule, hmarkup]
    simp_all

end Rules

/-- Every goal is read to an admissible tree, however deep the rules are nested. -/
theorem readGoal_spec (dialect : Dialect) (depth : Nat) (goal : Goal) :
    Yields (readGoal dialect depth goal) Admissible := by
  induction depth generalizing goal with
  | zero => exact yields_failure _
  | succ depth ih => exact rule_spec ih goal

end Grammar

/-- Whatever the text, the items that are read from it are admissible. -/
theorem Document.admissible_of_read? {dialect : Dialect} {text : String} {d : Document}
    (h : Document.read? dialect text = some d) : ∀ t ∈ d.contents.body, Admissible t := by
  obtain ⟨⟨body, finish⟩, hitems, h⟩ := Option.bind_eq_some_iff.mp h
  obtain ⟨last, -, h⟩ := Option.bind_eq_some_iff.mp h
  obtain rfl := Option.some.inj h
  exact yields_iff.mp (Grammar.items_spec (Grammar.readGoal_spec dialect _)) _ _ _ hitems

end Source

end PropCatalog
