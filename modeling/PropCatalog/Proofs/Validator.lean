import PropCatalog.Proofs.Evaluation
import PropCatalog.Proofs.FreshName
import PropCatalog.Proofs.Retarget

/-!
# Retargeted validators evaluate to the library

A validator such as `PropTypes.arrayOf(PropTypes.string).isRequired` is built from the alias by
member accesses and calls.  After retargeting it has a value wherever the library has been
declared, and that value is the library again.

Two things have to fit together.  The traps of the library make every access and every call give
the library, except that its member `isRequired` is the identity (`readMember_library`,
`callValue_library`, `callValue_identity`).  So a validator in which some `.isRequired` were left in
place would have the identity as its value, or none at all.  Retargeting turns each of them into a
call, because what stands before it is a call or a member access and stays one
(`Meaning`, at the role of a chain).
-/

namespace PropCatalog.Metadata

open Tree

/-! ## The library as a value -/

/-- The variable and the expression of `const x = e;`. -/
def declared? : Tree → Option (String × Tree)
  | .variableDeclaration _ _ _ _ (.list [.declarator _ (.node (.identifier x) _) e _]) =>
      some (x, e)
  | _ => none

/-- A scope in which the library was declared under a name: the name is bound to the value of the
expression that the declaration has for it. -/
structure LibraryScope (scope : String → Option Value) (name : String) : Prop where
  proxy : scope "Proxy" = some .proxyConstructor
  declared : ∃ e v depth, declared? (library name) = some (name, e) ∧
    run scope depth e = some v ∧ scope name = some v

/-- The handler of the library. -/
def handler (name : String) : Value :=
  .object
    [("get", .closure ["target", "key"]
      (conditional (strictEqual (reference "key") (stringOf requiredField))
        (arrowOf ["type"] (reference "type")) (reference name)) []),
     ("apply", .closure [] (reference name) [])]

/-- The library as a value. -/
def libraryValue (name : String) : Value := .proxy .function (handler name)

/-- The identity, as the library gives it for a member that was read. -/
def identityFunction (key : String) : Value :=
  .closure ["type"] (reference "type") [("target", .function), ("key", .text key)]

/-- The declaration of the library binds its name to the library. -/
theorem LibraryScope.lookup {scope : String → Option Value} {name : String}
    (h : LibraryScope scope name) : scope name = some (libraryValue name) := by
  obtain ⟨e, v, depth, hdeclared, hrun, hscope⟩ := h.declared
  obtain ⟨_, rfl⟩ := Prod.mk.inj (Option.some.inj hdeclared)
  have hvalue : run scope depth (newOf (reference "Proxy")
      [emptyFunction, objectOf [("get", getTrap name), ("apply", applyTrap name)]]) =
      (scope "Proxy").bind fun f => construct f [.function, handler name] := rfl
  rw [hvalue, h.proxy] at hrun
  rw [hscope, ← hrun]
  rfl

section Traps

variable {scope : String → Option Value} {name : String}
  (hlookup : scope name = some (libraryValue name)) (depth : Nat)

include hlookup

/-- Reading `isRequired` gives the identity, and any other member the library. -/
theorem readMember_library (hname : name ≠ "target" ∧ name ≠ "key") (p : String) :
    readMember (invoke scope (depth + 1)) p (libraryValue name) =
      some (if p = requiredField then identityFunction p else libraryValue name) := by
  have htrap : readMember (invoke scope (depth + 1)) p (libraryValue name) =
      evaluate (invoke scope depth) scope [("target", .function), ("key", .text p)]
        (conditional (strictEqual (reference "key") (stringOf requiredField))
          (arrowOf ["type"] (reference "type")) (reference name)) := rfl
  have htest : evaluate (invoke scope depth) scope [("target", .function), ("key", .text p)]
      (strictEqual (reference "key") (stringOf requiredField)) =
      some (.bool (p = requiredField)) := rfl
  rw [htrap, conditional, evaluate_conditional _ _ _ htest]
  by_cases hp : p = requiredField
  · simp only [hp]
    rfl
  · have hlocal : [("target", Value.function), ("key", .text p)].lookup name = none := by
      rw [List.lookup_cons, beq_false_of_ne hname.1, List.lookup_cons, beq_false_of_ne hname.2]
      rfl
    simp [hp, reference, hlocal, hlookup]

/-- Calling the library gives the library. -/
theorem callValue_library (arguments : List Value) :
    callValue (invoke scope (depth + 1)) arguments (libraryValue name) =
      some (libraryValue name) := by
  have htrap : callValue (invoke scope (depth + 1)) arguments (libraryValue name) =
      evaluate (invoke scope depth) scope [] (reference name) := rfl
  rw [htrap, reference, evaluate_identifier, hlookup]
  rfl

end Traps

/-- Calling the identity gives its argument. -/
theorem callValue_identity (scope : String → Option Value) (depth : Nat) (key : String)
    (v : Value) : callValue (invoke scope (depth + 1)) [v] (identityFunction key) = some v := rfl

/-! ## Validators -/

/-- What a tree is as a part of a validator. -/
inductive Role where
  /-- The alias itself, perhaps in parentheses. -/
  | bare
  /-- A validator with at least one access or call. -/
  | chain
  /-- Whatever can be an argument, an element or a property. -/
  | operand
  /-- An element of an argument list or an array. -/
  | element
  /-- A property of an object literal. -/
  | property
deriving DecidableEq, Repr

/-- Trees that are built from the alias like validators.  `.isRequired` is never taken of the alias
itself; of anything else it may be taken, any number of times. -/
inductive Validator (aliasName : String) : Role → Tree → Prop where
  | identifier (parts : List Tree) :
      Validator aliasName .bare (.node (.identifier aliasName) parts)
  | parenthesis {role : Role} (span : Tree) {e : Tree}
      (hrole : role = .bare ∨ role = .chain ∨ role = .operand) (h : Validator aliasName role e) :
      Validator aliasName role (.parenthesis span e)
  | firstAccess (span : Tree) {e : Tree} {p : String} (parts : List Tree)
      (hp : p ≠ requiredField) (h : Validator aliasName .bare e) :
      Validator aliasName .chain (.member span e (.node (.name p) parts))
  | access (span : Tree) {e : Tree} (p : String) (parts : List Tree)
      (h : Validator aliasName .chain e) :
      Validator aliasName .chain (.member span e (.node (.name p) parts))
  | call {role : Role} (span context typeArguments : Tree) {callee : Tree} {arguments : List Tree}
      (hrole : role = .bare ∨ role = .chain) (hcallee : Validator aliasName role callee)
      (harguments : ∀ t ∈ arguments, Validator aliasName .element t) :
      Validator aliasName .chain (.call span context callee (.list arguments) typeArguments)
  | ofBare {e : Tree} (h : Validator aliasName .bare e) : Validator aliasName .operand e
  | ofChain {e : Tree} (h : Validator aliasName .chain e) : Validator aliasName .operand e
  | literal {kind : Kind} (hkind : kind ∈ literalKinds) (parts : List Tree) :
      Validator aliasName .operand (.node (.known kind) parts)
  | array (span : Tree) {elements : List Tree}
      (h : ∀ t ∈ elements, Validator aliasName .element t) :
      Validator aliasName .operand (.node (.known .arrayExpression) [span, .list elements])
  | object (span : Tree) {properties : List Tree}
      (h : ∀ t ∈ properties, Validator aliasName .property t) :
      Validator aliasName .operand (.object span (.list properties))
  | element {e : Tree} (h : Validator aliasName .operand e) :
      Validator aliasName .element (.argument .null e)
  | keyValue {key e : Tree} {name : String} (hkey : propertyName? key = some name)
      (h : Validator aliasName .operand e) : Validator aliasName .property (.keyValue key e)
  | shorthand (parts : List Tree) :
      Validator aliasName .property (.node (.identifier aliasName) parts)

/-- Retargeting keeps the name of a property. -/
theorem propertyName?_retarget (aliasName library : String) {key : Tree} {name : String}
    (h : propertyName? key = some name) :
    propertyName? (retarget aliasName library key) = some name := by
  unfold propertyName? at h
  split at h
  · rw [retarget_name]
    exact h
  · rw [retarget_node _ _ (by decide) (by decide)]
    exact h
  · rw [retarget_node _ _ (by decide) (by decide)]
    exact h
  · simp at h

section Meaning

variable (scope : String → Option Value) (depth : Nat) (name : String)

/-- What a retargeted tree does, by its role.  A chain also stays a call or a member access, apart
from parentheses, so that it is settled if `.isRequired` is taken of it. -/
def Meaning : Role → Tree → Prop
  | .bare, t => run scope (depth + 1) t = some (libraryValue name)
  | .chain, t => run scope (depth + 1) t = some (libraryValue name) ∧
      (t.unparen.isCall = true ∨ t.unparen.isMember = true)
  | .operand, t => ∃ v, run scope (depth + 1) t = some v
  | .element, t => ∃ e v, t = .argument .null e ∧ run scope (depth + 1) e = some v
  | .property, t =>
      (∃ key e x v, t = .keyValue key e ∧ propertyName? key = some x ∧
        run scope (depth + 1) e = some v) ∨
      ∃ x parts v, t = .node (.identifier x) parts ∧ scope x = some v

variable {scope depth name}

/-- The alias and chains have the library as their value. -/
theorem Meaning.run_eq {role : Role} {t : Tree} (hrole : role = .bare ∨ role = .chain)
    (h : Meaning scope depth name role t) : run scope (depth + 1) t = some (libraryValue name) := by
  rcases hrole with rfl | rfl
  · exact h
  · exact h.1

/-- Parentheses keep the meaning of an expression. -/
theorem Meaning.parenthesis {role : Role} {t : Tree} (span : Tree)
    (hrole : role = .bare ∨ role = .chain ∨ role = .operand)
    (h : Meaning scope depth name role t) :
    Meaning scope depth name role (.parenthesis span t) := by
  have hrun : run scope (depth + 1) (.parenthesis span t) = run scope (depth + 1) t :=
    evaluate_parenthesis _ _ _ span t
  rcases hrole with rfl | rfl | rfl
  · exact hrun.trans h
  · exact ⟨hrun.trans h.1, by rw [unparen_parenthesis]; exact h.2⟩
  · obtain ⟨v, hv⟩ := h
    exact ⟨v, hrun.trans hv⟩

section Library

variable (hlookup : scope name = some (libraryValue name))
  (hname : name ≠ "target" ∧ name ≠ "key")

include hlookup hname

/-- A member other than `isRequired` of something that has the library as its value has it too. -/
theorem Meaning.member {e : Tree} (span : Tree) {p : String} (parts : List Tree)
    (hp : p ≠ requiredField) (he : run scope (depth + 1) e = some (libraryValue name)) :
    Meaning scope depth name .chain (.member span e (.node (.name p) parts)) := by
  refine ⟨?_, Or.inr rfl⟩
  rw [run, evaluate_member]
  rw [run] at he
  rw [he, Option.bind_some, readMember_library hlookup depth hname, if_neg hp]

/-- A required validator has the value of the validator. -/
theorem Meaning.requiredCall {e : Tree} (he : run scope (depth + 1) e = some (libraryValue name)) :
    Meaning scope depth name .chain (requiredCall name e) := by
  refine ⟨?_, Or.inl rfl⟩
  have hcallee : run scope (depth + 1) (memberOf (reference name) requiredField) =
      some (identityFunction requiredField) := by
    rw [run, memberOf, plainName, evaluate_member, reference, evaluate_identifier]
    change (scope name).bind _ = _
    rw [hlookup, Option.bind_some, readMember_library hlookup depth hname, if_pos rfl]
  have harguments : evaluateAll (invoke scope (depth + 1)) scope [] [plainArgument e] =
      some [libraryValue name] := by
    rw [run] at he
    show (evaluate (invoke scope (depth + 1)) scope [] e).bind (fun v => some [v]) = _
    rw [he]
    rfl
  rw [run] at hcallee
  rw [run, Metadata.requiredCall, callOf, evaluate_call, hcallee, Option.bind_some, List.map_cons,
    List.map_nil, harguments, Option.bind_some]
  exact callValue_identity scope depth requiredField (libraryValue name)

/-- A member access of a chain is settled to something that has the library as its value: a call
if the member is `isRequired`, and the access itself if it is not. -/
theorem Meaning.settle_member {e : Tree} (span : Tree) (p : String) (parts : List Tree)
    (he : Meaning scope depth name .chain e) :
    Meaning scope depth name .chain
      (settle name (.member span e (.node (.name p) parts))) := by
  by_cases hp : p = requiredField
  · have hsettled : settle name (.member span e (.node (.name p) parts)) =
        Metadata.requiredCall name e.unparen := if_pos ⟨hp, he.2⟩
    rw [hsettled]
    apply Meaning.requiredCall hlookup hname
    rw [run, evaluate_unparen]
    exact he.1
  · have hsettled : settle name (.member span e (.node (.name p) parts)) =
        .member span e (.node (.name p) parts) := if_neg fun h => hp h.1
    rw [hsettled]
    exact Meaning.member hlookup hname span parts hp he.1

/-- A validator, or a part of one, means after retargeting what its role says. -/
theorem meaning_retarget (aliasName : String) {role : Role} {t : Tree}
    (h : Validator aliasName role t) :
    Meaning scope depth name role (retarget aliasName name t) := by
  -- On how the validator is built: retargeting works from the inside out, so at every access it is
  -- the meaning of the retargeted object that decides whether the access is settled.
  induction h with
  | identifier parts =>
    rw [retarget_identifier, if_pos rfl]
    exact (evaluate_identifier _ _ _ name _).trans hlookup
  | parenthesis span hrole _ ih =>
    rw [retarget_node _ _ (by decide) (by decide)]
    exact Meaning.parenthesis _ hrole ih
  | firstAccess span parts hp _ ih =>
    -- The alias is neither a call nor a member access, but it is the name that keeps the access.
    have hkept (s e : Tree) (ps : List Tree) : settle name (.member s e (.node (.name _) ps)) =
        .member s e (.node (.name _) ps) := if_neg fun h => hp h.1
    rw [retarget_member, retarget_name, hkept]
    exact Meaning.member hlookup hname _ _ hp ih
  | access span p parts _ ih =>
    rw [retarget_member, retarget_name]
    exact Meaning.settle_member hlookup hname _ p _ ih
  | @call _ span context typeArguments callee arguments hrole _ _ ihcallee iharguments =>
    rw [retarget_node _ _ (by decide) (by decide)]
    simp only [List.map_cons, List.map_nil, retarget_list]
    refine ⟨?_, Or.inl rfl⟩
    obtain ⟨vs, hvs⟩ := exists_evaluateAll (invoke scope (depth + 1)) scope []
      (List.forall_mem_map.mpr iharguments)
    have hcallee := Meaning.run_eq hrole ihcallee
    rw [run] at hcallee
    rw [run, rename_known, evaluate_call, hcallee, Option.bind_some, hvs, Option.bind_some]
    exact callValue_library hlookup depth vs
  | ofBare _ ih => exact ⟨_, ih⟩
  | ofChain _ ih => exact ⟨_, ih.1⟩
  | @literal kind hkind parts =>
    have hplain : HasNoPlace (.known kind) ∧ Form.known kind ≠ .known .memberExpression := by
      simp only [literalKinds, List.mem_cons, List.not_mem_nil, or_false] at hkind
      rcases hkind with rfl | rfl | rfl | rfl | rfl | rfl <;> decide
    rw [retarget_node _ _ hplain.1 hplain.2]
    exact exists_evaluate_literal _ _ _ hkind _
  | array span _ ih =>
    rw [retarget_node _ _ (by decide) (by decide)]
    simp only [List.map_cons, List.map_nil, retarget_list]
    obtain ⟨vs, hvs⟩ := exists_evaluateAll (invoke scope (depth + 1)) scope []
      (List.forall_mem_map.mpr ih)
    exact ⟨.array vs, by rw [run, rename_known, evaluate_array, hvs]; rfl⟩
  | object span _ ih =>
    rw [retarget_node _ _ (by decide) (by decide)]
    simp only [List.map_cons, List.map_nil, retarget_list]
    obtain ⟨fields, hfields⟩ := exists_evaluateProperties (invoke scope (depth + 1)) scope []
      (List.forall_mem_map.mpr ih)
    exact ⟨.object fields, by rw [run, rename_known, evaluate_object, hfields]; rfl⟩
  | element _ ih =>
    rw [retarget_node _ _ (by decide) (by decide)]
    obtain ⟨v, hv⟩ := ih
    exact ⟨_, v, rfl, hv⟩
  | keyValue hkey _ ih =>
    rw [retarget_node _ _ (by decide) (by decide)]
    obtain ⟨v, hv⟩ := ih
    exact Or.inl ⟨_, _, _, v, rfl, propertyName?_retarget aliasName name hkey, hv⟩
  | shorthand parts =>
    rw [retarget_identifier, if_pos rfl]
    exact Or.inr ⟨name, _, _, rfl, hlookup⟩

end Library

end Meaning

/-- Wherever the library has been declared under a fresh name, every retargeted validator has the
library as its value, and every retargeted operand has a value.  One level of calls is enough, since
no trap makes a call itself. -/
theorem run_retarget_validator (m : Module) (base aliasName : String)
    {scope : String → Option Value} (hscope : LibraryScope scope (freshName m base))
    (depth : Nat) :
    ∃ v, scope (freshName m base) = some v ∧
      (∀ t, Validator aliasName .bare t ∨ Validator aliasName .chain t →
        run scope (depth + 1) (retarget aliasName (freshName m base) t) = some v) ∧
      ∀ t, Validator aliasName .operand t →
        ∃ w, run scope (depth + 1) (retarget aliasName (freshName m base) t) = some w := by
  have hlookup := hscope.lookup
  -- A fresh name begins with an underscore, so no parameter of a trap hides it.
  have hname : freshName m base ≠ "target" ∧ freshName m base ≠ "key" := by
    have hfront := front_freshName m base
    constructor <;> intro heq <;> rw [heq] at hfront <;> revert hfront <;> decide
  refine ⟨libraryValue (freshName m base), hlookup, ?_, ?_⟩
  · rintro t (h | h)
    · exact meaning_retarget hlookup hname aliasName h
    · exact (meaning_retarget hlookup hname aliasName h).1
  · intro t h
    exact meaning_retarget hlookup hname aliasName h

/-- The smallest scope in which the library is declared. -/
def libraryScope (name x : String) : Option Value :=
  if x = "Proxy" then some .proxyConstructor
  else if x = name then some (libraryValue name)
  else none

theorem libraryScope_spec {name : String} (hname : name ≠ "Proxy") :
    LibraryScope (libraryScope name) name where
  proxy := rfl
  declared := by
    refine ⟨_, libraryValue name, 0, rfl, rfl, ?_⟩
    rw [libraryScope, if_neg hname, if_pos rfl]

/-- `PropTypes.arrayOf(PropTypes.string.isRequired).isRequired` -/
def requiredArray : Tree :=
  memberOf (callOf (memberOf (reference "PropTypes") "arrayOf")
    [memberOf (memberOf (reference "PropTypes") "string") requiredField]) requiredField

theorem validator_requiredArray : Validator "PropTypes" .chain requiredArray := by
  have halias : Validator "PropTypes" .bare (reference "PropTypes") := .identifier _
  have helement : Validator "PropTypes" .operand
      (memberOf (memberOf (reference "PropTypes") "string") requiredField) :=
    .ofChain (.access _ _ _ (.firstAccess _ _ (by decide) halias))
  refine .access _ _ _ (.call _ _ _ (Or.inr rfl) (.firstAccess _ _ (by decide) halias) ?_)
  intro t ht
  rw [List.mem_singleton.mp ht]
  exact .element helement

/-- Two nested required validators in a module without items. -/
theorem run_retarget_requiredArray :
    LibraryScope (libraryScope "_fakePropTypes") (freshName ⟨noSpan, [], .null⟩ "fakePropTypes") ∧
    Validator "PropTypes" .chain requiredArray ∧
    run (libraryScope "_fakePropTypes") 1 (retarget "PropTypes" "_fakePropTypes" requiredArray) =
      libraryScope "_fakePropTypes" "_fakePropTypes" := by
  have hfresh : freshName ⟨noSpan, [], .null⟩ "fakePropTypes" = "_fakePropTypes" := by
    decide +kernel
  have hscope : LibraryScope (libraryScope "_fakePropTypes")
      (freshName ⟨noSpan, [], .null⟩ "fakePropTypes") := by
    rw [hfresh]
    exact libraryScope_spec (by decide)
  obtain ⟨v, hv, hchains, _⟩ := run_retarget_validator _ "fakePropTypes" "PropTypes" hscope 0
  rw [hfresh] at hv hchains
  exact ⟨hscope, validator_requiredArray,
    (hchains requiredArray (Or.inr validator_requiredArray)).trans hv.symm⟩

end PropCatalog.Metadata
