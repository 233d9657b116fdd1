import PropCatalog.Metadata.Library
import PropCatalog.Metadata.Retarget

/-!
# Evaluating expressions

A semantics for the expressions that validators are made of and for those that declare the
replacement library: references, member access, calls, literals, arrays, objects, arrow functions,
`===`, the conditional, and `new Proxy(target, handler)`.  Reading a member of a proxy calls the
trap `get` of its handler, and calling a proxy whose target is a function calls the trap `apply`.

An expression outside this fragment, or one that throws, has no value.  `this` is not kept: none of
these expressions reads it.

Evaluation goes down the tree, except where a function is called: its body is not part of the call.
So `evaluate` takes the meaning of calls as an argument, and `invoke` gives it, to a depth of nested
calls.
-/

namespace PropCatalog.Metadata

open Tree

/-- Values of expressions. -/
inductive Value where
  | undefined
  | bool (b : Bool)
  | text (s : String)
  /-- A literal that is neither a text nor a truth value. -/
  | constant (kind : Kind) (parts : List Tree)
  | array (items : List Value)
  | object (fields : List (String × Value))
  /-- An arrow function, with what the locals around it were. -/
  | closure (parameters : List String) (body : Tree) (locals : List (String × Value))
  /-- A function whose body is not looked at. -/
  | function
  | proxyConstructor
  | proxy (target handler : Value)

namespace Value

/-- Whether a value is a function that can be the target of a proxy that is called. -/
def isCallable : Value → Bool
  | closure _ _ _ => true
  | function => true
  | _ => false

/-- Whether a proxy can be made of a value. -/
def isObject : Value → Bool
  | array _ => true
  | object _ => true
  | closure _ _ _ => true
  | function => true
  | proxy _ _ => true
  | _ => false

/-- A trap of a handler. -/
def trap? (name : String) : Value → Option Value
  | object fields => fields.lookup name
  | _ => none

end Value

section Evaluate

variable (invoke : Value → List Value → Option Value)

/-- Read a member of a value. -/
def readMember (name : String) : Value → Option Value
  | .proxy target handler => do
      invoke (← handler.trap? "get") [target, .text name, .proxy target handler]
  | .object fields => some ((fields.lookup name).getD .undefined)
  | _ => none

/-- Call a value. -/
def callValue (arguments : List Value) : Value → Option Value
  | .proxy target handler =>
      if target.isCallable then do
        invoke (← handler.trap? "apply") [target, .undefined, .array arguments]
      else none
  | f => invoke f arguments

/-- Call a value as a constructor. -/
def construct : Value → List Value → Option Value
  | .proxyConstructor, [target, handler] =>
      if target.isObject && handler.isObject then some (.proxy target handler) else none
  | _, _ => none

/-- Compare two values with `===`. -/
def strictEquality : Value → Value → Option Value
  | .text s, .text t => some (.bool (s = t))
  | _, _ => none

/-- The spelling of an identifier. -/
def identifierName? : Tree → Option String
  | .node (.identifier x) _ => some x
  | _ => none

/-- The name of a property that is not computed. -/
def propertyName? : Tree → Option String
  | .node (.name x) _ => some x
  | .string _ (.text s) _ => some s
  | .node (.known .numericLiteral) [_, .leaf (.number lexeme), _] => some lexeme
  | _ => none

/-- The value of a literal. -/
def literal? (kind : Kind) (parts : List Tree) : Option Value :=
  match kind, parts with
  | .stringLiteral, [_, .text s, _] => some (.text s)
  | .booleanLiteral, [_, .bool b] => some (.bool b)
  | .stringLiteral, _ | .booleanLiteral, _ | .nullLiteral, _ | .numericLiteral, _
  | .bigIntLiteral, _ | .regExpLiteral, _ => some (.constant kind parts)
  | _, _ => none

variable (scope : String → Option Value) (locals : List (String × Value))

mutual

/-- The value of an expression. -/
def evaluate : Tree → Option Value
  | .node (.identifier x) _ => (locals.lookup x).or (scope x)
  | .parenthesis _ e => evaluate e
  | .member _ e (.node (.name p) _) => do readMember invoke p (← evaluate e)
  | .call _ _ callee (.list arguments) _ => do
      let f ← evaluate callee
      callValue invoke (← evaluateAll arguments) f
  | .node (.known .newExpression) [_, _, callee, .list arguments, _] => do
      let f ← evaluate callee
      construct f (← evaluateAll arguments)
  | .node (.known .conditionalExpression) [_, test, consequent, alternate] => do
      match ← evaluate test with
      | .bool true => evaluate consequent
      | .bool false => evaluate alternate
      | _ => none
  | .node (.known .binaryExpression) [_, .text "===", left, right] => do
      let l ← evaluate left
      strictEquality l (← evaluate right)
  | .node (.known .arrowFunction)
      [_, _, .list parameters, body, .bool false, .bool false, _, _] => do
      return .closure (← parameters.mapM identifierName?) body locals
  | .node (.known .functionExpression) _ => some .function
  | .node (.known .arrayExpression) [_, .list elements] => do
      return .array (← evaluateAll elements)
  | .object _ (.list properties) => do return .object (← evaluateProperties properties)
  | .node (.known kind) parts => literal? kind parts
  | _ => none

/-- The values of the elements of an argument list or an array, none of them spread. -/
def evaluateAll : List Tree → Option (List Value)
  | [] => some []
  | .argument .null e :: es => do
      let v ← evaluate e
      return v :: (← evaluateAll es)
  | _ => none

/-- The properties of an object literal. -/
def evaluateProperties : List Tree → Option (List (String × Value))
  | [] => some []
  | .keyValue key e :: ps => do
      let name ← propertyName? key
      let v ← evaluate e
      return (name, v) :: (← evaluateProperties ps)
  | .node (.identifier x) _ :: ps => do
      let v ← (locals.lookup x).or (scope x)
      return (x, v) :: (← evaluateProperties ps)
  | _ => none

end

end Evaluate

/-- Give arguments to parameters.  A missing argument is undefined, and one too many is dropped. -/
def bindParameters : List String → List Value → List (String × Value)
  | [], _ => []
  | p :: ps, [] => (p, .undefined) :: bindParameters ps []
  | p :: ps, v :: vs => (p, v) :: bindParameters ps vs

/-- What a function gives, if calls are not nested deeper than a bound. -/
def invoke (scope : String → Option Value) : Nat → Value → List Value → Option Value
  | depth + 1, .closure parameters body locals, arguments =>
      evaluate (invoke scope depth) scope (bindParameters parameters arguments ++ locals) body
  | _, _, _ => none

/-- The value of an expression in a scope, if calls are not nested deeper than a bound. -/
def run (scope : String → Option Value) (depth : Nat) (e : Tree) : Option Value :=
  evaluate (invoke scope depth) scope [] e

/-! ## One step of evaluation -/

section Steps

variable (inv : Value → List Value → Option Value) (scope : String → Option Value)
  (locals : List (String × Value))

@[simp] theorem evaluate_identifier (x : String) (parts : List Tree) :
    evaluate inv scope locals (.node (.identifier x) parts) = (locals.lookup x).or (scope x) :=
  rfl

@[simp] theorem evaluate_parenthesis (span e : Tree) :
    evaluate inv scope locals (.parenthesis span e) = evaluate inv scope locals e :=
  rfl

@[simp] theorem evaluate_member (span e : Tree) (p : String) (parts : List Tree) :
    evaluate inv scope locals (.member span e (.node (.name p) parts)) =
      (evaluate inv scope locals e).bind (readMember inv p) :=
  rfl

@[simp] theorem evaluate_call (span context callee typeArguments : Tree) (arguments : List Tree) :
    evaluate inv scope locals (.call span context callee (.list arguments) typeArguments) =
      (evaluate inv scope locals callee).bind fun f =>
        (evaluateAll inv scope locals arguments).bind fun vs => callValue inv vs f :=
  rfl

@[simp] theorem evaluate_array (span : Tree) (elements : List Tree) :
    evaluate inv scope locals (.node (.known .arrayExpression) [span, .list elements]) =
      (evaluateAll inv scope locals elements).map .array := by
  show (evaluateAll inv scope locals elements).bind (fun vs => some (Value.array vs)) = _
  cases evaluateAll inv scope locals elements <;> rfl

@[simp] theorem evaluate_object (span : Tree) (properties : List Tree) :
    evaluate inv scope locals (.object span (.list properties)) =
      (evaluateProperties inv scope locals properties).map .object := by
  show (evaluateProperties inv scope locals properties).bind
    (fun fields => some (Value.object fields)) = _
  cases evaluateProperties inv scope locals properties <;> rfl

theorem evaluate_conditional {span test consequent alternate : Tree} {b : Bool}
    (htest : evaluate inv scope locals test = some (.bool b)) :
    evaluate inv scope locals
        (.node (.known .conditionalExpression) [span, test, consequent, alternate]) =
      if b then evaluate inv scope locals consequent else evaluate inv scope locals alternate := by
  show (evaluate inv scope locals test).bind _ = _
  rw [htest]
  cases b <;> rfl

/-- Parentheses do not change a value. -/
theorem evaluate_unparen (e : Tree) :
    evaluate inv scope locals e.unparen = evaluate inv scope locals e := by
  fun_induction unparen e with
  | case1 span e ih => rw [evaluate_parenthesis, ih]
  | case2 e => rfl

/-- The kinds of literals. -/
def literalKinds : List Kind :=
  [.stringLiteral, .booleanLiteral, .nullLiteral, .numericLiteral, .bigIntLiteral, .regExpLiteral]

/-- A literal has a value. -/
theorem exists_evaluate_literal {kind : Kind} (hkind : kind ∈ literalKinds) (parts : List Tree) :
    ∃ v, evaluate inv scope locals (.node (.known kind) parts) = some v := by
  simp only [literalKinds, List.mem_cons, List.not_mem_nil, or_false] at hkind
  have hliteral : ∃ v, literal? kind parts = some v := by
    rcases hkind with rfl | rfl | rfl | rfl | rfl | rfl <;> unfold literal? <;> split <;>
      first | exact ⟨_, rfl⟩ | simp_all
  obtain ⟨v, hv⟩ := hliteral
  refine ⟨v, ?_⟩
  rcases hkind with rfl | rfl | rfl | rfl | rfl | rfl <;> exact hv

/-- A list of elements with values has a list of values. -/
theorem exists_evaluateAll {elements : List Tree}
    (h : ∀ t ∈ elements, ∃ e v, t = .argument .null e ∧ evaluate inv scope locals e = some v) :
    ∃ vs, evaluateAll inv scope locals elements = some vs := by
  induction elements with
  | nil => exact ⟨[], rfl⟩
  | cons t elements ih =>
    obtain ⟨⟨e, v, rfl, hv⟩, hrest⟩ := List.forall_mem_cons.mp h
    obtain ⟨vs, hvs⟩ := ih hrest
    refine ⟨v :: vs, ?_⟩
    show (evaluate inv scope locals e).bind (fun v =>
      (evaluateAll inv scope locals elements).bind fun vs => some (v :: vs)) = _
    rw [hv, hvs]
    rfl

/-- A list of properties with values makes an object. -/
theorem exists_evaluateProperties {properties : List Tree}
    (h : ∀ t ∈ properties,
      (∃ key e name v, t = .keyValue key e ∧ propertyName? key = some name ∧
        evaluate inv scope locals e = some v) ∨
      ∃ x parts v, t = .node (.identifier x) parts ∧ (locals.lookup x).or (scope x) = some v) :
    ∃ fields, evaluateProperties inv scope locals properties = some fields := by
  induction properties with
  | nil => exact ⟨[], rfl⟩
  | cons t properties ih =>
    obtain ⟨hhead, hrest⟩ := List.forall_mem_cons.mp h
    obtain ⟨fields, hfields⟩ := ih hrest
    rcases hhead with ⟨key, e, name, v, rfl, hname, hv⟩ | ⟨x, parts, v, rfl, hv⟩
    · refine ⟨(name, v) :: fields, ?_⟩
      show (propertyName? key).bind (fun name => (evaluate inv scope locals e).bind fun v =>
        (evaluateProperties inv scope locals properties).bind fun fields =>
          some ((name, v) :: fields)) = _
      rw [hname, hv, hfields]
      rfl
    · refine ⟨(x, v) :: fields, ?_⟩
      show ((locals.lookup x).or (scope x)).bind (fun v =>
        (evaluateProperties inv scope locals properties).bind fun fields =>
          some ((x, v) :: fields)) = _
      rw [hv, hfields]
      rfl

end Steps

end PropCatalog.Metadata
