import PropCatalog.Tree.Kind

/-!
# Trees of modules

A tree is a leaf that holds an atom, or a node: a form with the parts that stand under it.  All
that a node says by itself (its kind, the spelling of an identifier) is in its form, and all that
can be walked into, source positions included, is among its parts.  So erasing positions touches
leaves only and renaming touches forms only.

An *identifier* is a binding or a reference.  A *name* is a spelling after a dot, an object key or
the like, which refers to nothing.  The two are told apart by their forms.

Every traversal of the library is an instance of `Tree.para`, or of `Tree.fold` when the parts
themselves are not looked at.  Main statements: `Tree.para_node` and `Tree.fold_node`, which
unfold a traversal by one node, and `Tree.induction`.
-/

namespace PropCatalog

/-- A range of source positions. -/
structure Span where
  start : Nat
  stop : Nat
deriving DecidableEq, Repr

/-- The span of whatever was not read from source text. -/
def Span.dummy : Span := ⟨0, 0⟩

namespace Tree

/-- What a leaf holds.  A number keeps the spelling it was given. -/
inductive Atom where
  | null
  | bool (value : Bool)
  | number (lexeme : String)
  | text (value : String)
  | span (value : Span)
deriving DecidableEq, Repr

/-- What a node is, apart from its parts.  The parts of a known kind stand in the order of
`Kind.fields`; an identifier has a span, a context, its optional mark and, as a binding, a type
annotation; a name has a span. -/
inductive Form where
  | list
  | identifier (value : String)
  | name (value : String)
  | known (kind : Kind)
  | record (tag : Option String) (fields : List String)
deriving DecidableEq, Repr

end Tree

/-- A part of a module. -/
inductive Tree where
  | leaf (atom : Tree.Atom)
  | node (form : Tree.Form) (parts : List Tree)
deriving Repr

namespace Tree

instance : Inhabited Tree := ⟨.leaf .null⟩

mutual

/-- Equality of trees is decidable. -/
def decEq : (s t : Tree) → Decidable (s = t)
  | .leaf a, .leaf b =>
      if h : a = b then isTrue (h ▸ rfl) else isFalse fun e => h (Tree.leaf.inj e)
  | .leaf _, .node _ _ => isFalse nofun
  | .node _ _, .leaf _ => isFalse nofun
  | .node f ps, .node g qs =>
      if hf : f = g then
        match decEqAll ps qs with
        | isTrue hp => isTrue (hf ▸ hp ▸ rfl)
        | isFalse hp => isFalse fun e => hp (Tree.node.inj e).2
      else isFalse fun e => hf (Tree.node.inj e).1

/-- Equality of lists of trees is decidable. -/
def decEqAll : (ss ts : List Tree) → Decidable (ss = ts)
  | [], [] => isTrue rfl
  | [], _ :: _ => isFalse nofun
  | _ :: _, [] => isFalse nofun
  | s :: ss, t :: ts =>
      match decEq s t, decEqAll ss ts with
      | isTrue h, isTrue hs => isTrue (h ▸ hs ▸ rfl)
      | isFalse h, _ => isFalse fun e => h (List.cons.inj e).1
      | _, isFalse hs => isFalse fun e => hs (List.cons.inj e).2

end

instance : DecidableEq Tree := decEq

/-- To prove something of every tree, prove it of leaves and of nodes whose parts have it. -/
@[elab_as_elim]
theorem induction {motive : Tree → Prop} (leaf : ∀ a, motive (.leaf a))
    (node : ∀ form parts, (∀ t ∈ parts, motive t) → motive (.node form parts)) (t : Tree) :
    motive t :=
  @Tree.rec motive (fun ts => ∀ t ∈ ts, motive t) leaf node
    (fun _ h => absurd h List.not_mem_nil)
    (fun _ _ head tail => List.forall_mem_cons.2 ⟨head, tail⟩) t

section Traversal

variable {α : Type}

mutual

/-- Compute bottom-up, a node seeing its parts together with what was computed for them. -/
def para (leaf : Atom → α) (node : Form → List (Tree × α) → α) : Tree → α
  | .leaf a => leaf a
  | .node f parts => node f (paraAll leaf node parts)

/-- Compute for each tree of a list and keep the tree. -/
def paraAll (leaf : Atom → α) (node : Form → List (Tree × α) → α) : List Tree → List (Tree × α)
  | [] => []
  | t :: ts => (t, para leaf node t) :: paraAll leaf node ts

end

theorem paraAll_eq_map (leaf : Atom → α) (node : Form → List (Tree × α) → α) (ts : List Tree) :
    paraAll leaf node ts = ts.map fun t => (t, para leaf node t) := by
  induction ts with
  | nil => rfl
  | cons t ts ih => simp [paraAll, ih]

@[simp] theorem para_leaf (leaf : Atom → α) (node : Form → List (Tree × α) → α) (a : Atom) :
    para leaf node (.leaf a) = leaf a := rfl

@[simp] theorem para_node (leaf : Atom → α) (node : Form → List (Tree × α) → α) (f : Form)
    (parts : List Tree) :
    para leaf node (.node f parts) = node f (parts.map fun t => (t, para leaf node t)) := by
  rw [para, paraAll_eq_map]

/-- Compute bottom-up from the atoms and the forms. -/
def fold (leaf : Atom → α) (node : Form → List α → α) : Tree → α :=
  para leaf fun f parts => node f (parts.map Prod.snd)

@[simp] theorem fold_leaf (leaf : Atom → α) (node : Form → List α → α) (a : Atom) :
    fold leaf node (.leaf a) = leaf a := rfl

@[simp] theorem fold_node (leaf : Atom → α) (node : Form → List α → α) (f : Form)
    (parts : List Tree) :
    fold leaf node (.node f parts) = node f (parts.map (fold leaf node)) := by
  simp only [fold, para_node, List.map_map]
  rfl

end Traversal

/-- Change every atom. -/
def mapAtoms (g : Atom → Atom) : Tree → Tree :=
  fold (fun a => .leaf (g a)) .node

@[simp] theorem mapAtoms_leaf (g : Atom → Atom) (a : Atom) :
    mapAtoms g (.leaf a) = .leaf (g a) := rfl

@[simp] theorem mapAtoms_node (g : Atom → Atom) (f : Form) (parts : List Tree) :
    mapAtoms g (.node f parts) = .node f (parts.map (mapAtoms g)) :=
  fold_node _ _ _ _

/-- Change every form. -/
def mapForms (g : Form → Form) : Tree → Tree :=
  fold .leaf fun f parts => .node (g f) parts

@[simp] theorem mapForms_leaf (g : Form → Form) (a : Atom) : mapForms g (.leaf a) = .leaf a := rfl

@[simp] theorem mapForms_node (g : Form → Form) (f : Form) (parts : List Tree) :
    mapForms g (.node f parts) = .node (g f) (parts.map (mapForms g)) :=
  fold_node _ _ _ _

/-- Whether a test holds at every node of a tree. -/
def all (p : Form → List Tree → Bool) : Tree → Bool :=
  para (fun _ => true) fun f parts => p f (parts.map Prod.fst) && parts.all Prod.snd

theorem all_node (p : Form → List Tree → Bool) (f : Form) (parts : List Tree) :
    all p (.node f parts) = (p f parts && parts.all (all p)) := by
  rw [all, para_node, ← all]
  simp only [List.map_map, Function.comp_def, List.map_id', List.all_map]

/-- The parts of a node, and none for a leaf. -/
def parts : Tree → List Tree
  | .leaf _ => []
  | .node _ ps => ps

end Tree

end PropCatalog
