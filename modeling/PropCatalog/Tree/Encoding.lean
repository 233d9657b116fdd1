import PropCatalog.Json.Value
import PropCatalog.Tree.Nodes

/-!
# Trees as JSON

A node is written as an object: its tag under `type`, the spelling of an identifier or a name
under `value`, and its parts under their fields.  Reading puts the parts of a known kind back
into the order of a traversal, whatever order the members of the object have.
-/

namespace PropCatalog.Tree

/-- The fields of an identifier, the last of them for bindings only. -/
def identifierFields : List String := ["span", "ctxt", "optional", "typeAnnotation"]

/-- The fields of a name. -/
def nameFields : List String := ["span"]

/-- An object with a tag, if there is one, and further members. -/
def tagged (tag : Option String) (members : List (String × Json)) : Json :=
  match tag with
  | none => .object members
  | some t => .object (("type", .text t) :: members)

/-- How an atom is written. -/
def Atom.toJson : Atom → Json
  | .null => .null
  | .bool b => .bool b
  | .number n => .number n
  | .text s => .text s
  | .span s => .object [("start", .ofNat s.start), ("end", .ofNat s.stop)]

/-- How a node is written, from how its parts are. -/
def Form.toJson (parts : List Json) : Form → Json
  | .list => .array parts
  | .identifier x =>
      tagged (some "Identifier") (("value", .text x) :: identifierFields.zip parts)
  | .name x => tagged (some "Identifier") (("value", .text x) :: nameFields.zip parts)
  | .known k => tagged k.tag (k.fields.zip parts)
  | .record tag fields => tagged tag (fields.zip parts)

/-- A tree as JSON. -/
def toJson : Tree → Json :=
  fold Atom.toJson fun f parts => f.toJson parts

/-- The span with the given members, if they are those of one. -/
def spanOfMembers? : List (String × Tree) → Option Span
  | [(k, .leaf (.number m)), (l, .leaf (.number n))] => do
      let m ← m.toNat?
      let n ← n.toNat?
      if k = "start" ∧ l = "end" then some ⟨m, n⟩
      else if k = "end" ∧ l = "start" then some ⟨n, m⟩
      else none
  | _ => none

/-- The identifier or the name with the given members. -/
def identifierOfMembers (value : String) (members : List (String × Tree)) : Tree :=
  if (members.lookup "optional").isSome then
    .node (.identifier value) (identifierFields.filterMap fun f => members.lookup f)
  else
    .node (.name value) (nameFields.filterMap fun f => members.lookup f)

/-- The node with the given tag and members. -/
def nodeOfMembers (tag : Option String) (members : List (String × Tree)) : Tree :=
  match Kind.ofRecord? tag (members.map Prod.fst) with
  | some k => .node (.known k) (k.fields.filterMap fun f => members.lookup f)
  | none => .node (.record tag (members.map Prod.fst)) (members.map Prod.snd)

/-- The tree with the given members. -/
def ofMembers (members : List (String × Tree)) : Tree :=
  match spanOfMembers? members with
  | some s => .leaf (.span s)
  | none =>
      let others := members.filter fun m => m.1 ≠ "type"
      match members.lookup "type" with
      | some (.leaf (.text t)) =>
          match t, others.lookup "value" with
          | "Identifier", some (.leaf (.text value)) => identifierOfMembers value others
          | _, _ => nodeOfMembers (some t) others
      | _ => nodeOfMembers none members

mutual

/-- The tree that JSON spells. -/
def ofJson : Json → Tree
  | .null => .leaf .null
  | .bool b => .leaf (.bool b)
  | .number n => .leaf (.number n)
  | .text s => .leaf (.text s)
  | .array items => .node .list (ofItems items)
  | .object members => ofMembers (ofFields members)

/-- The trees that the items of an array spell. -/
def ofItems : List Json → List Tree
  | [] => []
  | j :: js => ofJson j :: ofItems js

/-- The trees that the members of an object spell. -/
def ofFields : List (String × Json) → List (String × Tree)
  | [] => []
  | (k, j) :: ms => (k, ofJson j) :: ofFields ms

end

end PropCatalog.Tree
