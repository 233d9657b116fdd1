import PropCatalog.Metadata.Build

/-!
# Splicing statements into a module

The library goes after the directives at the head of the body, and every other statement right
after the item it is anchored to.  Anchors count the items of the body as it was before.
-/

namespace PropCatalog.Metadata

/-- A statement with the position of the item it follows. -/
structure Insertion where
  anchor : Nat
  statement : Tree
deriving DecidableEq, Repr

/-- Whether an item is a directive such as `'use strict';`. -/
def isDirective : Tree → Bool
  | .expressionStatement _ (.node (.known .stringLiteral) _) => true
  | _ => false

/-- How many directives stand at the head of a body. -/
def prologueLength (body : List Tree) : Nat := (body.takeWhile isDirective).length

/-- The items from a position on, the library after the last directive, and after each item the
pending statements anchored to it.  What is still pending at the end is dropped. -/
def weave (library : Tree) (prologue : Nat) : Nat → List Tree → List Insertion → List Tree
  | _, [], _ => []
  | position, item :: items, pending =>
      let (here, later) := pending.span fun i => i.anchor = position
      item :: (if position + 1 = prologue then [library] else [])
        ++ here.map Insertion.statement
        ++ weave library prologue (position + 1) items later

/-- The body with the library and the insertions.  Insertions with one anchor keep their order. -/
def splice (body : List Tree) (library : Tree) (insertions : List Insertion) : List Tree :=
  let prologue := prologueLength body
  (if prologue = 0 then [library] else [])
    ++ weave library prologue 0 body (insertions.mergeSort fun i j => i.anchor ≤ j.anchor)

end PropCatalog.Metadata
