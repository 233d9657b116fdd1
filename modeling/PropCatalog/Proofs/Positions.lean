import PropCatalog.Proofs.Description

/-!
# Inserted statements have no source positions

A position that slipped into an inserted statement would attach comments of the source text to it.
The statements are built without positions, but their values are copied from the module, and the
later passes move what was copied and build new nodes around it.  This file shows that no pass brings
a position back: `Tree.Bare` says that a tree has none, and building, erasing, settling and
retargeting all keep to it.

The other half is that erasing loses nothing but positions.  `Tree.Stripped` says of two trees that
one is the other with every span replaced by the dummy span and every other atom and every form kept,
and it holds of a tree and what erasing makes of it, and of no other pair (`Tree.stripped_iff`).
-/

namespace PropCatalog

open Component Metadata

namespace Tree

/-! ## Trees without positions -/

/-- A tree whose spans, at any depth, are all the dummy span. -/
def Bare (t : Tree) : Prop := ∀ s ∈ t.spans, s = Span.dummy

theorem bare_leaf_iff {a : Atom} : Bare (.leaf a) ↔ ∀ s, a = .span s → s = .dummy := by
  cases a <;> simp [Bare, Atom.span?]

theorem bare_node_iff {form : Form} {parts : List Tree} :
    Bare (.node form parts) ↔ ∀ t ∈ parts, Bare t := by
  unfold Bare
  rw [spans_node]
  simp only [List.mem_flatMap, forall_exists_index, and_imp]
  exact ⟨fun h t ht s hs => h s t ht hs, fun h s t ht hs => h t ht s hs⟩

theorem bare_eraseSpans (t : Tree) : Bare t.eraseSpans := by
  induction t using Tree.induction with
  | leaf a =>
    rw [eraseSpans_leaf, bare_leaf_iff]
    cases a <;> simp [Atom.eraseSpan]
  | node form parts ih =>
    rw [eraseSpans_node, bare_node_iff, List.forall_mem_map]
    exact ih

theorem Within.bare {s t : Tree} (h : Within s t) (ht : Bare t) : Bare s := by
  induction h with
  | refl => exact ht
  | part hmem _ ih => exact ih (bare_node_iff.mp ht _ hmem)

/-! ## What erasing changes -/

/-- One tree is another with every span replaced by the dummy span and nothing else changed. -/
inductive Stripped : Tree → Tree → Prop
  | span (s : Span) : Stripped (.span s) (.span .dummy)
  | atom (a : Atom) (ha : ∀ s, a ≠ .span s) : Stripped (.leaf a) (.leaf a)
  | node (form : Form) {parts parts' : List Tree} (h : List.Forall₂ Stripped parts parts') :
      Stripped (.node form parts) (.node form parts')

theorem stripped_eraseSpans (t : Tree) : Stripped t t.eraseSpans := by
  induction t using Tree.induction with
  | leaf a =>
    cases a with
    | span s => exact .span s
    | _ => exact .atom _ (by simp)
  | node form parts ih =>
    rw [eraseSpans_node]
    refine .node form ?_
    rw [List.forall₂_map_right_iff, List.forall₂_same]
    exact ih

/-- Erasing is the only way to strip a tree. -/
theorem stripped_iff {s t : Tree} : Stripped s t ↔ t = s.eraseSpans := by
  refine ⟨fun h => ?_, fun h => h ▸ stripped_eraseSpans s⟩
  induction s using Tree.induction generalizing t with
  | leaf a =>
    cases h with
    | span s => rfl
    | atom a ha =>
      rw [eraseSpans_leaf]
      cases a with
      | span s => exact absurd rfl (ha s)
      | _ => rfl
  | node form parts ih =>
    cases h with
    | node form hparts =>
      rw [eraseSpans_node]
      congr 1
      clear form
      induction hparts with
      | nil => rfl
      | cons hhead _ htail =>
        obtain ⟨ihead, itail⟩ := List.forall_mem_cons.mp ih
        rw [List.map_cons, ihead hhead, htail itail]

end Tree

/-! ## Passes over the inserted statements -/

namespace Metadata

open Tree

/-- The library is built without positions. -/
theorem bare_library (name : String) : (library name).Bare := by
  simp [library, getTrap, applyTrap, constant, newOf, emptyFunction, objectOf, arrowOf, conditional,
    strictEqual, reference, stringOf, plainArgument, plainName, binding, noSpan, noContext,
    bare_node_iff, bare_leaf_iff]

theorem bare_requiredCall (library : String) {validator : Tree} (h : validator.Bare) :
    (requiredCall library validator).Bare := by
  simpa [requiredCall, callOf, memberOf, reference, plainName, plainArgument, noSpan, noContext,
    bare_node_iff, bare_leaf_iff] using h

/-- Settling moves a validator and builds a call around it, both without positions. -/
theorem bare_settle (library : String) {t : Tree} (h : t.Bare) : (settle library t).Bare := by
  unfold settle
  split
  · next span validator p parts =>
    split
    · exact bare_requiredCall library ((unparen_within_member span validator _).bare h)
    · exact h
  · exact h

theorem bare_retargetPlace (aliasName library : String) {t : Tree} (h : t.Bare) :
    (retargetPlace aliasName library t).Bare := by
  induction t using Tree.induction with
  | leaf a => exact h
  | node form parts ih =>
    rw [retargetPlace_node, bare_node_iff]
    intro t ht
    obtain ⟨part, hpart, hsettled⟩ := mem_settleParts library ht
    obtain ⟨old, hold, rfl⟩ := List.mem_map.mp hpart
    have hretargeted := ih old hold (bare_node_iff.mp h old hold)
    rcases hsettled with rfl | rfl
    · exact hretargeted
    · exact bare_settle library hretargeted

/-- Retargeting brings no position in. -/
theorem bare_retarget (aliasName library : String) {t : Tree} (h : t.Bare) :
    (retarget aliasName library t).Bare :=
  bare_settle library (bare_retargetPlace aliasName library h)

theorem bare_metadata (field aliasName library : String) (e : Entry) :
    (e.metadata field aliasName library).Bare :=
  bare_retarget aliasName library (bare_eraseSpans _)

end Metadata

/-! ## What is stored -/

namespace Component

/-- Collecting a literal gives a property the value written for it last, without positions, and keeps
the properties that the literal does not write. -/
theorem Entry.lookup_collect (e : Entry) (literal : Tree) (name : String) :
    (e.collect literal).properties.lookup name =
      (((writtenProperties literal).reverse.lookup name).map Tree.eraseSpans).or
        (e.properties.lookup name) := by
  change (Record.setAll (declaredProperties literal) e.properties).lookup name = _
  rw [Record.lookup_setAll_or, declaredProperties_eq_map, ← List.map_reverse, Record.lookup_map]

end Component

namespace Module

open Tree

variable (m : Module) (options : Options)

/-- Nothing that attaching inserts has a source position, and nothing but positions is lost in
copying.  Every span of the library and of each metadata statement is the dummy span.  Whatever
literal is collected into whatever entry, the value stored for a property is the one written for it
last with its spans replaced by the dummy span and all else kept, and a property that is not written
keeps its value; so each value that a survey stores is such a copy of an expression of the module.
And erasing a second time changes nothing. -/
theorem attach_bare :
    (∃ after : Nat → Option Tree,
      (m.attach options).2.body =
        layout m.body (library (m.attach options).1.library) after ∧
      (library (m.attach options).1.library).Bare ∧
      ∀ position statement, after position = some statement → statement.Bare) ∧
    (∀ (e : Entry) (literal : Tree) (name : String),
      (∀ value, (writtenProperties literal).reverse.lookup name = some value →
        ∃ copy, (e.collect literal).properties.lookup name = some copy ∧ Stripped value copy) ∧
      ((writtenProperties literal).reverse.lookup name = none →
        (e.collect literal).properties.lookup name = e.properties.lookup name)) ∧
    (∀ e ∈ (Survey.ofModule m options).registry.entries, ∀ p ∈ e.properties,
      ∃ item ∈ m.body, ∃ value, Within value item ∧ Stripped value p.2) ∧
    ∀ t : Tree, t.eraseSpans.eraseSpans = t.eraseSpans := by
  refine ⟨⟨m.metadataAfter options, attach_body_eq_layout m options, bare_library _, ?_⟩, ?_, ?_,
    eraseSpans_eraseSpans⟩
  · intro position statement hstatement
    obtain ⟨e, _, _, _, rfl⟩ := exists_entry_of_metadataAfter hstatement
    exact bare_metadata _ _ _ e
  · intro e literal name
    have hlookup := e.lookup_collect literal name
    constructor
    · intro value hvalue
      refine ⟨value.eraseSpans, ?_, stripped_eraseSpans value⟩
      rw [hlookup, hvalue]
      rfl
    · intro hnone
      rw [hlookup, hnone]
      rfl
  · intro e he p hp
    obtain ⟨item, hitem, value, hwithin, heq⟩ := Survey.exists_within_of_mem_properties he hp
    exact ⟨item, hitem, value, hwithin, stripped_iff.mpr heq⟩

end Module

end PropCatalog
