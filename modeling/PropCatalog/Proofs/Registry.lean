import Mathlib.Data.List.Nodup
import Mathlib.Data.List.TakeWhile
import PropCatalog.Component.Registry

/-!
# Histories of a registry

A registry changes in two ways: a declaration is registered, or the properties of an object
literal are collected for a component.  This file says what a registry holds in terms of the list
of such operations it has gone through, its history.

* Names stand in the order of their first registration, each once.
* The kind and the anchor of an entry are those of the last registration of its name.
* Its properties are those of the literals collected for its name since the first registration;
  what was collected before is lost.

`Registry.Describes` is the invariant, `describes_apply` what one operation preserves of it, and
`describes_run` what follows for every history.
-/

namespace PropCatalog.Component

/-- One change of a registry. -/
inductive Operation where
  /-- A declaration is registered. -/
  | register (name : String) (kind : Kind) (anchor : Nat)
  /-- The properties of an object literal are collected for a component. -/
  | collect (name : String) (literal : Tree)
deriving DecidableEq, Repr

namespace Operation

/-- The registry after an operation. -/
def apply (r : Registry) : Operation → Registry
  | .register name kind anchor => r.register name kind anchor
  | .collect name literal => r.collect name literal

/-- The name that an operation registers. -/
def registered? : Operation → Option String
  | .register name _ _ => some name
  | .collect _ _ => none

/-- How and where an operation registers a name. -/
def registration? (name : String) : Operation → Option (Kind × Nat)
  | .register n kind anchor => if n = name then some (kind, anchor) else none
  | .collect _ _ => none

/-- The literal that an operation collects for a name. -/
def collected? (name : String) : Operation → Option Tree
  | .register _ _ _ => none
  | .collect n literal => if n = name then some literal else none

theorem registration?_eq_none_iff {name : String} {op : Operation} :
    op.registration? name = none ↔ op.registered? ≠ some name := by
  cases op <;> simp [registration?, registered?]

end Operation

/-- A name has a registration in a history exactly if the history registers it. -/
theorem filterMap_registration_eq_nil_iff {name : String} {history : List Operation} :
    history.filterMap (Operation.registration? name) = [] ↔
      name ∉ history.filterMap Operation.registered? := by
  simp only [List.filterMap_eq_nil_iff, List.mem_filterMap, Operation.registration?_eq_none_iff,
    not_exists, not_and]

namespace Registry

/-- The registry after a list of operations. -/
def run (r : Registry) (operations : List Operation) : Registry :=
  operations.foldl Operation.apply r

@[simp] theorem run_nil (r : Registry) : r.run [] = r := rfl

@[simp] theorem run_cons (r : Registry) (op : Operation) (ops : List Operation) :
    r.run (op :: ops) = (op.apply r).run ops := rfl

theorem run_append (r : Registry) (ops later : List Operation) :
    r.run (ops ++ later) = (r.run ops).run later := by
  unfold run
  exact List.foldl_append

/-- The literals collected for a name since it was first registered. -/
def literalsSince (name : String) (history : List Operation) : List Tree :=
  (history.dropWhile fun op => op.registered? ≠ some name).filterMap (Operation.collected? name)

/-! ## Literals of a longer history -/

/-- A history that never registers a name has no part that counts for it. -/
theorem dropWhile_registered_eq_nil {name : String} {history : List Operation}
    (hname : name ∉ history.filterMap Operation.registered?) :
    history.dropWhile (fun op => op.registered? ≠ some name) = [] := by
  rw [List.dropWhile_eq_nil_iff]
  intro op hop
  rw [decide_eq_true_eq]
  intro heq
  exact hname (List.mem_filterMap.mpr ⟨op, hop, heq⟩)

/-- Nothing is collected for a name that was never registered. -/
theorem literalsSince_eq_nil {name : String} {history : List Operation}
    (hname : name ∉ history.filterMap Operation.registered?) :
    literalsSince name history = [] := by
  rw [literalsSince, dropWhile_registered_eq_nil hname]
  rfl

/-- Later operations only add to what counts for a name that was registered. -/
theorem literalsSince_append {name : String} {history : List Operation}
    (hname : name ∈ history.filterMap Operation.registered?) (later : List Operation) :
    literalsSince name (history ++ later) =
      literalsSince name history ++ later.filterMap (Operation.collected? name) := by
  obtain ⟨op, hop, heq⟩ := List.mem_filterMap.mp hname
  have hrest : history.dropWhile (fun op => op.registered? ≠ some name) ≠ [] := by
    intro hnil
    have hall := List.dropWhile_eq_nil_iff.mp hnil op hop
    simp [heq] at hall
  simp only [literalsSince]
  rw [List.dropWhile_append, if_neg (by simpa using hrest), List.filterMap_append]

/-- A registration by itself adds nothing to what counts, for any name. -/
theorem literalsSince_concat_register (name n : String) (kind : Kind) (anchor : Nat)
    (history : List Operation) :
    literalsSince name (history ++ [.register n kind anchor]) = literalsSince name history := by
  by_cases hname : name ∈ history.filterMap Operation.registered?
  · rw [literalsSince_append hname]
    simp [Operation.collected?]
  · rw [literalsSince_eq_nil hname]
    rw [literalsSince, List.dropWhile_append, dropWhile_registered_eq_nil hname]
    by_cases hn : n = name
    · simp [Operation.registered?, Operation.collected?, hn]
    · simp [Operation.registered?, hn]

end Registry

/-! ## Entries under the operations -/

namespace Entry

@[simp] theorem collect_name (e : Entry) (literal : Tree) : (e.collect literal).name = e.name :=
  rfl

@[simp] theorem collect_kind (e : Entry) (literal : Tree) : (e.collect literal).kind = e.kind :=
  rfl

@[simp] theorem collect_anchor (e : Entry) (literal : Tree) :
    (e.collect literal).anchor = e.anchor := rfl

/-- Collecting looks neither at the kind nor at the anchor of an entry. -/
theorem foldl_collect_declared (e : Entry) (kind : Kind) (anchor : Nat) (literals : List Tree) :
    literals.foldl collect { e with kind, anchor } =
      { literals.foldl collect e with kind, anchor } := by
  induction literals generalizing e with
  | nil => rfl
  | cons literal literals ih => exact ih (e.collect literal)

end Entry

namespace Registry

theorem mem_entries_modify {r : Registry} {name : String} {f : Entry → Entry} {e : Entry} :
    e ∈ (r.modify name f).entries ↔
      ∃ old ∈ r.entries, (if old.name = name then f old else old) = e := by
  simp only [modify, List.mem_map]

theorem mem_names {r : Registry} {name : String} :
    name ∈ r.names ↔ ∃ e ∈ r.entries, e.name = name := by
  simp only [names, List.mem_map]

theorem names_modify (r : Registry) (name : String) {f : Entry → Entry}
    (hf : ∀ e, (f e).name = e.name) : (r.modify name f).names = r.names := by
  unfold names modify
  rw [List.map_map]
  apply List.map_congr_left
  intro e _
  change (if e.name = name then f e else e).name = e.name
  split
  · exact hf e
  · rfl

@[simp] theorem names_collect (r : Registry) (name : String) (literal : Tree) :
    (r.collect name literal).names = r.names :=
  r.names_modify name fun e => e.collect_name literal

theorem names_register (r : Registry) (name : String) (kind : Kind) (anchor : Nat) :
    (r.register name kind anchor).names =
      if name ∈ r.names then r.names else r.names ++ [name] := by
  unfold register
  split
  · exact r.names_modify name fun _ => rfl
  · simp [names]

/-- Where an entry comes from after a registration: it is another component's and unchanged, or a
known component's with the new kind and anchor, or a new one. -/
theorem mem_entries_register {r : Registry} {name : String} {kind : Kind} {anchor : Nat}
    {e : Entry} (he : e ∈ (r.register name kind anchor).entries) :
    (e ∈ r.entries ∧ e.name ≠ name) ∨
      (∃ old ∈ r.entries, old.name = name ∧ e = { old with kind, anchor }) ∨
      (name ∉ r.names ∧ e = ⟨name, kind, anchor, []⟩) := by
  unfold register at he
  split at he
  · obtain ⟨old, hold, rfl⟩ := mem_entries_modify.mp he
    split
    · next hname => exact Or.inr (Or.inl ⟨old, hold, hname, rfl⟩)
    · next hname => exact Or.inl ⟨hold, hname⟩
  · next hnew =>
    rcases List.mem_append.mp he with hold | hlast
    · refine Or.inl ⟨hold, fun hname => hnew ?_⟩
      exact mem_names.mpr ⟨e, hold, hname⟩
    · exact Or.inr (Or.inr ⟨hnew, List.mem_singleton.mp hlast⟩)

/-- Where an entry comes from after a literal was collected. -/
theorem mem_entries_collect {r : Registry} {name : String} {literal : Tree} {e : Entry}
    (he : e ∈ (r.collect name literal).entries) :
    (e ∈ r.entries ∧ e.name ≠ name) ∨
      (∃ old ∈ r.entries, old.name = name ∧ e = old.collect literal) := by
  obtain ⟨old, hold, rfl⟩ := mem_entries_modify.mp he
  split
  · next hname => exact Or.inr ⟨old, hold, hname, rfl⟩
  · next hname => exact Or.inl ⟨hold, hname⟩

/-- Among entries with different names, an entry is known by its name. -/
theorem eq_of_name_eq {r : Registry} (hnodup : r.names.Nodup) {e e' : Entry}
    (he : e ∈ r.entries) (he' : e' ∈ r.entries) (hname : e.name = e'.name) : e = e' :=
  List.inj_on_of_nodup_map hnodup he he' hname

/-! ## The invariant -/

/-- A registry holds what its history says: see the head of this file. -/
structure Describes (history : List Operation) (r : Registry) : Prop where
  names_eq : r.names = (history.filterMap Operation.registered?).eraseDups
  names_nodup : r.names.Nodup
  registration : ∀ e ∈ r.entries,
    (history.filterMap (Operation.registration? e.name)).getLast? = some (e.kind, e.anchor)
  collected : ∀ e ∈ r.entries,
    e = (literalsSince e.name history).foldl Entry.collect ⟨e.name, e.kind, e.anchor, []⟩

theorem describes_empty : Describes [] empty where
  names_eq := rfl
  names_nodup := List.nodup_nil
  registration := by
    intro e he
    cases he
  collected := by
    intro e he
    cases he

namespace Describes

variable {history : List Operation} {r : Registry}

theorem mem_names_iff (h : Describes history r) {name : String} :
    name ∈ r.names ↔ name ∈ history.filterMap Operation.registered? := by
  rw [h.names_eq, List.mem_eraseDups]

theorem registered_of_mem (h : Describes history r) {e : Entry} (he : e ∈ r.entries) :
    e.name ∈ history.filterMap Operation.registered? :=
  h.mem_names_iff.mp (mem_names.mpr ⟨e, he, rfl⟩)

end Describes

/-- First occurrences of a list to which one element is appended. -/
theorem eraseDups_concat (names : List String) (name : String) :
    (names ++ [name]).eraseDups =
      if name ∈ names then names.eraseDups else names.eraseDups ++ [name] := by
  rw [List.eraseDups_append]
  split
  · next h => simp [List.removeAll, h]
  · next h => simp [List.removeAll, h, List.eraseDups_cons]

/-- What a registration preserves. -/
theorem describes_register {history : List Operation} {r : Registry} (h : Describes history r)
    (name : String) (kind : Kind) (anchor : Nat) :
    Describes (history ++ [.register name kind anchor]) (r.register name kind anchor) := by
  constructor
  · rw [List.filterMap_append, names_register]
    change _ = (history.filterMap Operation.registered? ++ [name]).eraseDups
    rw [eraseDups_concat, ← h.names_eq]
    simp only [h.mem_names_iff]
  · rw [names_register]
    split
    · exact h.names_nodup
    · next hnew =>
      refine List.nodup_append.mpr ⟨h.names_nodup, List.nodup_singleton name, ?_⟩
      intro old hold new hlast heq
      rw [List.mem_singleton.mp hlast] at heq
      exact hnew (heq ▸ hold)
  · intro e he
    rw [List.filterMap_append, List.getLast?_append]
    rcases mem_entries_register he with ⟨hold, hname⟩ | ⟨old, _, rfl, rfl⟩ | ⟨_, rfl⟩
    · have hother : Operation.registration? e.name (.register name kind anchor) = none := by
        simp [Operation.registration?, Ne.symm hname]
      simpa [hother] using h.registration e hold
    · simp [Operation.registration?]
    · simp [Operation.registration?]
  · intro e he
    -- A known component keeps what was collected for it, and for a new one nothing was.
    rw [literalsSince_concat_register]
    rcases mem_entries_register he with ⟨hold, _⟩ | ⟨old, hold, rfl, rfl⟩ | ⟨hnew, rfl⟩
    · exact h.collected e hold
    · have hprops := h.collected old hold
      change _ = (literalsSince old.name history).foldl Entry.collect ⟨old.name, kind, anchor, []⟩
      rw [Entry.foldl_collect_declared ⟨old.name, old.kind, old.anchor, []⟩ kind anchor, ← hprops]
    · change _ = (literalsSince name history).foldl Entry.collect ⟨name, kind, anchor, []⟩
      rw [literalsSince_eq_nil (fun hmem => hnew (h.mem_names_iff.mpr hmem))]
      rfl

/-- What collecting a literal preserves. -/
theorem describes_collect {history : List Operation} {r : Registry} (h : Describes history r)
    (name : String) (literal : Tree) :
    Describes (history ++ [.collect name literal]) (r.collect name literal) := by
  constructor
  · rw [names_collect, h.names_eq, List.filterMap_append]
    change _ = (history.filterMap Operation.registered? ++ []).eraseDups
    rw [List.append_nil]
  · rw [names_collect]
    exact h.names_nodup
  · intro e he
    rw [List.filterMap_append, List.getLast?_append]
    rcases mem_entries_collect he with ⟨hold, _⟩ | ⟨old, hold, _, rfl⟩
    · simpa [Operation.registration?] using h.registration e hold
    · simpa [Operation.registration?] using h.registration old hold
  · intro e he
    rcases mem_entries_collect he with ⟨hold, hname⟩ | ⟨old, hold, rfl, rfl⟩
    · rw [literalsSince_append (h.registered_of_mem hold)]
      simpa [Operation.collected?, Ne.symm hname] using h.collected e hold
    · rw [Entry.collect_name, literalsSince_append (h.registered_of_mem hold)]
      have hlast : [Operation.collect old.name literal].filterMap
          (Operation.collected? old.name) = [literal] := by
        simp [Operation.collected?]
      rw [hlast, List.foldl_append, List.foldl_cons, List.foldl_nil]
      change old.collect literal =
        ((literalsSince old.name history).foldl Entry.collect
          ⟨old.name, old.kind, old.anchor, []⟩).collect literal
      rw [← h.collected old hold]

/-- What one operation preserves. -/
theorem describes_apply {history : List Operation} {r : Registry} (h : Describes history r)
    (op : Operation) : Describes (history ++ [op]) (op.apply r) := by
  cases op with
  | register name kind anchor => exact describes_register h name kind anchor
  | collect name literal => exact describes_collect h name literal

/-- What any further history preserves. -/
theorem describes_run_of_describes {history : List Operation} {r : Registry}
    (h : Describes history r) (ops : List Operation) :
    Describes (history ++ ops) (r.run ops) := by
  induction ops generalizing history r with
  | nil => simpa using h
  | cons op ops ih =>
    have hstep := ih (describes_apply h op)
    rwa [List.append_assoc] at hstep

/-- A registry that started empty holds what its history says. -/
theorem describes_run (ops : List Operation) : Describes ops (empty.run ops) :=
  describes_run_of_describes describes_empty ops

end Registry

end PropCatalog.Component
