import PropCatalog.Proofs.ValidNames

/-!
# The search for a fresh name

The candidates for the name of the library have no end, and the first one is taken that no identifier
of the module uses.  This file says where the search stops.  Each candidate that is passed over takes
up an identifier of its own, so that the search goes at most one step further than there are different
identifiers, and any search that goes so far finds the same name (`find?_freshName`).

It also says what is found.  Whatever text the base is, a candidate is an underscore followed by at
least one letter, digit, `_` or `$` (`exists_candidate_eq`).
-/

namespace PropCatalog.Metadata

/-- Every search that tries more candidates than there are different identifiers finds the fresh
name. -/
theorem find?_freshName (m : Module) (base : String) {n : Nat}
    (hn : m.identifiers.toFinset.card < n) :
    ((List.range n).map fun j => candidate (baseName base) (j + 1)).find?
        (fun x => !m.identifiers.contains x) = some (freshName m base) := by
  obtain ⟨i, hi, hname, hunused, hused⟩ := freshNameAmong_spec m.identifiers base
  rw [freshName, hname]
  exact find?_candidates (Nat.lt_of_le_of_lt hi hn) hunused hused

theorem baseName_ne_empty (base : String) : baseName base ≠ "" := by
  unfold baseName
  dsimp only
  split
  · decide
  · next htrimmed =>
    intro hempty
    exact htrimmed (by simpa using congrArg String.toList hempty)

/-- A candidate is an underscore with something behind it. -/
theorem exists_candidate_eq (base : String) (i : Nat) :
    ∃ rest, candidate (baseName base) i = "_" ++ rest ∧ rest ≠ "" ∧
      ∀ c ∈ rest.toList, isNameChar c = true := by
  have hchars {rest : String} (h : candidate (baseName base) i = "_" ++ rest) :
      ∀ c ∈ rest.toList, isNameChar c = true := by
    intro c hc
    have hmem : c ∈ (candidate (baseName base) i).toList := by
      rw [h, String.toList_append]
      exact List.mem_append_right _ hc
    exact isNameChar_of_mem_candidate (fun _ => isNameChar_of_mem_baseName) hmem
  have hbase := baseName_ne_empty base
  by_cases hi : i > 1
  · have heq : candidate (baseName base) i = "_" ++ (baseName base ++ toString i) := by
      rw [candidate, if_pos hi, String.append_assoc]
    refine ⟨_, heq, fun hempty => hbase ?_, hchars heq⟩
    simpa using congrArg String.toList hempty
  · have heq : candidate (baseName base) i = "_" ++ baseName base := by
      rw [candidate, if_neg hi]
    exact ⟨_, heq, hbase, hchars heq⟩

theorem isNameChar_iff {c : Char} :
    isNameChar c = true ↔ c.isAlpha = true ∨ c.isDigit = true ∨ c = '_' ∨ c = '$' := by
  simp [isNameChar, Char.isAlphanum, or_assoc]

/-- The fresh name of a module is the first of its candidates that is not an identifier of the module.
Its number is at most one more than the number of different identifiers, and every search that goes so
far finds it, so that there always is one.  It is an underscore followed by one or more letters,
digits, `_` and `$`, hence a valid name, and none of the names that the library uses inside. -/
theorem freshName_first (m : Module) (base : String) :
    (∃ i, 1 ≤ i ∧ i ≤ m.identifiers.toFinset.card + 1 ∧
      freshName m base = candidate (baseName base) i ∧
      candidate (baseName base) i ∉ m.identifiers ∧
      ∀ j, 1 ≤ j → j < i → candidate (baseName base) j ∈ m.identifiers) ∧
    (∀ n, m.identifiers.toFinset.card < n →
      ((List.range n).map fun j => candidate (baseName base) (j + 1)).find?
        (fun x => !m.identifiers.contains x) = some (freshName m base)) ∧
    (∃ rest, freshName m base = "_" ++ rest ∧ rest ≠ "" ∧
      ∀ c ∈ rest.toList, c.isAlpha = true ∨ c.isDigit = true ∨ c = '_' ∨ c = '$') ∧
    Text.isName (freshName m base) = true ∧
    freshName m base ∉ ["Proxy", "target", "key", "type"] := by
  obtain ⟨i, hi, hname, hunused, hused⟩ := freshNameAmong_spec m.identifiers base
  refine ⟨⟨i + 1, Nat.le_add_left 1 i, Nat.succ_le_succ hi, hname, hunused, ?_⟩,
    fun n hn => find?_freshName m base hn, ?_, isName_freshName m base,
    notMem_library_of_front (front_freshName m base)⟩
  · intro j hone hj
    have hbefore := hused (j - 1) (by omega)
    rwa [Nat.sub_add_cancel hone] at hbefore
  · obtain ⟨rest, heq, hrest, hchars⟩ := exists_candidate_eq base (i + 1)
    exact ⟨rest, hname.trans heq, hrest, fun c hc => isNameChar_iff.mp (hchars c hc)⟩

end PropCatalog.Metadata
