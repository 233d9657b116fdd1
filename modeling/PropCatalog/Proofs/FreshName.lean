import Mathlib.Data.Finset.Card
import Mathlib.Data.Nat.Find
import PropCatalog.Metadata.FreshName

/-!
# Fresh names are fresh

Candidates with different numbers are different names, so the candidates that come before the first
unused one are at most as many as there are different used names.  A search that goes that far finds
it (`find?_candidates`), and `freshNameAmong_spec` says that it is the name that is taken.
-/

namespace PropCatalog.Metadata

/-- A number can be read back from its decimal digits. -/
theorem toString_injective {m n : Nat} (h : toString m = toString n) : m = n := by
  have hdigits : Nat.toDigits 10 m = Nat.toDigits 10 n := by
    simpa only [Nat.toString_eq_repr, Nat.toList_repr] using congrArg String.toList h
  rw [← Nat.ofDigitChars_toDigits (b := 10) (n := m) (by decide) (by decide), hdigits,
    Nat.ofDigitChars_toDigits (by decide) (by decide)]

/-- Candidates with different numbers are different names. -/
theorem candidate_injective (name : String) :
    Function.Injective fun i => candidate name (i + 1) := by
  intro i j h
  have hunnumbered (k : Nat) : candidate name (k + 2) ≠ candidate name 1 := by
    intro heq
    simp [candidate] at heq
  cases i with
  | zero =>
    cases j with
    | zero => rfl
    | succ j => exact absurd h.symm (hunnumbered j)
  | succ i =>
    cases j with
    | zero => exact absurd h (hunnumbered i)
    | succ j =>
      have hdigits : toString (i + 2) = toString (j + 2) := by
        simpa [candidate] using h
      have hnumber : i + 2 = j + 2 := toString_injective hdigits
      omega

/-- If the first candidates are all used, there are at least as many different used names. -/
theorem le_card_of_used {used : List String} {name : String} {n : Nat}
    (h : ∀ i < n, candidate name (i + 1) ∈ used) : n ≤ used.toFinset.card := by
  have hsubset : (Finset.range n).image (fun i => candidate name (i + 1)) ⊆ used.toFinset := by
    intro x hx
    obtain ⟨i, hi, rfl⟩ := Finset.mem_image.mp hx
    exact List.mem_toFinset.mpr (h i (Finset.mem_range.mp hi))
  calc n = ((Finset.range n).image fun i => candidate name (i + 1)).card := by
        rw [Finset.card_image_of_injective _ (candidate_injective name), Finset.card_range]
    _ ≤ used.toFinset.card := Finset.card_le_card hsubset

/-- Some candidate is the first one that is not used, and it comes after no more candidates than there
are different used names. -/
theorem exists_first_unused (used : List String) (name : String) :
    ∃ i ≤ used.toFinset.card,
      candidate name (i + 1) ∉ used ∧ ∀ j < i, candidate name (j + 1) ∈ used := by
  have hexists : ∃ i, candidate name (i + 1) ∉ used := by
    by_contra hnone
    push Not at hnone
    have hle := le_card_of_used (n := used.toFinset.card + 1) fun i _ => hnone i
    omega
  have hbefore : ∀ j < Nat.find hexists, candidate name (j + 1) ∈ used := by
    intro j hj
    simpa using Nat.find_min hexists hj
  exact ⟨Nat.find hexists, le_card_of_used hbefore, Nat.find_spec hexists, hbefore⟩

/-- A search that goes past the first unused candidate finds it. -/
theorem find?_candidates {used : List String} {name : String} {i n : Nat} (hi : i < n)
    (hunused : candidate name (i + 1) ∉ used) (hused : ∀ j < i, candidate name (j + 1) ∈ used) :
    ((List.range n).map fun j => candidate name (j + 1)).find? (fun x => !used.contains x) =
      some (candidate name (i + 1)) := by
  have hfound : (List.range n).find? ((fun x => !used.contains x) ∘ fun j => candidate name (j + 1)) =
      some i := by
    rw [List.find?_range_eq_some]
    refine ⟨by simpa using hunused, List.mem_range.mpr hi, fun j hj => ?_⟩
    simpa using hused j hj
  rw [List.find?_map, hfound]
  rfl

/-- The fresh name is the first candidate that is not used. -/
theorem freshNameAmong_spec (used : List String) (base : String) :
    ∃ i ≤ used.toFinset.card,
      freshNameAmong used base = candidate (baseName base) (i + 1) ∧
      candidate (baseName base) (i + 1) ∉ used ∧
      ∀ j < i, candidate (baseName base) (j + 1) ∈ used := by
  obtain ⟨i, hi, hunused, hused⟩ := exists_first_unused used (baseName base)
  have hlt : i < used.length + 1 := by
    have hle := List.toFinset_card_le used
    omega
  refine ⟨i, hi, ?_, hunused, hused⟩
  rw [freshNameAmong, find?_candidates hlt hunused hused]
  rfl

/-- No identifier of a module uses its fresh name. -/
theorem freshName_notMem (m : Module) (base : String) : freshName m base ∉ m.identifiers := by
  obtain ⟨i, _, hname, hunused, _⟩ := freshNameAmong_spec m.identifiers base
  rw [freshName, hname]
  exact hunused

/-- A candidate begins with an underscore, whatever it was made from. -/
theorem front_candidate (name : String) (i : Nat) :
    (candidate name i).toList.head? = some '_' := by
  unfold candidate
  split <;> simp

/-- A fresh name begins with an underscore. -/
theorem front_freshName (m : Module) (base : String) :
    (freshName m base).toList.head? = some '_' := by
  obtain ⟨i, _, hname, _, _⟩ := freshNameAmong_spec m.identifiers base
  rw [freshName, hname]
  exact front_candidate (baseName base) (i + 1)

end PropCatalog.Metadata
