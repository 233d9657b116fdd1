import PropCatalog.Proofs.NameSearch

/-!
# Families of names

A base stands for the family of candidates that are made from its normal form.  A candidate may itself
be taken for a base.  This file says that it then stands for its own family: normalising takes off
the underscore in front and the number behind, and nothing else (`baseName_decorated`).

That is so because a normal form neither begins with an underscore nor ends with a digit
(`isBaseName_baseName`).  The order of the two trims matters for this: digits are taken off last, and
what they leave behind cannot begin with an underscore, which was looked for first.
-/

namespace PropCatalog.Metadata

/-! ## Normal forms -/

/-- What the normal form of a base looks like. -/
structure IsBaseName (name : String) : Prop where
  nonempty : name ≠ ""
  chars : ∀ c ∈ name.toList, isNameChar c = true
  front : ∀ c, name.toList.head? = some c → c ≠ '_'
  last : ∀ c, name.toList.getLast? = some c → c.isDigit = false

/-- What stands first behind the characters that were dropped is not one of them. -/
theorem head?_dropWhile_eq_false {p : Char → Bool} {cs : List Char} {c : Char}
    (h : (cs.dropWhile p).head? = some c) : p c = false := by
  have hnot := List.head?_dropWhile_not p cs
  rw [h] at hnot
  simpa using hnot

theorem isBaseName_baseName (base : String) : IsBaseName (baseName base) := by
  refine ⟨baseName_ne_empty base, fun c => isNameChar_of_mem_baseName, ?_, ?_⟩
  · intro c hc
    unfold baseName at hc
    dsimp only at hc
    split at hc
    · obtain rfl : 'r' = c := Option.some.inj hc
      decide
    · -- The trimmed text begins what was left behind the underscores.
      rw [String.toList_ofList] at hc
      have hprefix : ((((base.toList.filter isNameChar).dropWhile (· = '_')).reverse.dropWhile
          Char.isDigit).reverse) <+: (base.toList.filter isNameChar).dropWhile (· = '_') := by
        rw [← List.reverse_suffix, List.reverse_reverse]
        exact List.dropWhile_suffix _
      obtain ⟨rest, hrest⟩ := hprefix
      have hfirst : ((base.toList.filter isNameChar).dropWhile (· = '_')).head? = some c := by
        rw [← hrest, List.head?_append, hc, Option.some_or]
      simpa using head?_dropWhile_eq_false hfirst
  · intro c hc
    unfold baseName at hc
    dsimp only at hc
    split at hc
    · obtain rfl : 'f' = c := Option.some.inj hc
      decide
    · rw [String.toList_ofList, List.getLast?_reverse] at hc
      exact head?_dropWhile_eq_false hc

example : ["_1_2", "__9", "a-1_", "lib42"].map baseName = ["1_", "ref", "a1_", "lib"] := by decide

/-- Normalising takes off underscores in front of a normal form and digits behind it. -/
theorem baseName_decorated (front : String) {name : String} (hname : IsBaseName name)
    (digits : String) (hfront : ∀ c ∈ front.toList, c = '_')
    (hdigits : ∀ c ∈ digits.toList, c.isDigit = true) :
    baseName (front ++ name ++ digits) = name := by
  obtain ⟨first, rest, hfirst⟩ : ∃ first rest, name.toList = first :: rest :=
    List.exists_cons_of_ne_nil fun hnil => hname.nonempty (String.toList_eq_nil_iff.mp hnil)
  obtain ⟨last, before, hlast⟩ : ∃ last before, name.toList.reverse = last :: before :=
    List.exists_cons_of_ne_nil (by simp [hfirst])
  have hnotFront : first ≠ '_' := hname.front first (by rw [hfirst]; rfl)
  have hnotDigit : last.isDigit = false := by
    refine hname.last last ?_
    rw [← List.head?_reverse, hlast]
    rfl
  -- The three passes in turn: no character is dropped, then the underscores in front are, and then
  -- the digits behind.
  have hkept : (front ++ name ++ digits).toList.filter isNameChar =
      front.toList ++ (name.toList ++ digits.toList) := by
    rw [String.toList_append, String.toList_append, List.append_assoc, List.filter_eq_self]
    intro c hc
    rw [List.mem_append, List.mem_append] at hc
    rcases hc with hc | hc | hc
    · rw [hfront c hc]
      rfl
    · exact hname.chars c hc
    · simp [isNameChar, Char.isAlphanum, hdigits c hc]
  have hbehind : (front.toList ++ (name.toList ++ digits.toList)).dropWhile (· = '_') =
      name.toList ++ digits.toList := by
    rw [List.dropWhile_append_of_pos (by simpa using hfront), hfirst, List.cons_append,
      List.dropWhile_cons_of_neg (by simpa using hnotFront)]
  have htrimmed : (name.toList ++ digits.toList).reverse.dropWhile Char.isDigit =
      name.toList.reverse := by
    rw [List.reverse_append, List.dropWhile_append_of_pos (by simpa using hdigits), hlast,
      List.dropWhile_cons_of_neg (by simp [hnotDigit])]
  unfold baseName
  dsimp only
  rw [hkept, hbehind, htrimmed, List.reverse_reverse, hfirst, if_neg (by simp), ← hfirst,
    String.ofList_toList]

/-- A normal form is its own normal form. -/
theorem baseName_eq_self {name : String} (hname : IsBaseName name) : baseName name = name := by
  have hplain := baseName_decorated "" hname "" (by simp) (by simp)
  rwa [String.empty_append, String.append_empty] at hplain

/-! ## Candidates -/

/-- Normalising a candidate gives back what it was made from. -/
theorem baseName_candidate {name : String} (hname : IsBaseName name) (i : Nat) :
    baseName (candidate name i) = name := by
  have hunderscore : ∀ c ∈ "_".toList, c = '_' := by simp
  unfold candidate
  split
  · refine baseName_decorated "_" hname _ hunderscore ?_
    intro c hc
    rw [Nat.toString_eq_repr, Nat.toList_repr] at hc
    exact Nat.isDigit_of_mem_toDigits (by decide) (by decide) hc
  · have hplain := baseName_decorated "_" hname "" hunderscore (by simp)
    rwa [String.append_empty] at hplain

/-- Normalising a fresh name gives back the normal form of its base. -/
theorem baseName_freshName (m : Module) (base : String) :
    baseName (freshName m base) = baseName base := by
  obtain ⟨i, _, hname, _, _⟩ := freshNameAmong_spec m.identifiers base
  rw [freshName, hname]
  exact baseName_candidate (isBaseName_baseName base) (i + 1)

/-- The fresh name depends on the normal form of the base alone. -/
theorem freshName_congr (m : Module) {base other : String} (h : baseName base = baseName other) :
    freshName m base = freshName m other := by
  unfold freshName freshNameAmong
  rw [h]

/-- The candidates of a base are a family of their own.  Each has the normal form of the base, which
is its own normal form; bases with different normal forms share no candidate, so that they give no
module the name that the other gives some module; and a fresh name can take the place of the base that
it was made from. -/
theorem freshName_family (base : String) :
    (∀ i, baseName (candidate (baseName base) i) = baseName base) ∧
    baseName (baseName base) = baseName base ∧
    (∀ other, baseName base ≠ baseName other →
      (∀ i j, candidate (baseName base) i ≠ candidate (baseName other) j) ∧
      ∀ m m' : Module, freshName m base ≠ freshName m' other) ∧
    ∀ m m₀ : Module, freshName m (freshName m₀ base) = freshName m base := by
  refine ⟨baseName_candidate (isBaseName_baseName base), baseName_eq_self (isBaseName_baseName base),
    fun other hne => ⟨fun i j heq => hne ?_, fun m m' heq => hne ?_⟩,
    fun m m₀ => freshName_congr m (baseName_freshName m₀ base)⟩
  · rw [← baseName_candidate (isBaseName_baseName base) i, heq,
      baseName_candidate (isBaseName_baseName other) j]
  · rw [← baseName_freshName m base, heq, baseName_freshName m' other]

end PropCatalog.Metadata
