import Mathlib.Data.List.Basic
import PropCatalog.Proofs.Retarget

/-!
# Validators marked as required

The expressions that retargeting turns into calls are the marked ones: an access to `isRequired` of a
call or of another access, with or without parentheses around it.  Retargeting neither makes nor loses
such a mark before it settles it (`isMarked_retargetPlace`).  So it can be followed from the top: a
marked validator becomes a call (`retarget_of_isMarked`), and everything else is retargeted as a place
(`retarget_of_not_isMarked`).
-/

namespace PropCatalog

namespace Metadata

open PropCatalog.Tree

/-! ## Marks -/

/-- Whether an expression is a validator marked as required. -/
def isMarked : Tree → Bool
  | .member _ validator (.node (.name p) _) =>
      decide (p = requiredField) && (validator.unparen.isCall || validator.unparen.isMember)
  | _ => false

theorem isMarked_iff {t : Tree} :
    isMarked t = true ↔ ∃ span validator parts,
      t = .member span validator (.node (.name requiredField) parts) ∧
        (validator.unparen.isCall = true ∨ validator.unparen.isMember = true) := by
  constructor
  · intro h
    unfold isMarked at h
    split at h
    · next span validator p parts =>
      rw [Bool.and_eq_true, decide_eq_true_eq, Bool.or_eq_true] at h
      obtain ⟨rfl, hvalidator⟩ := h
      exact ⟨span, validator, parts, rfl, hvalidator⟩
    · simp at h
  · rintro ⟨span, validator, parts, rfl, hvalidator⟩
    simpa [isMarked] using hvalidator

theorem isMarked_node {f : Form} {parts : List Tree}
    (h : f = .known .memberExpression → parts.length ≠ 3) : isMarked (.node f parts) = false := by
  unfold isMarked
  split <;> simp_all

variable (aliasName library : String)

theorem settle_of_isMarked {span validator property : Tree}
    (h : isMarked (.member span validator property) = true) :
    settle library (.member span validator property) = requiredCall library validator.unparen := by
  obtain ⟨span', validator', parts, heq, hvalidator⟩ := isMarked_iff.mp h
  obtain ⟨rfl, rfl, rfl⟩ : span = span' ∧ validator = validator' ∧ property = _ := by
    simpa using heq
  exact if_pos ⟨rfl, hvalidator⟩

theorem settle_of_not_isMarked {t : Tree} (h : isMarked t = false) : settle library t = t := by
  unfold settle
  split
  · next span validator p parts =>
    refine if_neg fun hp => ?_
    rw [isMarked_iff.mpr ⟨span, validator, parts, by rw [hp.1], hp.2⟩] at h
    cases h
  · rfl

/-- Settling leaves an expression as it is, or makes a call of a member access. -/
theorem settle_cases (t : Tree) :
    settle library t = t ∨
      t.isMember = true ∧ ∃ validator, settle library t = requiredCall library validator := by
  cases h : isMarked t with
  | false => exact Or.inl (settle_of_not_isMarked library h)
  | true =>
    obtain ⟨span, validator, parts, rfl, -⟩ := isMarked_iff.mp h
    exact Or.inr ⟨rfl, _, settle_of_isMarked library h⟩

theorem getElem?_settleParts (f : Form) (parts : List Tree) (position : Nat) :
    (settleParts library f (parts.map (retargetPlace aliasName library)))[position]? =
      parts[position]?.map fun t => if isPlace f position then retargetPlace aliasName library t
        else retarget aliasName library t := by
  simp [settleParts, retarget, Function.comp_def]

/-! ## What retargeting keeps of an expression -/

theorem retarget_parenthesis (span e : Tree) :
    retarget aliasName library (.parenthesis span e) =
      .parenthesis (retarget aliasName library span) (retarget aliasName library e) :=
  retarget_node aliasName library (by decide) (by decide) _

/-- Retargeting makes no name. -/
theorem eq_name_of_retarget {t : Tree} {x : String} {parts : List Tree}
    (h : retarget aliasName library t = .node (.name x) parts) :
    ∃ parts', t = .node (.name x) parts' := by
  rcases settle_cases library (retargetPlace aliasName library t) with heq | ⟨-, validator, heq⟩
  · cases t with
    | leaf a => cases h
    | node f parts' =>
      have hplace := heq.symm.trans h
      rw [retargetPlace_node] at hplace
      cases f <;> simp_all [Form.rename]
  · cases heq.symm.trans h

theorem retargetPlace_ne_parenthesis {t : Tree} (ht : ∀ s e, t ≠ .parenthesis s e) (s e : Tree) :
    retargetPlace aliasName library t ≠ .parenthesis s e := by
  intro h
  cases t with
  | leaf a => cases h
  | node f parts =>
    rw [retargetPlace_node] at h
    obtain ⟨hform, hparts⟩ := Tree.node.inj h
    have hlength : parts.length = 2 := by
      simpa [settleParts] using congrArg List.length hparts
    obtain ⟨span, inner, rfl⟩ := List.length_eq_two.mp hlength
    cases f <;> simp_all [Form.rename]

/-- Retargeting makes no parentheses. -/
theorem retarget_ne_parenthesis {t : Tree} (ht : ∀ s e, t ≠ .parenthesis s e) (s e : Tree) :
    retarget aliasName library t ≠ .parenthesis s e := by
  intro h
  rcases settle_cases library (retargetPlace aliasName library t) with heq | ⟨-, validator, heq⟩
  · exact retargetPlace_ne_parenthesis aliasName library ht s e (heq.symm.trans h)
  · cases heq.symm.trans h

theorem isCall_node (f : Form) (parts : List Tree) :
    (Tree.node f parts).isCall = decide (f = .known .callExpression) := by
  unfold isCall
  split <;> simp_all

theorem isMember_node (f : Form) (parts : List Tree) :
    (Tree.node f parts).isMember = decide (f = .known .memberExpression) := by
  unfold isMember
  split <;> simp_all

/-- Apart from parentheses, a call or a member access stays one of the two. -/
theorem isAccess_retarget (t : Tree) :
    ((retarget aliasName library t).unparen.isCall || (retarget aliasName library t).unparen.isMember)
      = (t.unparen.isCall || t.unparen.isMember) := by
  induction t using unparen_induction with
  | parenthesis s e ih => rw [retarget_parenthesis, unparen_parenthesis, unparen_parenthesis, ih]
  | bare t ht =>
    rw [unparen_eq_self ht, unparen_eq_self (retarget_ne_parenthesis aliasName library ht)]
    cases t with
    | leaf a => rfl
    | node f parts =>
      have hmember : (retargetPlace aliasName library (.node f parts)).isMember
          = (Tree.node f parts).isMember := by
        rw [retargetPlace_node, isMember_node, isMember_node]
        simp only [rename_eq_known]
      rcases settle_cases library (retargetPlace aliasName library (.node f parts)) with
        heq | ⟨hplace, validator, heq⟩
      · rw [retarget, heq, hmember, retargetPlace_node, isCall_node, isCall_node]
        simp only [rename_eq_known]
      · rw [retarget, heq, ← hmember, hplace, Bool.or_true]
        rfl

theorem isMarked_retargetPlace (t : Tree) :
    isMarked (retargetPlace aliasName library t) = isMarked t := by
  rw [Bool.eq_iff_iff, isMarked_iff, isMarked_iff]
  constructor
  · rintro ⟨span, validator, parts, heq, hvalidator⟩
    cases t with
    | leaf a => cases heq
    | node f olds =>
      -- Only an access becomes one, and only a name becomes a name.
      have hf : f = .known .memberExpression :=
        (rename_eq_known aliasName library).mp
          (Tree.node.inj ((retargetPlace_node _ _ _ _).symm.trans heq)).1
      subst hf
      rw [retargetPlace_node_eq aliasName library (by decide)] at heq
      obtain ⟨s, olds₁, rfl, -, h₁⟩ := List.map_eq_cons_iff.mp (Tree.node.inj heq).2
      obtain ⟨v, olds₂, rfl, rfl, h₂⟩ := List.map_eq_cons_iff.mp h₁
      obtain ⟨p, olds₃, rfl, hp, h₃⟩ := List.map_eq_cons_iff.mp h₂
      obtain rfl := List.map_eq_nil_iff.mp h₃
      obtain ⟨names, rfl⟩ := eq_name_of_retarget aliasName library hp
      refine ⟨s, v, names, rfl, ?_⟩
      rwa [← Bool.or_eq_true, isAccess_retarget, Bool.or_eq_true] at hvalidator
  · rintro ⟨span, validator, parts, rfl, hvalidator⟩
    refine ⟨retarget aliasName library span, retarget aliasName library validator,
      parts.map (retarget aliasName library), ?_, ?_⟩
    · rw [retargetPlace_node_eq aliasName library (by decide), ← retarget_name]
      rfl
    · rwa [← Bool.or_eq_true, isAccess_retarget, Bool.or_eq_true]

/-- What is not marked is only retargeted as a place. -/
theorem retarget_of_not_isMarked {t : Tree} (h : isMarked t = false) :
    retarget aliasName library t = retargetPlace aliasName library t :=
  settle_of_not_isMarked library ((isMarked_retargetPlace aliasName library t).trans h)

/-- What is marked becomes a call. -/
theorem retarget_of_isMarked {span validator property : Tree}
    (h : isMarked (.member span validator property) = true) :
    retarget aliasName library (.member span validator property) =
      requiredCall library (retarget aliasName library validator).unparen := by
  rw [← isMarked_retargetPlace aliasName library,
    retargetPlace_node_eq aliasName library (by decide)] at h
  rw [retarget_member]
  exact settle_of_isMarked library h

end Metadata

namespace Source

/-- A tree without parentheses. -/
def unwrap : Tree → Tree :=
  Tree.fold .leaf fun f parts =>
    match f, parts with
    | .known .parenthesisExpression, [_, e] => e
    | f, parts => .node f parts

end Source

end PropCatalog
