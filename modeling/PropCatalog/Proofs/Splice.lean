import Mathlib.Data.List.Basic
import Mathlib.Data.List.TakeDrop
import Mathlib.Data.List.TakeWhile
import Mathlib.Order.Monotone.Basic
import PropCatalog.Metadata.Splice

/-!
# Where spliced statements stand

`splice` sorts the insertions and then walks the body once, taking pending statements from the
front.  Here the result is given item by item and without sorting: after the item at a position
come the statements anchored to it, in the order in which they were given (`splice_eq_flatMap`).
Sorting does not disturb that order because it is stable (`statementsAt_sortByAnchor`).

If no insertion is anchored inside the directive prologue, the prologue is followed by the library
and every later item by its statements (`splice_eq_append`).  If every anchor is in the body,
nothing is lost (`splice_perm`), and an insertion anchored past its end makes no difference
(`splice_filter_anchor`).
-/

namespace PropCatalog.Metadata

/-- The statements anchored to a position, in the order in which they were given. -/
def statementsAt (insertions : List Insertion) (position : Nat) : List Tree :=
  (insertions.filter fun i => i.anchor = position).map Insertion.statement

/-- What stands in the new body for an item with its position. -/
def placed (library : Tree) (prologue : Nat) (insertions : List Insertion)
    (item : Tree × Nat) : List Tree :=
  item.1 :: (if item.2 + 1 = prologue then [library] else []) ++ statementsAt insertions item.2

/-! ## Sorting -/

/-- The order in which insertions are sorted. -/
def anchorLe (i j : Insertion) : Bool := i.anchor ≤ j.anchor

theorem anchorLe_iff {i j : Insertion} : anchorLe i j = true ↔ i.anchor ≤ j.anchor :=
  decide_eq_true_iff

theorem anchorLe_trans (i j k : Insertion) (hij : anchorLe i j = true)
    (hjk : anchorLe j k = true) : anchorLe i k = true :=
  anchorLe_iff.mpr (Nat.le_trans (anchorLe_iff.mp hij) (anchorLe_iff.mp hjk))

theorem anchorLe_total (i j : Insertion) : (anchorLe i j || anchorLe j i) = true := by
  rw [Bool.or_eq_true, anchorLe_iff, anchorLe_iff]
  exact Nat.le_total i.anchor j.anchor

/-- Insertions in ascending order of their anchors. -/
def sortByAnchor (insertions : List Insertion) : List Insertion := insertions.mergeSort anchorLe

theorem pairwise_sortByAnchor (insertions : List Insertion) :
    (sortByAnchor insertions).Pairwise fun i j => i.anchor ≤ j.anchor :=
  (List.pairwise_mergeSort anchorLe_trans anchorLe_total insertions).imp anchorLe_iff.mp

theorem sortByAnchor_perm (insertions : List Insertion) :
    (sortByAnchor insertions).Perm insertions :=
  List.mergeSort_perm insertions anchorLe

/-- Sorting keeps the order of insertions with one anchor. -/
theorem statementsAt_sortByAnchor (insertions : List Insertion) (position : Nat) :
    statementsAt (sortByAnchor insertions) position = statementsAt insertions position := by
  let here : List Insertion := insertions.filter fun i => i.anchor = position
  have hsame : here.Pairwise fun i j => anchorLe i j = true := by
    apply List.pairwise_of_forall_mem_list
    intro i hi j hj
    have hi' : i.anchor = position := by simpa using (List.mem_filter.mp hi).2
    have hj' : j.anchor = position := by simpa using (List.mem_filter.mp hj).2
    exact anchorLe_iff.mpr (Nat.le_of_eq (hi'.trans hj'.symm))
  -- Sorting is stable, so the insertions here come out in their order, and none can be added.
  have hsub : here.Sublist (sortByAnchor insertions) :=
    List.sublist_mergeSort anchorLe_trans anchorLe_total hsame List.filter_sublist
  have hfilter : here.Sublist ((sortByAnchor insertions).filter fun i => i.anchor = position) := by
    have hmono := hsub.filter fun i => decide (i.anchor = position)
    rwa [List.filter_eq_self.mpr fun i hi => (List.mem_filter.mp hi).2] at hmono
  have hlength : here.length =
      ((sortByAnchor insertions).filter fun i => i.anchor = position).length :=
    ((sortByAnchor_perm insertions).filter _).length_eq.symm
  unfold statementsAt
  rw [← hfilter.eq_of_length hlength]

/-! ## The walk through the body -/

/-- At a position the pending statements anchored there stand in front. -/
theorem span_pending {pending : List Insertion} {position : Nat}
    (hsorted : pending.Pairwise fun i j => i.anchor ≤ j.anchor)
    (hfrom : ∀ i ∈ pending, position ≤ i.anchor) :
    pending.span (fun i => i.anchor = position) =
      (pending.filter fun i => i.anchor = position,
        pending.filter fun i => i.anchor ≠ position) := by
  rw [List.span_eq_takeWhile_dropWhile]
  induction pending with
  | nil => rfl
  | cons i pending ih =>
    obtain ⟨hhead, htail⟩ := List.pairwise_cons.mp hsorted
    obtain ⟨hi, hrest⟩ := List.forall_mem_cons.mp hfrom
    by_cases hanchor : i.anchor = position
    · have hspan := ih htail hrest
      rw [Prod.mk.injEq] at hspan ⊢
      simp [hanchor, hspan.1, hspan.2]
    · -- Past the position nothing can be anchored to it, since anchors ascend.
      have hnone : ∀ j ∈ pending, j.anchor ≠ position := by
        intro j hj heq
        have := hhead j hj
        omega
      have hempty : pending.filter (fun j => j.anchor = position) = [] := by
        rw [List.filter_eq_nil_iff]
        intro j hj
        simpa using hnone j hj
      have hall : pending.filter (fun j => j.anchor ≠ position) = pending := by
        rw [List.filter_eq_self]
        intro j hj
        simpa using hnone j hj
      rw [List.takeWhile_cons_of_neg (by simpa using hanchor),
        List.dropWhile_cons_of_neg (by simpa using hanchor),
        List.filter_cons_of_neg (by simpa using hanchor),
        List.filter_cons_of_pos (by simpa using hanchor), hempty, hall]

/-- What is pending after a position is anchored past it. -/
theorem lt_anchor_of_mem_filter_ne {pending : List Insertion} {position : Nat}
    (hfrom : ∀ i ∈ pending, position ≤ i.anchor) :
    ∀ i ∈ pending.filter (fun i => i.anchor ≠ position), position + 1 ≤ i.anchor := by
  intro i hi
  obtain ⟨hmem, hne⟩ := List.mem_filter.mp hi
  have hle := hfrom i hmem
  rw [decide_eq_true_eq] at hne
  omega

/-- What is pending after a position has lost nothing anchored to other positions. -/
theorem statementsAt_filter_ne {pending : List Insertion} {position other : Nat}
    (hne : other ≠ position) :
    statementsAt (pending.filter fun i => i.anchor ≠ position) other =
      statementsAt pending other := by
  unfold statementsAt
  rw [List.filter_filter]
  congr 1
  apply List.filter_congr
  intro i _
  by_cases hother : i.anchor = other
  · simp [hother, hne]
  · simp [hother]

/-- The walk places every item with the pending statements anchored to it. -/
theorem weave_eq_flatMap (library : Tree) (prologue position : Nat) (items : List Tree)
    {pending : List Insertion} (hsorted : pending.Pairwise fun i j => i.anchor ≤ j.anchor)
    (hfrom : ∀ i ∈ pending, position ≤ i.anchor) :
    weave library prologue position items pending =
      (items.zipIdx position).flatMap (placed library prologue pending) := by
  induction items generalizing position pending with
  | nil => rfl
  | cons item items ih =>
    rw [weave, span_pending hsorted hfrom, List.zipIdx_cons, List.flatMap_cons]
    -- The statements that were just placed are anchored before every item that is left.
    have hcongr : (items.zipIdx (position + 1)).flatMap
          (placed library prologue (pending.filter fun i => i.anchor ≠ position)) =
        (items.zipIdx (position + 1)).flatMap (placed library prologue pending) := by
      rw [List.flatMap_def, List.flatMap_def]
      congr 1
      apply List.map_congr_left
      intro x hx
      have hposition := List.le_snd_of_mem_zipIdx hx
      unfold placed
      rw [statementsAt_filter_ne (by omega)]
    simp only
    rw [ih (position + 1) (hsorted.sublist List.filter_sublist)
      (lt_anchor_of_mem_filter_ne hfrom), hcongr]
    rfl

/-- The spliced body, item by item. -/
theorem splice_eq_flatMap (body : List Tree) (library : Tree) (insertions : List Insertion) :
    splice body library insertions =
      (if prologueLength body = 0 then [library] else []) ++
        body.zipIdx.flatMap (placed library (prologueLength body) insertions) := by
  have hplaced : placed library (prologueLength body) (sortByAnchor insertions) =
      placed library (prologueLength body) insertions := by
    funext item
    unfold placed
    rw [statementsAt_sortByAnchor]
  rw [← hplaced, ← weave_eq_flatMap library (prologueLength body) 0 body
    (pairwise_sortByAnchor insertions) (fun i _ => Nat.zero_le i.anchor)]
  rfl

/-! ## The prologue -/

/-- The last directive of the prologue stands at a position: up to there all items are directives, and
the next one, if there is one, is not. -/
def IsPrologueEnd (body : List Tree) (position : Nat) : Prop :=
  (∀ j ≤ position, body[j]?.any isDirective = true) ∧ body[position + 1]?.any isDirective = false

instance (body : List Tree) (position : Nat) : Decidable (IsPrologueEnd body position) :=
  inferInstanceAs (Decidable (_ ∧ _))

/-- A position is in the prologue if there are only directives up to it. -/
theorem lt_prologueLength_iff (body : List Tree) (position : Nat) :
    position < prologueLength body ↔ ∀ j ≤ position, body[j]?.any isDirective = true := by
  induction body generalizing position with
  | nil =>
    refine ⟨fun h => absurd h (Nat.not_lt_zero position), fun h => ?_⟩
    simpa using h 0 (Nat.zero_le position)
  | cons item body ih =>
    cases hitem : isDirective item with
    | false =>
      have hlength : prologueLength (item :: body) = 0 := by
        simp [prologueLength, hitem]
      rw [hlength]
      refine ⟨fun h => absurd h (Nat.not_lt_zero position), fun h => ?_⟩
      have hfirst := h 0 (Nat.zero_le position)
      simp [hitem] at hfirst
    | true =>
      have hlength : prologueLength (item :: body) = prologueLength body + 1 := by
        simp [prologueLength, hitem]
      rw [hlength]
      cases position with
      | zero =>
        refine ⟨fun _ j hj => ?_, fun _ => Nat.succ_pos _⟩
        obtain rfl := Nat.le_zero.mp hj
        simpa using hitem
      | succ position =>
        rw [Nat.add_lt_add_iff_right, ih]
        constructor
        · intro h j hj
          cases j with
          | zero => simpa using hitem
          | succ j => exact h j (Nat.le_of_succ_le_succ hj)
        · intro h j hj
          exact h (j + 1) (Nat.succ_le_succ hj)

/-- An item that is no directive stands behind the prologue. -/
theorem prologueLength_le_of_not_isDirective {body : List Tree} {position : Nat} {item : Tree}
    (hitem : body[position]? = some item) (hnot : isDirective item = false) :
    prologueLength body ≤ position := by
  rw [← Nat.not_lt, lt_prologueLength_iff]
  intro hdirectives
  have hdirective := hdirectives position (Nat.le_refl position)
  rw [hitem, Option.any_some, hnot] at hdirective
  cases hdirective

theorem isPrologueEnd_iff {body : List Tree} {position : Nat} :
    IsPrologueEnd body position ↔ position + 1 = prologueLength body := by
  have hhere := lt_prologueLength_iff body position
  have hnext := lt_prologueLength_iff body (position + 1)
  unfold IsPrologueEnd
  rw [← hhere, ← Bool.not_eq_true]
  constructor
  · rintro ⟨hlt, hend⟩
    have hnot : ¬ position + 1 < prologueLength body := by
      intro hlt'
      exact hend (hnext.mp hlt' (position + 1) (Nat.le_refl _))
    omega
  · intro heq
    refine ⟨by omega, fun hdirective => ?_⟩
    have hlt : position + 1 < prologueLength body := by
      rw [hnext]
      intro j hj
      rcases Nat.le_succ_iff.mp hj with hj | rfl
      · exact hhere.mp (by omega) j hj
      · exact hdirective
    omega

theorem prologueLength_eq_zero_iff {body : List Tree} :
    prologueLength body = 0 ↔ body.head?.any isDirective = false := by
  have hfirst := lt_prologueLength_iff body 0
  simp only [Nat.le_zero, forall_eq] at hfirst
  rw [List.head?_eq_getElem?, ← Bool.not_eq_true, ← hfirst]
  omega

/-- A non-empty prologue to which nothing is anchored is followed by the library. -/
theorem flatMap_placed_prologue (library : Tree) {insertions : List Insertion}
    {directives : List Tree} {position prologue : Nat}
    (hlength : position + directives.length = prologue)
    (hanchors : ∀ i ∈ insertions, prologue ≤ i.anchor) :
    (directives.zipIdx position).flatMap (placed library prologue insertions) =
      directives ++ if directives = [] then [] else [library] := by
  induction directives generalizing position with
  | nil => rfl
  | cons directive directives ih =>
    have hnone : statementsAt insertions position = [] := by
      unfold statementsAt
      rw [List.map_eq_nil_iff, List.filter_eq_nil_iff]
      intro i hi
      have hle := hanchors i hi
      rw [List.length_cons] at hlength
      rw [decide_eq_true_eq]
      omega
    rw [List.length_cons] at hlength
    rw [List.zipIdx_cons, List.flatMap_cons, ih (by omega), placed, hnone]
    cases directives with
    | nil =>
      have hlast : position + 1 = prologue := by simpa using hlength
      simp [hlast]
    | cons next rest =>
      have hearly : position + 1 ≠ prologue := by
        rw [List.length_cons] at hlength
        omega
      simp [hearly]

/-- Past the prologue the library does not occur again. -/
theorem flatMap_placed_rest (library : Tree) (insertions : List Insertion) (items : List Tree)
    {position prologue : Nat} (hposition : prologue ≤ position) :
    (items.zipIdx position).flatMap (placed library prologue insertions) =
      (items.zipIdx position).flatMap fun item => item.1 :: statementsAt insertions item.2 := by
  rw [List.flatMap_def, List.flatMap_def]
  congr 1
  apply List.map_congr_left
  intro item hitem
  have hle := List.le_snd_of_mem_zipIdx hitem
  have hne : item.2 + 1 ≠ prologue := by omega
  simp [placed, hne]

/-- Without insertions in the prologue, the body is the prologue, the library, and every later item
followed by the statements anchored to it. -/
theorem splice_eq_append (body : List Tree) (library : Tree) {insertions : List Insertion}
    (hanchors : ∀ i ∈ insertions, prologueLength body ≤ i.anchor) :
    splice body library insertions =
      body.takeWhile isDirective ++ library ::
        ((body.dropWhile isDirective).zipIdx (prologueLength body)).flatMap
          fun item => item.1 :: statementsAt insertions item.2 := by
  have hsplit : body.zipIdx = (body.takeWhile isDirective).zipIdx ++
      (body.dropWhile isDirective).zipIdx (prologueLength body) := by
    conv => lhs; rw [← List.takeWhile_append_dropWhile (p := isDirective) (l := body)]
    rw [List.zipIdx_append, Nat.zero_add]
    rfl
  have hlength : 0 + (body.takeWhile isDirective).length = prologueLength body :=
    Nat.zero_add _
  rw [splice_eq_flatMap, hsplit, List.flatMap_append,
    flatMap_placed_prologue library hlength hanchors,
    flatMap_placed_rest library insertions _ (Nat.le_refl _)]
  by_cases hempty : body.takeWhile isDirective = []
  · simp [prologueLength, hempty]
  · simp [prologueLength, hempty]

/-! ## Nothing is lost -/

/-- The walk gives every item and every pending statement once, and the library if the end of the
prologue lies in its way. -/
theorem weave_perm (library : Tree) (prologue position : Nat) (items : List Tree)
    {pending : List Insertion} (hsorted : pending.Pairwise fun i j => i.anchor ≤ j.anchor)
    (hfrom : ∀ i ∈ pending, position ≤ i.anchor)
    (hto : ∀ i ∈ pending, i.anchor < position + items.length) :
    (weave library prologue position items pending).Perm
      (items ++ ((if position < prologue ∧ prologue ≤ position + items.length
        then [library] else []) ++ pending.map Insertion.statement)) := by
  induction items generalizing position pending with
  | nil =>
    have hnil : pending = [] := by
      rw [List.eq_nil_iff_forall_not_mem]
      intro i hi
      have hle := hfrom i hi
      have hlt := hto i hi
      simp at hlt
      omega
    have hout : ¬ (position < prologue ∧ prologue ≤ position + ([] : List Tree).length) := by
      simp
    rw [if_neg hout, hnil]
    exact List.Perm.refl _
  | cons item items ih =>
    let here := pending.filter fun i => i.anchor = position
    let later := pending.filter fun i => i.anchor ≠ position
    have hlaterTo : ∀ i ∈ later, i.anchor < position + 1 + items.length := by
      intro i hi
      have hlt := hto i (List.mem_filter.mp hi).1
      rw [List.length_cons] at hlt
      omega
    have hrest := ih (position + 1) (hsorted.sublist List.filter_sublist)
      (lt_anchor_of_mem_filter_ne hfrom) hlaterTo
    have hpending : (here.map Insertion.statement ++ later.map Insertion.statement).Perm
        (pending.map Insertion.statement) := by
      rw [← List.map_append]
      apply List.Perm.map
      simpa [here, later] using
        List.filter_append_perm (fun i => decide (i.anchor = position)) pending
    -- The library is placed here or later, never at both places.
    have hlibrary : (if position < prologue ∧ prologue ≤ position + (item :: items).length
          then [library] else []) =
        (if position + 1 = prologue then [library] else []) ++
          (if position + 1 < prologue ∧ prologue ≤ position + 1 + items.length
            then [library] else []) := by
      rw [List.length_cons]
      by_cases hhere : position + 1 = prologue
      · rw [if_pos hhere, if_pos (by omega), if_neg (by omega), List.append_nil]
      · rw [if_neg hhere, List.nil_append]
        congr 1
        exact propext (by omega)
    -- The same trees stand in another order, so it is enough to count them.
    rw [weave, span_pending hsorted hfrom, hlibrary, List.perm_iff_count]
    intro t
    have hcountRest := hrest.count_eq t
    have hcountPending := hpending.count_eq t
    simp only [here, later, List.count_append, List.cons_append, List.count_cons]
      at hcountRest hcountPending ⊢
    omega

/-- If every anchor is in the body, splicing adds the library and the statements and loses
nothing. -/
theorem splice_perm (body : List Tree) (library : Tree) {insertions : List Insertion}
    (hto : ∀ i ∈ insertions, i.anchor < body.length) :
    (splice body library insertions).Perm
      (body ++ library :: insertions.map Insertion.statement) := by
  have hwithin : prologueLength body ≤ body.length := (List.takeWhile_sublist isDirective).length_le
  have hsortedTo : ∀ i ∈ sortByAnchor insertions, i.anchor < 0 + body.length := by
    intro i hi
    rw [Nat.zero_add]
    exact hto i ((sortByAnchor_perm insertions).mem_iff.mp hi)
  have hweave := weave_perm library (prologueLength body) 0 body
    (pairwise_sortByAnchor insertions) (fun i _ => Nat.zero_le i.anchor) hsortedTo
  have hstatements : ((sortByAnchor insertions).map Insertion.statement).Perm
      (insertions.map Insertion.statement) := (sortByAnchor_perm insertions).map _
  change ((if prologueLength body = 0 then [library] else []) ++
    weave library (prologueLength body) 0 body (sortByAnchor insertions)).Perm _
  rw [List.perm_iff_count]
  intro t
  have hcountWeave := hweave.count_eq t
  have hcountStatements := hstatements.count_eq t
  -- Without a prologue the library stands in front, and the walk does not place it.
  by_cases hempty : prologueLength body = 0
  · rw [if_neg (by omega)] at hcountWeave
    rw [if_pos hempty]
    simp only [List.count_append, List.count_cons, List.count_nil] at hcountWeave ⊢
    omega
  · rw [if_pos (by omega)] at hcountWeave
    rw [if_neg hempty]
    simp only [List.count_append, List.count_cons, List.count_nil] at hcountWeave ⊢
    omega

/-- Insertions anchored past the end of the body make no difference. -/
theorem splice_filter_anchor (body : List Tree) (library : Tree) (insertions : List Insertion) :
    splice body library (insertions.filter fun i => i.anchor < body.length) =
      splice body library insertions := by
  rw [splice_eq_flatMap, splice_eq_flatMap]
  congr 1
  apply List.flatMap_congr
  intro item hitem
  have hlt : item.2 < body.length := List.snd_lt_of_mem_zipIdx hitem
  unfold placed statementsAt
  rw [List.filter_filter]
  congr 2
  apply List.filter_congr
  intro i _
  by_cases hanchor : i.anchor = item.2
  · simp [hanchor, hlt]
  · simp [hanchor]

/-- The spliced body is the body with, after each item, the library if the item is the last directive
of the prologue, and then all statements anchored to it in the order in which they were given; the
library stands in front if there is no directive to stand after.  Statements anchored past the end of
the body have no influence, and nothing else is lost. -/
theorem splice_eq_interleaved (body : List Tree) (library : Tree) (insertions : List Insertion) :
    splice body library insertions =
      (if body.head?.any isDirective then [] else [library]) ++
        body.zipIdx.flatMap (fun item =>
          item.1 :: (if IsPrologueEnd body item.2 then [library] else []) ++
            (insertions.filter fun i => i.anchor = item.2).map Insertion.statement) ∧
    splice body library insertions =
      splice body library (insertions.filter fun i => i.anchor < body.length) ∧
    (splice body library insertions).Perm
      (body ++ library ::
        (insertions.filter fun i => i.anchor < body.length).map Insertion.statement) := by
  refine ⟨?_, (splice_filter_anchor body library insertions).symm, ?_⟩
  · rw [splice_eq_flatMap]
    simp only [isPrologueEnd_iff, prologueLength_eq_zero_iff]
    cases body.head?.any isDirective <;> rfl
  · rw [← splice_filter_anchor]
    apply splice_perm
    intro i hi
    simpa using (List.mem_filter.mp hi).2

/-! ## New positions -/

/-- The position in the spliced body of an item after the prologue. -/
def shifted (insertions : List Insertion) (position : Nat) : Nat :=
  position + 1 + insertions.countP fun i => i.anchor < position

/-- Insertions anchored in a stretch of positions are anchored to the first or to a later one. -/
theorem countP_anchor_succ (insertions : List Insertion) (position length : Nat) :
    (insertions.countP fun i => position ≤ i.anchor ∧ i.anchor < position + (length + 1)) =
      (insertions.countP fun i => i.anchor = position) +
        insertions.countP fun i =>
          position + 1 ≤ i.anchor ∧ i.anchor < position + 1 + length := by
  induction insertions with
  | nil => rfl
  | cons i insertions ih =>
    simp only [List.countP_cons, decide_eq_true_eq, ih]
    split_ifs <;> omega

theorem length_statementsAt (insertions : List Insertion) (position : Nat) :
    (statementsAt insertions position).length =
      insertions.countP fun i => i.anchor = position := by
  rw [statementsAt, List.length_map, List.countP_eq_length_filter]

/-- The next item stands one place further, and behind the statements of this one. -/
theorem shifted_succ (insertions : List Insertion) (position : Nat) :
    shifted insertions (position + 1) =
      shifted insertions position + 1 + (statementsAt insertions position).length := by
  have hcount : (insertions.countP fun i => i.anchor < position + 1) =
      (insertions.countP fun i => i.anchor < position) +
        insertions.countP fun i => i.anchor = position := by
    induction insertions with
    | nil => rfl
    | cons i insertions ih =>
      simp only [List.countP_cons, decide_eq_true_eq, ih]
      split_ifs <;> omega
  rw [length_statementsAt, shifted, shifted, hcount]
  omega

/-- Items keep their order. -/
theorem shifted_strictMono (insertions : List Insertion) : StrictMono (shifted insertions) := by
  apply strictMono_nat_of_lt_succ
  intro position
  rw [shifted_succ]
  omega

/-- No insertion is anchored to a directive, so only the library stands before the rest. -/
theorem shifted_prologueLength {body : List Tree} {insertions : List Insertion}
    (hanchors : ∀ i ∈ insertions, prologueLength body ≤ i.anchor) :
    shifted insertions (prologueLength body) = prologueLength body + 1 := by
  have hnone : (insertions.countP fun i => i.anchor < prologueLength body) = 0 := by
    rw [List.countP_eq_zero]
    intro i hi
    simpa using hanchors i hi
  rw [shifted, hnone]

/-- What stands in a spliced stretch was inserted, or is an item at its shifted position. -/
theorem getElem?_flatMap_statementsAt {insertions : List Insertion} {items : List Tree}
    {position offset : Nat} {found : Tree}
    (h : ((items.zipIdx position).flatMap fun item =>
      item.1 :: statementsAt insertions item.2)[offset]? = some found) :
    (∃ i ∈ insertions, i.statement = found) ∨
      ∃ index, items[index]? = some found ∧
        shifted insertions position + offset = shifted insertions (position + index) := by
  induction items generalizing position offset with
  | nil => cases h
  | cons item items ih =>
    rw [List.zipIdx_cons, List.flatMap_cons, List.cons_append] at h
    cases offset with
    | zero => exact Or.inr ⟨0, h, rfl⟩
    | succ offset =>
      rw [List.getElem?_cons_succ] at h
      by_cases hhere : offset < (statementsAt insertions position).length
      · rw [List.getElem?_append_left hhere] at h
        obtain ⟨i, hi, heq⟩ := List.mem_map.mp (List.mem_of_getElem? h)
        exact Or.inl ⟨i, (List.mem_filter.mp hi).1, heq⟩
      · -- Behind the statements of this item, the stretch goes on with the next one.
        rw [List.getElem?_append_right (Nat.not_lt.mp hhere)] at h
        rcases ih h with hinserted | ⟨index, hindex, hshifted⟩
        · exact Or.inl hinserted
        · refine Or.inr ⟨index + 1, hindex, ?_⟩
          rw [shifted_succ] at hshifted
          rw [Nat.add_comm index 1, ← Nat.add_assoc position, ← hshifted]
          omega

theorem getElem?_dropWhile_isDirective (body : List Tree) (index : Nat) :
    (body.dropWhile isDirective)[index]? = body[prologueLength body + index]? := by
  have hsplit : body.takeWhile isDirective ++ body.dropWhile isDirective = body :=
    List.takeWhile_append_dropWhile
  calc (body.dropWhile isDirective)[index]?
      = (body.takeWhile isDirective ++ body.dropWhile isDirective)[
          (body.takeWhile isDirective).length + index]? := by
        rw [List.getElem?_append_right (Nat.le_add_right _ _), Nat.add_sub_cancel_left]
    _ = body[prologueLength body + index]? := by
        rw [hsplit, prologueLength]

/-- What stands in a spliced body is a directive, was inserted, or is an item at its shifted
position. -/
theorem getElem?_splice {body : List Tree} {library : Tree} {insertions : List Insertion}
    (hanchors : ∀ i ∈ insertions, prologueLength body ≤ i.anchor) {position : Nat} {found : Tree}
    (h : (splice body library insertions)[position]? = some found) :
    isDirective found = true ∨ found = library ∨ (∃ i ∈ insertions, i.statement = found) ∨
      ∃ old, body[old]? = some found ∧ position = shifted insertions old := by
  rw [splice_eq_append body library hanchors] at h
  by_cases hprologue : position < prologueLength body
  · rw [List.getElem?_append_left hprologue] at h
    exact Or.inl (List.mem_takeWhile_imp (List.mem_of_getElem? h))
  · rw [List.getElem?_append_right (Nat.not_lt.mp hprologue)] at h
    change (library :: _)[position - prologueLength body]? = _ at h
    cases hoffset : position - prologueLength body with
    | zero =>
      rw [hoffset] at h
      exact Or.inr (Or.inl (Option.some.inj h).symm)
    | succ offset =>
      rw [hoffset, List.getElem?_cons_succ] at h
      rcases getElem?_flatMap_statementsAt h with hinserted | ⟨index, hindex, hshifted⟩
      · exact Or.inr (Or.inr (Or.inl hinserted))
      · refine Or.inr (Or.inr (Or.inr ⟨prologueLength body + index, ?_, ?_⟩))
        · rw [← getElem?_dropWhile_isDirective]
          exact hindex
        · rw [← hshifted, shifted_prologueLength hanchors]
          omega

/-- A stretch of items takes up a place for each item and each statement anchored to one. -/
theorem length_flatMap_statementsAt (insertions : List Insertion) (items : List Tree)
    (position : Nat) :
    ((items.zipIdx position).flatMap fun item => item.1 :: statementsAt insertions item.2).length =
      items.length + insertions.countP fun i =>
        position ≤ i.anchor ∧ i.anchor < position + items.length := by
  induction items generalizing position with
  | nil =>
    have hnone : (insertions.countP fun i =>
        position ≤ i.anchor ∧ i.anchor < position + ([] : List Tree).length) = 0 := by
      rw [List.countP_eq_zero]
      intro i _
      simp
    rw [hnone]
    rfl
  | cons item items ih =>
    rw [List.zipIdx_cons, List.flatMap_cons, List.length_append, ih, List.length_cons,
      List.length_cons, length_statementsAt insertions position, countP_anchor_succ]
    omega

/-- The spliced body around an item after the prologue. -/
theorem exists_splice_eq_append (body : List Tree) (library : Tree) {insertions : List Insertion}
    (hanchors : ∀ i ∈ insertions, prologueLength body ≤ i.anchor) {position : Nat} {item : Tree}
    (hprologue : prologueLength body ≤ position) (hitem : body[position]? = some item) :
    ∃ before after,
      splice body library insertions =
        before ++ item :: (statementsAt insertions position ++ after) ∧
      before.length = shifted insertions position := by
  let rest := body.dropWhile isDirective
  let offset := position - prologueLength body
  have hoffset : prologueLength body + offset = position := by omega
  have hrest : rest[offset]? = some item := by
    rw [getElem?_dropWhile_isDirective, hoffset, hitem]
  obtain ⟨hlt, hget⟩ := List.getElem?_eq_some_iff.mp hrest
  have hsplit : rest = rest.take offset ++ item :: rest.drop (offset + 1) := by
    rw [← hget, ← List.drop_eq_getElem_cons hlt, List.take_append_drop]
  have htake : (rest.take offset).length = offset := by
    rw [List.length_take]
    omega
  refine ⟨body.takeWhile isDirective ++ library ::
      ((rest.take offset).zipIdx (prologueLength body)).flatMap
        (fun item => item.1 :: statementsAt insertions item.2),
    ((rest.drop (offset + 1)).zipIdx (position + 1)).flatMap
      (fun item => item.1 :: statementsAt insertions item.2), ?_, ?_⟩
  · rw [splice_eq_append body library hanchors]
    conv => lhs; rw [show body.dropWhile isDirective = rest from rfl, hsplit]
    rw [List.zipIdx_append, htake, hoffset, List.zipIdx_cons, List.flatMap_append,
      List.flatMap_cons]
    simp
  · have hcount : (insertions.countP fun i => prologueLength body ≤ i.anchor ∧
        i.anchor < prologueLength body + offset) =
        insertions.countP fun i => i.anchor < position := by
      -- Nothing is anchored in the prologue, so these are all anchors before the item.
      rw [hoffset]
      apply List.countP_congr
      intro i hi
      simp [hanchors i hi]
    rw [List.length_append, List.length_cons, length_flatMap_statementsAt, htake, hcount, shifted]
    change prologueLength body + _ = _
    omega

end PropCatalog.Metadata
