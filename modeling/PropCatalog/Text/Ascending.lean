/-!
# Ascending lists of texts

Texts in ascending order of their characters, each once.

Main statements: `mem_ascending`, that no text is lost or added, and `pairwise_ascending`, that the
order is strict.
-/

namespace PropCatalog.Text

/-- Put a text in its place in an ascending list, unless it is there already. -/
def place (s : String) : List String → List String
  | [] => [s]
  | t :: ts => if s < t then s :: t :: ts else if s = t then t :: ts else t :: place s ts

/-- The texts of a list in ascending order, each once. -/
def ascending (texts : List String) : List String := texts.foldr place []

theorem mem_place {s t : String} {ts : List String} : t ∈ place s ts ↔ t = s ∨ t ∈ ts := by
  induction ts with
  | nil => simp [place]
  | cons u us ih =>
    simp only [place]
    split
    · simp
    · split
      · next h => subst h; simp
      · simp only [List.mem_cons, ih]
        grind

/-- Sorting loses no text and adds none. -/
theorem mem_ascending {t : String} {texts : List String} : t ∈ ascending texts ↔ t ∈ texts := by
  induction texts with
  | nil => simp [ascending]
  | cons s ss ih =>
    have h : ascending (s :: ss) = place s (ascending ss) := rfl
    rw [h, mem_place, ih, List.mem_cons]

theorem pairwise_place (s : String) {ts : List String} (h : ts.Pairwise (· < ·)) :
    (place s ts).Pairwise (· < ·) := by
  induction ts with
  | nil => simp [place]
  | cons t ts ih =>
    obtain ⟨ht, hts⟩ := List.pairwise_cons.1 h
    simp only [place]
    split
    · next hlt =>
      refine List.pairwise_cons.2 ⟨?_, h⟩
      intro u hu
      rcases List.mem_cons.1 hu with rfl | hu
      · exact hlt
      · exact String.lt_trans hlt (ht u hu)
    · next hnlt =>
      split
      · exact h
      · next hne =>
        refine List.pairwise_cons.2 ⟨?_, ih hts⟩
        intro u hu
        rcases mem_place.1 hu with rfl | hu
        · have hle : t ≤ u := String.not_lt.1 hnlt
          exact Std.lt_of_le_of_ne hle fun e => hne e.symm
        · exact ht u hu

/-- The order of a sorted list is strict. -/
theorem pairwise_ascending (texts : List String) : (ascending texts).Pairwise (· < ·) := by
  induction texts with
  | nil => simp [ascending]
  | cons s ss ih => exact pairwise_place s ih

end PropCatalog.Text
