import Mathlib.Data.List.Basic
import PropCatalog.Files.Path

/-!
# Pieces of joined paths

Paths are joined as texts and followed piece by piece.  This file says what joining does to pieces:
the pieces of the second path are put after those of the first, which loses an empty piece at its
end (`pieces_join`).  So following a joined path is following the first one and then the second.

The names that entries of a directory can have are those that stand for themselves as a piece
(`IsEntryName`): joined one after the other they are found again among the pieces.
-/

namespace PropCatalog.Path

/-! ## Cutting at slashes -/

theorem cut_ne_nil (cs : List Char) : cut cs ≠ [] := by
  cases cs with
  | nil => simp [cut]
  | cons c cs =>
    unfold cut
    split
    · simp
    · split <;> simp

/-- A slash separates the pieces before it from those after it. -/
theorem cut_append_slash (xs ys : List Char) : cut (xs ++ '/' :: ys) = cut xs ++ cut ys := by
  induction xs with
  | nil => rfl
  | cons x xs ih =>
    rw [List.cons_append, cut, cut, ih]
    split
    · rfl
    · cases hxs : cut xs with
      | nil => exact absurd hxs (cut_ne_nil xs)
      | cons piece pieces => rfl

theorem cut_of_notMem {cs : List Char} (h : '/' ∉ cs) : cut cs = [cs] := by
  induction cs with
  | nil => rfl
  | cons c cs ih =>
    rw [List.mem_cons, not_or] at h
    rw [cut, if_neg (Ne.symm h.1), ih h.2]

theorem notMem_of_mem_cut {cs piece : List Char} (h : piece ∈ cut cs) : '/' ∉ piece := by
  induction cs generalizing piece with
  | nil =>
    rw [cut, List.mem_singleton] at h
    simp [h]
  | cons c cs ih =>
    rw [cut] at h
    split at h
    · rcases List.mem_cons.mp h with rfl | h
      · simp
      · exact ih h
    · next hc =>
      cases hcs : cut cs with
      | nil => exact absurd hcs (cut_ne_nil cs)
      | cons first rest =>
        rw [hcs] at ih h
        rcases List.mem_cons.mp h with rfl | h
        · rw [List.mem_cons, not_or]
          exact ⟨Ne.symm hc, ih List.mem_cons_self⟩
        · exact ih (List.mem_cons_of_mem _ h)

/-- The last piece is empty only behind a slash at the end, or if there is no character at all. -/
theorem eq_nil_or_slash_of_getLast?_cut {cs : List Char} (h : (cut cs).getLast? = some []) :
    cs = [] ∨ cs.getLast? = some '/' := by
  induction cs with
  | nil => exact Or.inl rfl
  | cons c cs ih =>
    right
    cases hcs : cut cs with
    | nil => exact absurd hcs (cut_ne_nil cs)
    | cons first rest =>
      rw [cut, hcs] at h
      rw [hcs] at ih
      by_cases hc : c = '/'
      · rw [if_pos hc, List.getLast?_cons_cons] at h
        rcases ih h with rfl | hlast
        · rw [hc]
          rfl
        · exact List.mem_getLast?_cons hlast
      · rw [if_neg hc] at h
        cases rest with
        | nil => simp at h
        | cons second others =>
          rw [List.getLast?_cons_cons] at h ih
          rcases ih h with rfl | hlast
          · cases hcs
          · exact List.mem_getLast?_cons hlast

/-! ## Pieces -/

theorem pieces_ne_nil (p : Path) : p.pieces ≠ [] := by
  rw [pieces, ne_eq, List.map_eq_nil_iff]
  exact cut_ne_nil _

theorem notMem_of_mem_pieces {p : Path} {piece : String} (h : piece ∈ p.pieces) :
    '/' ∉ piece.toList := by
  obtain ⟨cs, hcs, rfl⟩ := List.mem_map.mp h
  rw [String.toList_ofList]
  exact notMem_of_mem_cut hcs

theorem pieces_slash (a b : String) :
    (⟨a ++ "/" ++ b⟩ : Path).pieces = (⟨a⟩ : Path).pieces ++ (⟨b⟩ : Path).pieces := by
  simp only [pieces, String.toList_append, List.append_assoc]
  rw [← List.map_append, ← cut_append_slash]
  rfl

theorem pieces_of_notMem {name : String} (h : '/' ∉ name.toList) :
    (⟨name⟩ : Path).pieces = [name] := by
  rw [pieces, cut_of_notMem h, List.map_singleton, String.ofList_toList]

/-- The pieces of a path without an empty one at the end. -/
def frontPieces (p : Path) : List String :=
  if p.pieces.getLast? = some "" then p.pieces.dropLast else p.pieces

theorem frontPieces_slash (a : String) :
    (⟨a ++ "/"⟩ : Path).frontPieces = (⟨a⟩ : Path).pieces := by
  have hpieces : (⟨a ++ "/"⟩ : Path).pieces = (⟨a⟩ : Path).pieces ++ [""] := by
    have hslash := pieces_slash a ""
    rwa [String.append_empty] at hslash
  rw [frontPieces, hpieces]
  simp

/-- A path has its front pieces, and after them at most one more, which is empty. -/
theorem pieces_eq_frontPieces (p : Path) :
    p.pieces = p.frontPieces ∨ p.pieces = p.frontPieces ++ [""] := by
  unfold frontPieces
  split
  · next h =>
    right
    obtain ⟨ys, hys⟩ := List.getLast?_eq_some_iff.mp h
    rw [hys, List.dropLast_concat]
  · exact Or.inl rfl

/-! ## Joining -/

/-- A text that does not begin with a slash is no absolute path. -/
theorem isAbsolute_eq_false {name : String} (h : '/' ∉ name.toList) :
    (⟨name⟩ : Path).isAbsolute = false := by
  unfold isAbsolute
  cases hlist : name.toList with
  | nil => rfl
  | cons c cs =>
    rw [hlist, List.mem_cons, not_or] at h
    simpa using Ne.symm h.1

/-- How a relative path is joined: with or without a slash between the texts. -/
theorem join_eq (dir : Path) {p : Path} (hp : p.isAbsolute = false) :
    (dir.text = "" ∧ dir.join p = p) ∨
    (∃ a, dir.text = a ++ "/" ∧ dir.join p = ⟨a ++ "/" ++ p.text⟩) ∨
    (dir.text ≠ "" ∧ dir.pieces.getLast? ≠ some "" ∧
      dir.join p = ⟨dir.text ++ "/" ++ p.text⟩) := by
  by_cases hempty : dir.text = ""
  · exact Or.inl ⟨hempty, by simp [join, hempty]⟩
  · right
    by_cases hslash : dir.text.toList.getLast? = some '/'
    · left
      obtain ⟨cs, hcs⟩ := List.getLast?_eq_some_iff.mp hslash
      have htext : dir.text = String.ofList cs ++ "/" := by
        rw [← String.ofList_toList (s := dir.text), hcs, String.ofList_append]
      refine ⟨String.ofList cs, htext, ?_⟩
      simp [join, hp, hempty, hslash, ← htext]
    · right
      refine ⟨hempty, ?_, by simp [join, hp, hempty, hslash]⟩
      intro hlast
      rw [pieces, List.getLast?_map, Option.map_eq_some_iff] at hlast
      obtain ⟨cs, hcs, hnil⟩ := hlast
      obtain rfl : cs = [] := by simpa using congrArg String.toList hnil
      rcases eq_nil_or_slash_of_getLast?_cut hcs with hnone | hend
      · exact hempty (by simpa using hnone)
      · exact hslash hend

/-- The pieces of a relative path stand after the front pieces of the directory it is joined to. -/
theorem pieces_join (dir : Path) {p : Path} (hp : p.isAbsolute = false) :
    (dir.join p).pieces = dir.frontPieces ++ p.pieces := by
  rcases join_eq dir hp with ⟨hempty, hjoin⟩ | ⟨a, htext, hjoin⟩ | ⟨hne, hlast, hjoin⟩
  · obtain ⟨text⟩ := dir
    subst hempty
    rw [hjoin]
    rfl
  · obtain ⟨text⟩ := dir
    subst htext
    rw [hjoin, pieces_slash, frontPieces_slash]
  · rw [hjoin, pieces_slash, frontPieces, if_neg hlast]

/-- A joined path starts where the directory starts. -/
theorem isAbsolute_join (dir : Path) {p : Path} (hp : p.isAbsolute = false) :
    (dir.join p).isAbsolute = dir.isAbsolute := by
  rcases join_eq dir hp with ⟨hempty, hjoin⟩ | ⟨a, htext, hjoin⟩ | ⟨hne, _, hjoin⟩
  · rw [hjoin, hp, isAbsolute, hempty]
    rfl
  · rw [hjoin, isAbsolute, isAbsolute, htext]
    cases ha : a.toList <;> simp [ha]
  · rw [hjoin, isAbsolute, isAbsolute]
    cases hd : dir.text.toList with
    | nil => exact absurd (by simpa using hd) hne
    | cons c cs => simp [hd]

/-! ## Names of entries -/

/-- Whether a text stands for itself as a piece of a path, as the name of an entry does. -/
def IsEntryName (name : String) : Prop :=
  name ≠ "" ∧ name ≠ "." ∧ name ≠ ".." ∧ '/' ∉ name.toList

instance (name : String) : Decidable (IsEntryName name) := inferInstanceAs (Decidable (_ ∧ _))

theorem IsEntryName.pieces {name : String} (h : IsEntryName name) :
    (⟨name⟩ : Path).pieces = [name] :=
  pieces_of_notMem h.2.2.2

theorem pieces_child (dir : Path) {name : String} (h : IsEntryName name) :
    (dir.child name).pieces = dir.frontPieces ++ [name] := by
  rw [child, pieces_join dir (isAbsolute_eq_false h.2.2.2), h.pieces]

/-- A path that ends in the name of an entry is not empty. -/
theorem text_ne_of_pieces {p : Path} {front : List String} {name : String}
    (hp : p.pieces = front ++ [name]) (h : IsEntryName name) : p.text ≠ "" := by
  intro hempty
  rw [show p = ⟨""⟩ from congrArg Path.mk hempty] at hp
  have hlast : ([""] : List String).getLast? = (front ++ [name]).getLast? :=
    congrArg List.getLast? hp
  rw [List.getLast?_concat] at hlast
  exact h.1 (Option.some.inj hlast).symm

theorem child_text_ne {dir : Path} {name : String} (h : IsEntryName name) :
    (dir.child name).text ≠ "" :=
  text_ne_of_pieces (pieces_child dir h) h

theorem Component.ofPiece?_entryName {name : String} (h : IsEntryName name) :
    Component.ofPiece? name = some (.name name) := by
  simp [Component.ofPiece?, h.1, h.2.1, h.2.2.1]

/-- An absolute path begins with an empty piece. -/
theorem head?_pieces_of_isAbsolute {p : Path} (h : p.isAbsolute = true) :
    p.pieces.head? = some "" := by
  unfold isAbsolute at h
  unfold pieces
  cases hlist : p.text.toList with
  | nil => simp [hlist] at h
  | cons c cs =>
    obtain rfl : c = '/' := by simpa [hlist] using h
    simp [cut]

/-- A path that ends in the name of an entry has it as its file name. -/
theorem fileName?_of_pieces {p : Path} {front : List String} {name : String}
    (hp : p.pieces = front ++ [name]) (hname : IsEntryName name) : p.fileName? = some name := by
  have hlast : p.components.getLast? = some (.name name) := by
    unfold components
    rw [hp]
    cases front with
    | nil =>
      have habsolute : p.isAbsolute = false := by
        by_contra h
        have hhead := head?_pieces_of_isAbsolute (by simpa using h)
        rw [hp] at hhead
        exact hname.1 (Option.some.inj hhead)
      simp [hname.2.1, habsolute, Component.ofPiece?_entryName hname]
    | cons first rest =>
      simp [List.filterMap_append, Component.ofPiece?_entryName hname]
  rw [fileName?, hlast]
  rfl

/-- The name that a piece stands for, if it is one of an entry. -/
def pieceName? (piece : String) : Option String :=
  (Component.ofPiece? piece).bind Component.name?

theorem pieceName?_of_ne {piece : String} (hempty : piece ≠ "") (hhere : piece ≠ ".")
    (hup : piece ≠ "..") : pieceName? piece = some piece := by
  simp [pieceName?, Component.ofPiece?, hempty, hhere, hup, Component.name?]

theorem pieceName?_entryName {name : String} (h : IsEntryName name) :
    pieceName? name = some name :=
  pieceName?_of_ne h.1 h.2.1 h.2.2.1

theorem pieceName?_eq_some {piece name : String} (h : pieceName? piece = some name) :
    piece = name ∧ name ≠ "" ∧ name ≠ "." ∧ name ≠ ".." := by
  unfold pieceName? Component.ofPiece? at h
  split at h
  · cases h
  · next hidle =>
    split at h
    · cases h
    · next hup =>
      obtain rfl : piece = name := by simpa [Component.name?] using h
      simp only [Bool.or_eq_true, decide_eq_true_eq, not_or] at hidle
      exact ⟨rfl, hidle.1, hidle.2, hup⟩

/-- The names of a path are those of its pieces. -/
theorem names_eq_filterMap (p : Path) : p.names = p.pieces.filterMap pieceName? := by
  unfold names components
  cases hpieces : p.pieces with
  | nil => rfl
  | cons first rest =>
    have hrest : (rest.filterMap Component.ofPiece?).filterMap Component.name? =
        rest.filterMap pieceName? := List.filterMap_filterMap ..
    rw [List.filterMap_append, hrest, List.filterMap_cons]
    by_cases hhere : first = "."
    · subst hhere
      rfl
    · cases habsolute : p.isAbsolute with
      | true =>
        obtain rfl : first = "" := by
          simpa [hpieces] using head?_pieces_of_isAbsolute habsolute
        rfl
      | false =>
        simp only [hhere, if_false, Bool.false_eq_true, pieceName?]
        cases Component.ofPiece? first with
        | none => rfl
        | some component => cases component <;> rfl

/-- The names of a path are names of entries. -/
theorem isEntryName_of_mem_names {p : Path} {name : String} (h : name ∈ p.names) :
    IsEntryName name := by
  rw [names_eq_filterMap] at h
  obtain ⟨piece, hpiece, hname⟩ := List.mem_filterMap.mp h
  obtain ⟨rfl, hempty, hhere, hup⟩ := pieceName?_eq_some hname
  exact ⟨hempty, hhere, hup, notMem_of_mem_pieces hpiece⟩

/-- Pieces that are written with slashes between them are found again. -/
theorem pieces_intercalate_of_notMem {pieces : List String}
    (hslash : ∀ piece ∈ pieces, '/' ∉ piece.toList) (hne : pieces ≠ []) :
    (⟨"/".intercalate pieces⟩ : Path).pieces = pieces := by
  induction pieces with
  | nil => exact absurd rfl hne
  | cons piece pieces ih =>
    obtain ⟨hpiece, hrest⟩ := List.forall_mem_cons.mp hslash
    cases pieces with
    | nil =>
      rw [String.intercalate_singleton]
      exact pieces_of_notMem hpiece
    | cons second others =>
      rw [String.intercalate_cons_cons, pieces_slash, pieces_of_notMem hpiece, ih hrest (by simp)]
      rfl

/-- Names that are written with slashes between them are found again. -/
theorem pieces_intercalate {names : List String} (hnames : ∀ name ∈ names, IsEntryName name)
    (hne : names ≠ []) : (⟨"/".intercalate names⟩ : Path).pieces = names :=
  pieces_intercalate_of_notMem (fun name hname => (hnames name hname).2.2.2) hne

theorem filterMap_pieceName? {names : List String} (hnames : ∀ name ∈ names, IsEntryName name) :
    names.filterMap pieceName? = names := by
  rw [List.filterMap_congr fun name hname => pieceName?_entryName (hnames name hname)]
  exact List.filterMap_some

theorem names_intercalate {names : List String} (hnames : ∀ name ∈ names, IsEntryName name) :
    (⟨"/".intercalate names⟩ : Path).names = names := by
  rw [names_eq_filterMap]
  by_cases hne : names = []
  · subst hne
    rfl
  · rw [pieces_intercalate hnames hne, filterMap_pieceName? hnames]

/-- Names that are written with slashes between them are no absolute path. -/
theorem isAbsolute_intercalate {names : List String} (hnames : ∀ name ∈ names, IsEntryName name) :
    (⟨"/".intercalate names⟩ : Path).isAbsolute = false := by
  by_contra h
  have hhead := head?_pieces_of_isAbsolute (by simpa using h)
  cases names with
  | nil => simp [isAbsolute] at h
  | cons name names =>
    rw [pieces_intercalate hnames (by simp)] at hhead
    exact (hnames name List.mem_cons_self).1 (Option.some.inj hhead)

end PropCatalog.Path
