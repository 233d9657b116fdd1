import PropCatalog.Proofs.Confinement
import PropCatalog.Proofs.Discovery
import PropCatalog.Proofs.Patterns
import PropCatalog.Proofs.Scanning

/-!
# Directories that a pattern names

A pattern for paths is expanded component by component.  This file says what comes out without the
expansion: the directories that pieces lead to which fit the components (`Glob.Fits`,
`Disk.expands`).  A component without wildcards fits itself, one with wildcards fits the names that
it matches, and `**` fits any number of names.

The expansion keeps paths, not places.  A path stands at a place if whatever is added to it leads
from there (`Disk.Stands`), and each kind of component takes a path that stands at a place to paths
that stand where its pieces lead.  The exception is a path that says nothing but "here": it is left
out of what follows, so that an empty component behind it makes the empty path, which leads nowhere
(`Path.startsEmpty`).
-/

namespace PropCatalog

namespace Glob

mutual

/-- The pieces of a path fit the components of a pattern. -/
inductive Fits : List Glob → List String → Prop
  | nil : Fits [] []
  /-- A component without wildcards fits itself. -/
  | literal {g : Glob} {gs : List Glob} {piece : String} {rest : List String}
      (hliteral : g.literal? = some piece) (hrest : Fits gs rest) : Fits (g :: gs) (piece :: rest)
  /-- A component with wildcards fits a name that it matches.  It fits a dot or two only if it
  begins with a dot. -/
  | wildcard {g : Glob} {gs : List Glob} {piece : String} {rest : List String}
      (hwild : g.literal? = none) (hsingle : g.isRecursive = false)
      (hmatch : g.isMatch piece = true)
      (hpiece : Path.IsEntryName piece ∨ g.hasLeadingDot = true ∧ (piece = "." ∨ piece = ".."))
      (hrest : Fits gs rest) : Fits (g :: gs) (piece :: rest)
  /-- Two stars fit any number of names. -/
  | recursive {g : Glob} {gs : List Glob} {pieces : List String} (hrecursive : g.isRecursive = true)
      (hbelow : FitsBelow gs pieces) : Fits (g :: gs) pieces

/-- The pieces of a path fit the components that follow two stars. -/
inductive FitsBelow : List Glob → List String → Prop
  /-- At the end of a pattern, the stars fit at least one name. -/
  | nil {names : List String} (hne : names ≠ []) (hnames : ∀ name ∈ names, Path.IsEntryName name) :
      FitsBelow [] names
  | recursive {g : Glob} {gs : List Glob} {pieces : List String} (hrecursive : g.isRecursive = true)
      (hbelow : FitsBelow gs pieces) : FitsBelow (g :: gs) pieces
  /-- A component after the stars fits a name that it matches, behind any number of other names. -/
  | within {g : Glob} {gs : List Glob} {skipped : List String} {name : String} {rest : List String}
      (hsingle : g.isRecursive = false) (hskipped : ∀ x ∈ skipped, Path.IsEntryName x)
      (hname : Path.IsEntryName name) (hmatch : g.isMatch name = true) (hrest : Fits gs rest) :
      FitsBelow (g :: gs) (skipped ++ name :: rest)

end

/-- Components without wildcards fit themselves and nothing else. -/
theorem fits_append_of_literals {ls gs : List Glob} {names pieces : List String}
    (hliterals : List.Forall₂ (fun g name => g.literal? = some name) ls names) :
    Fits (ls ++ gs) pieces ↔ ∃ rest, pieces = names ++ rest ∧ Fits gs rest := by
  induction hliterals generalizing pieces with
  | nil => simp
  | @cons g name ls names hliteral _ ih =>
    constructor
    · intro h
      cases h with
      | literal hpiece hrest =>
        obtain rfl := Option.some.inj (hliteral.symm.trans hpiece)
        obtain ⟨rest, rfl, hfits⟩ := ih.mp hrest
        exact ⟨rest, rfl, hfits⟩
      | wildcard hwild =>
        rw [hliteral] at hwild
        cases hwild
      | recursive hrecursive =>
        rw [isRecursive_of_literal? hliteral] at hrecursive
        cases hrecursive
    · rintro ⟨rest, rfl, hrest⟩
      exact .literal hliteral (ih.mpr ⟨rest, rfl, hrest⟩)

theorem fits_recursive_iff {g : Glob} {gs : List Glob} {pieces : List String}
    (hrecursive : g.isRecursive = true) : Fits (g :: gs) pieces ↔ FitsBelow gs pieces := by
  constructor
  · intro h
    cases h with
    | literal hliteral =>
      rw [isRecursive_of_literal? hliteral] at hrecursive
      cases hrecursive
    | wildcard _ hsingle =>
      rw [hsingle] at hrecursive
      cases hrecursive
    | recursive _ hbelow => exact hbelow
  · exact .recursive hrecursive

theorem fitsBelow_recursive_iff {g : Glob} {gs : List Glob} {pieces : List String}
    (hrecursive : g.isRecursive = true) : FitsBelow (g :: gs) pieces ↔ FitsBelow gs pieces := by
  constructor
  · intro h
    cases h with
    | recursive _ hbelow => exact hbelow
    | within hsingle =>
      rw [hsingle] at hrecursive
      cases hrecursive
  · exact .recursive hrecursive

/-- What fits components behind two stars begins with the name of an entry. -/
theorem FitsBelow.exists_cons {gs : List Glob} {pieces : List String} (h : FitsBelow gs pieces) :
    ∃ name rest, pieces = name :: rest ∧ Path.IsEntryName name := by
  induction gs with
  | nil =>
    cases h with
    | nil hne hnames =>
      obtain ⟨name, rest, rfl⟩ := List.exists_cons_of_ne_nil hne
      exact ⟨name, rest, rfl, hnames name List.mem_cons_self⟩
  | cons g gs ih =>
    cases h with
    | recursive _ hbelow => exact ih hbelow
    | @within _ _ skipped name rest _ hskipped hname =>
      cases skipped with
      | nil => exact ⟨name, rest, rfl, hname⟩
      | cons first skipped => exact ⟨first, _, rfl, hskipped first List.mem_cons_self⟩

end Glob

namespace Path

/-- Whether pieces begin with an empty one, dots before it apart. -/
def startsEmpty : List String → Bool
  | [] => false
  | piece :: pieces => if piece = "." then startsEmpty pieces else piece = ""

theorem startsEmpty_cons_eq_false {piece : String} {pieces : List String} :
    startsEmpty (piece :: pieces) = false ↔
      piece ≠ "" ∧ (piece = "." → startsEmpty pieces = false) := by
  rw [startsEmpty]
  split
  · next hdot => simp [hdot]
  · next hdot => simp [hdot]

theorem startsEmpty_of_fitsBelow {gs : List Glob} {pieces : List String}
    (h : Glob.FitsBelow gs pieces) : startsEmpty pieces = false := by
  obtain ⟨name, rest, rfl, hname⟩ := h.exists_cons
  exact startsEmpty_cons_eq_false.mpr ⟨hname.1, fun hdot => absurd hdot hname.2.1⟩

theorem ofPiece?_eq_none {piece : String} :
    Component.ofPiece? piece = none ↔ piece = "" ∨ piece = "." := by
  unfold Component.ofPiece?
  split
  · next hidle => simpa using hidle
  · next hidle =>
    have hneither : ¬ (piece = "" ∨ piece = ".") := by simpa using hidle
    simp only [hneither, iff_false]
    split <;> simp

theorem here_notMem_ofPiece? (piece : String) : Component.ofPiece? piece ≠ some .here := by
  unfold Component.ofPiece?
  split
  · simp
  · split <;> simp

/-- A path says nothing but "here" if it is a dot with idle pieces behind it. -/
theorem isHere_iff {p : Path} :
    Disk.isHere p = true ↔
      ∃ rest, p.pieces = "." :: rest ∧ ∀ piece ∈ rest, piece = "" ∨ piece = "." := by
  rw [Disk.isHere, beq_iff_eq, components]
  cases hpieces : p.pieces with
  | nil => exact absurd hpieces p.pieces_ne_nil
  | cons first rest =>
    dsimp only
    by_cases hfirst : first = "."
    · subst hfirst
      simp [List.filterMap_eq_nil_iff, ofPiece?_eq_none]
    · -- No piece but the first can say "here".
      have hhere : Component.here ∉ (if first = "." then some Component.here
          else if p.isAbsolute then some .root else Component.ofPiece? first).toList ++
            rest.filterMap Component.ofPiece? := by
        rw [if_neg hfirst, List.mem_append, Option.mem_toList, List.mem_filterMap]
        rintro (h | ⟨piece, _, h⟩)
        · split at h
          · cases h
          · exact here_notMem_ofPiece? first h
        · exact here_notMem_ofPiece? piece h
      constructor
      · intro h
        rw [h] at hhere
        exact absurd List.mem_cons_self hhere
      · rintro ⟨rest', heq, _⟩
        exact absurd (List.cons.inj heq).1 hfirst

/-- The front pieces of a path without those of its end that lead nowhere. -/
theorem frontPieces_of_pieces {p : Path} {front : List String} {last : String}
    (h : p.pieces = front ++ [last]) :
    p.frontPieces = if last = "" then front else front ++ [last] := by
  rw [frontPieces, h, List.getLast?_concat, List.dropLast_concat]
  simp only [Option.some.injEq]

theorem pieces_child_of_notMem (dir : Path) {name : String} (h : '/' ∉ name.toList) :
    (dir.child name).pieces = dir.frontPieces ++ [name] := by
  rw [child, pieces_join dir (isAbsolute_eq_false h), pieces_of_notMem h]

theorem child_text_ne_of_notMem {dir : Path} {name : String} (hname : '/' ∉ name.toList)
    (h : dir.text ≠ "" ∨ name ≠ "") : (dir.child name).text ≠ "" := by
  intro hempty
  have hpieces : [] ++ [""] = dir.frontPieces ++ [name] := by
    rw [← pieces_child_of_notMem dir hname, show dir.child name = ⟨""⟩ from congrArg Path.mk hempty]
    rfl
  obtain ⟨hfront, hlast⟩ := List.append_inj' hpieces rfl
  rcases h with hdir | hne
  · exact frontPieces_ne_nil hdir hfront.symm
  · exact hne (List.cons.inj hlast).1.symm

/-- A path below another one says nothing but "here" if the other one does and it adds nothing. -/
theorem isHere_child {p : Path} (hp : p.text ≠ "") {name : String} (hname : '/' ∉ name.toList) :
    Disk.isHere (p.child name) = true ↔ Disk.isHere p = true ∧ (name = "" ∨ name = ".") := by
  rw [isHere_iff, isHere_iff, pieces_child_of_notMem p hname]
  obtain ⟨first, rest, hfront⟩ := List.exists_cons_of_ne_nil (frontPieces_ne_nil hp)
  have hpieces := pieces_eq_frontPieces p
  rw [hfront] at hpieces ⊢
  rcases hpieces with hpieces | hpieces <;> rw [hpieces] <;> simp [or_imp, forall_and, and_assoc]

end Path

namespace Disk

variable {disk : Disk}

theorem follow_append_eq_ok {place xs ys q : List String} :
    disk.follow place (xs ++ ys) = .ok q ↔
      ∃ r, disk.follow place xs = .ok r ∧ disk.follow r ys = .ok q := by
  rw [follow_append]
  cases disk.follow place xs <;> simp [Except.bind]

/-- An idle piece before others makes no difference. -/
theorem follow_idle {piece : String} (hidle : piece = "" ∨ piece = ".") (place : List String)
    {pieces : List String} (hne : pieces ≠ []) :
    disk.follow place (piece :: pieces) = disk.follow place pieces := by
  obtain ⟨next, others, rfl⟩ := List.exists_cons_of_ne_nil hne
  rw [follow_cons]
  cases hplace : disk.sight place with
  | directory => rw [if_pos hidle]
  | file c => rw [follow_cons, hplace]
  | nothing => rw [follow_cons, hplace]

theorem follow_idle_append {idle : List String} (hidle : ∀ piece ∈ idle, piece = "" ∨ piece = ".")
    (place : List String) {pieces : List String} (hne : pieces ≠ []) :
    disk.follow place (idle ++ pieces) = disk.follow place pieces := by
  induction idle with
  | nil => rfl
  | cons piece idle ih =>
    obtain ⟨hpiece, hrest⟩ := List.forall_mem_cons.mp hidle
    rw [List.cons_append, follow_idle hpiece place (by simp [hne]), ih hrest]

/-- An empty piece leads nowhere else, and there must be a directory. -/
theorem follow_empty {place q : List String} :
    disk.follow place [""] = .ok q ↔ q = place ∧ disk.sight place = .directory := by
  rw [follow_cons_eq_ok, if_pos (Or.inl rfl), and_comm]
  exact and_congr_left fun _ => ⟨fun h => (Except.ok.inj h).symm, fun h => h ▸ rfl⟩

theorem isDirectory_iff_locate {p : Path} :
    disk.isDirectory p = true ↔ ∃ q, disk.locate p = .ok q ∧ disk.sight q = .directory := by
  rw [isDirectory, get?]
  cases hp : disk.locate p with
  | error fault => simp
  | ok q =>
    simp only [Except.ok.injEq, exists_eq_left', sight, Node.sight]
    cases disk.root.get? q with
    | none => simp
    | some n => cases n <;> simp [Node.asSight]

/-- Whatever follows a path leads from a place. -/
def Stands (disk : Disk) (p : Path) (place : List String) : Prop :=
  ∀ pieces, pieces ≠ [] →
    disk.follow (disk.origin p) (p.frontPieces ++ pieces) = disk.follow place pieces

theorem stands_here (disk : Disk) : disk.Stands ⟨"."⟩ disk.workingDirectory := by
  intro pieces hne
  exact follow_idle (Or.inr rfl) disk.workingDirectory hne

theorem stands_root (disk : Disk) : disk.Stands ⟨"/"⟩ [] := by
  intro pieces hne
  exact follow_idle (Or.inl rfl) [] hne

namespace Stands

variable {p : Path} {place : List String}

/-- What the paths of things in a directory start with stands where the directory does. -/
theorem stem (h : disk.Stands p place) : disk.Stands (Disk.stem p) place := by
  unfold Disk.stem
  split
  · next hhere =>
    intro pieces hne
    obtain ⟨rest, hpieces, hidle⟩ := Path.isHere_iff.mp hhere
    have hrelative : p.isAbsolute = false := by
      by_contra habsolute
      have hhead := Path.head?_pieces_of_isAbsolute (Bool.eq_true_of_not_eq_false habsolute)
      simp [hpieces] at hhead
    have hfront : ∀ piece ∈ p.frontPieces, piece = "" ∨ piece = "." := by
      intro piece hpiece
      have hmem : piece ∈ p.pieces := by
        rcases Path.pieces_eq_frontPieces p with hfront | hfront <;> simp [hfront, hpiece]
      rw [hpieces] at hmem
      rcases List.mem_cons.mp hmem with rfl | hmem
      · exact Or.inr rfl
      · exact hidle piece hmem
    have horigin : disk.origin p = disk.workingDirectory := by
      rw [origin, hrelative, if_neg (by decide)]
    rw [← h pieces hne, horigin, follow_idle_append hfront disk.workingDirectory hne]
    rfl
  · exact h

theorem locate_child (h : disk.Stands p place) {name : String} (hname : '/' ∉ name.toList)
    (hne : p.text ≠ "" ∨ name ≠ "") : disk.locate (p.child name) = disk.follow place [name] := by
  rw [locate_of_ne (Path.child_text_ne_of_notMem hname hne), Path.pieces_child_of_notMem p hname,
    Path.child, origin_join disk p (Path.isAbsolute_eq_false hname)]
  exact h [name] (by simp)

theorem child (h : disk.Stands p place) {name : String} (hname : '/' ∉ name.toList)
    {r : List String} (hr : disk.follow place [name] = .ok r) : disk.Stands (p.child name) r := by
  intro pieces hne
  have hnext : disk.follow place (name :: pieces) = disk.follow r pieces := by
    rw [← List.singleton_append, follow_append, hr]
    rfl
  rw [Path.frontPieces_of_pieces (Path.pieces_child_of_notMem p hname), Path.child,
    origin_join disk p (Path.isAbsolute_eq_false hname)]
  split
  · next hempty =>
    rw [← hnext, h pieces hne, follow_idle (Or.inl hempty) place hne]
  · rw [List.append_assoc, List.singleton_append, h _ (by simp), hnext]

/-- A path leads to a directory if there is one where it stands. -/
theorem locate_eq_ok (h : disk.Stands p place) (hp : p.text ≠ "") {q : List String}
    (hq : disk.sight q = .directory) : disk.locate p = .ok q ↔ q = place := by
  -- A slash at the end asks for a directory, which there is at `q`, and so it makes no difference.
  have hslash : disk.follow (disk.origin p) (p.frontPieces ++ [""]) = .ok q ↔ q = place := by
    rw [h [""] (by simp), follow_empty]
    constructor
    · rintro ⟨rfl, _⟩
      rfl
    · rintro rfl
      exact ⟨rfl, hq⟩
  rw [locate_of_ne hp, ← hslash]
  rcases Path.pieces_eq_frontPieces p with hfront | hfront
  · rw [hfront, follow_append]
    cases disk.follow (disk.origin p) p.frontPieces with
    | error fault => simp [Except.bind]
    | ok r =>
      change Except.ok r = .ok q ↔ disk.follow r [""] = .ok q
      rw [follow_empty]
      constructor
      · intro hr
        obtain rfl := Except.ok.inj hr
        exact ⟨rfl, hq⟩
      · rintro ⟨rfl, _⟩
        rfl
  · rw [hfront]

theorem isDirectory_iff (h : disk.Stands p place) (hp : p.text ≠ "") :
    disk.isDirectory p = true ↔ disk.sight place = .directory := by
  rw [isDirectory_iff_locate]
  constructor
  · rintro ⟨q, hlocate, hq⟩
    rwa [(h.locate_eq_ok hp hq).mp hlocate] at hq
  · intro hplace
    exact ⟨place, (h.locate_eq_ok hp hplace).mpr rfl, hplace⟩

theorem directoryAt_eq (h : disk.Stands p place) (hp : p.text ≠ "") {es : List (String × Node)}
    (hes : disk.root.get? place = some (.directory es)) : disk.directoryAt p = .directory es := by
  have hplace : disk.sight place = .directory := Node.sight_eq_directory.mpr ⟨es, hes⟩
  rw [directoryAt, get?, (h.locate_eq_ok hp hplace).mpr rfl]
  simp [hes]

/-- Names of entries lead a path down to where they lead from its place. -/
theorem descend (h : disk.Stands p place) {names : List String}
    (hnames : ∀ name ∈ names, Path.IsEntryName name)
    (hthere : disk.sight (place ++ names) ≠ .nothing) :
    disk.Stands (p.descend names) (place ++ names) := by
  induction names generalizing p place with
  | nil => rwa [List.append_nil]
  | cons name names ih =>
    obtain ⟨hname, hrest⟩ := List.forall_mem_cons.mp hnames
    have hplace : disk.sight place = .directory :=
      Node.sight_eq_directory_of_append (by simp) hthere
    rw [List.append_cons] at hthere ⊢
    refine ih (h.child hname.2.2.2 ?_) hrest hthere
    rw [follow_entryName hname hplace, if_neg]
    intro hnothing
    rw [sight, Node.sight_eq_nothing] at hnothing
    rw [sight, ne_eq, Node.sight_eq_nothing, Node.get?_append, hnothing] at hthere
    exact hthere rfl

end Stands

/-! ## Steps -/

theorem exists?_iff_locate {p : Path} :
    disk.exists? p = true ↔ ∃ q, disk.locate p = .ok q ∧ disk.sight q ≠ .nothing := by
  rw [exists?, get?]
  cases hp : disk.locate p with
  | error fault => simp
  | ok q => simp [sight, Node.sight_eq_nothing, Option.isSome_iff_ne_none]

/-- Following pieces leads to something. -/
theorem sight_ne_nothing_of_follow {place pieces q : List String} (hne : pieces ≠ [])
    (h : disk.follow place pieces = .ok q) : disk.sight q ≠ .nothing := by
  obtain ⟨front, last, rfl⟩ := (List.eq_nil_or_concat' pieces).resolve_left hne
  obtain ⟨r, _, hr, ⟨_, rfl⟩ | ⟨_, rfl⟩ | ⟨_, _, _, _, hthere⟩⟩ := follow_concat h
  · simp [hr]
  · simp [sight_dropLast hr]
  · exact hthere

/-- Names of entries lead down to what is there. -/
theorem follow_names_eq_ok {place names q : List String} (hne : names ≠ [])
    (hnames : ∀ name ∈ names, Path.IsEntryName name) :
    disk.follow place names = .ok q ↔ q = place ++ names ∧ disk.sight q ≠ .nothing := by
  constructor
  · intro h
    exact ⟨eq_append_of_follow_names hnames h, sight_ne_nothing_of_follow hne h⟩
  · rintro ⟨rfl, hthere⟩
    obtain ⟨front, last, rfl⟩ := (List.eq_nil_or_concat' names).resolve_left hne
    rw [List.forall_mem_append, List.forall_mem_singleton] at hnames
    rw [← List.append_assoc] at hthere ⊢
    have hfront : disk.sight (place ++ front) = .directory :=
      Node.sight_eq_directory_of_append (by simp) hthere
    rw [follow_append, follow_names hnames.1 hfront]
    change disk.follow (place ++ front) [last] = _
    rw [follow_entryName hnames.2 hfront, if_neg hthere]

/-- A dot or two lead from every directory. -/
theorem exists_follow_dots {place : List String} {name : String}
    (hname : name = "." ∨ name = "..") :
    (∃ q, disk.follow place [name] = .ok q) ↔ disk.sight place = .directory := by
  constructor
  · rintro ⟨q, hq⟩
    exact (follow_cons_eq_ok.mp hq).1
  · intro hplace
    rcases hname with rfl | rfl
    · exact ⟨place, follow_cons_eq_ok.mpr ⟨hplace, rfl⟩⟩
    · exact ⟨place.dropLast, follow_cons_eq_ok.mpr ⟨hplace, rfl⟩⟩

/-- A component without wildcards leads where it leads as a piece.  Only an empty one that follows
nothing but "here" leads nowhere. -/
theorem step?_eq_some {p r : Path} {place : List String} (h : disk.Stands p place)
    (hp : p.text ≠ "") {name : String} (hname : '/' ∉ name.toList) :
    disk.step? p name = some r ↔
      (isHere p = true → name ≠ "") ∧ (∃ q, disk.follow place [name] = .ok q) ∧
        r = (stem p).child name := by
  have hleads : (if name = "." || name = ".." then disk.isDirectory p
      else disk.exists? ((stem p).child name)) = true ↔
      (isHere p = true → name ≠ "") ∧ ∃ q, disk.follow place [name] = .ok q := by
    -- A dot or two are looked for at the path itself, other names at the path with the name added.
    split
    · next hdots =>
      have hdots : name = "." ∨ name = ".." := by simpa using hdots
      have hne : name ≠ "" := by rcases hdots with rfl | rfl <;> decide
      rw [h.isDirectory_iff hp, exists_follow_dots hdots, and_iff_right fun _ => hne]
    · by_cases hstall : isHere p = true ∧ name = ""
      · -- The next path is the empty one, and there is nothing at it.
        obtain ⟨hhere, rfl⟩ := hstall
        rw [stem, if_pos hhere, exists?_iff_locate]
        simp [hhere, locate, Path.child, Path.join]
      · have hne : (stem p).text ≠ "" ∨ name ≠ "" := by
          rw [not_and_or] at hstall
          exact hstall.imp_left fun hhere => by rwa [stem, if_neg hhere]
        rw [exists?_iff_locate, h.stem.locate_child hname hne, and_iff_right (not_and.mp hstall)]
        exact exists_congr fun q =>
          and_iff_left_of_imp (sight_ne_nothing_of_follow (List.cons_ne_nil name []))
  rw [step?, Option.ite_none_right_eq_some, hleads, Option.some.injEq, and_assoc]
  exact and_congr_right fun _ => and_congr_right fun _ => eq_comm

/-- The names in a directory are those that lead from it. -/
theorem mem_names_iff (hdisk : disk.root.WellFormed) {place : List String}
    {es : List (String × Node)} (hes : disk.root.get? place = some (.directory es))
    {name : String} :
    name ∈ es.map Prod.fst ↔
      Path.IsEntryName name ∧ ∃ q, disk.follow place [name] = .ok q := by
  cases hdisk.get? hes with
  | directory hnodup hnames _ =>
    have hentry : (∃ n, (name, n) ∈ es) ↔ disk.sight (place ++ [name]) ≠ .nothing := by
      simp only [← Node.lookup_eq_some_iff hnodup, sight, ne_eq, Node.sight_eq_nothing,
        Node.get?_concat, hes, Option.bind_some, Node.entries]
      exact Option.ne_none_iff_exists'.symm
    constructor
    · intro hname
      obtain ⟨⟨_, n⟩, hn, rfl⟩ := List.mem_map.mp hname
      have hentryName := hnames _ hn
      refine ⟨hentryName, place ++ [_], (follow_names_eq_ok (by simp) (by simpa)).mpr ⟨rfl, ?_⟩⟩
      exact hentry.mp ⟨n, hn⟩
    · rintro ⟨hentryName, q, hq⟩
      obtain ⟨rfl, hthere⟩ := (follow_names_eq_ok (by simp) (by simpa)).mp hq
      obtain ⟨n, hn⟩ := hentry.mpr hthere
      exact List.mem_map_of_mem hn

/-- The entries that a component with wildcards leads to. -/
theorem mem_matching (hdisk : disk.root.WellFormed) {p r : Path} {place : List String}
    (h : disk.Stands p place) (hp : p.text ≠ "") {g : Glob} :
    r ∈ disk.matching p g ↔
      ∃ name, g.isMatch name = true ∧ (∃ q, disk.follow place [name] = .ok q) ∧
        (Path.IsEntryName name ∧ r = (stem p).child name ∨
          (g.hasLeadingDot = true ∧ (name = "." ∨ name = "..")) ∧ r = p.child name) := by
  rw [matching]
  by_cases hplace : disk.sight place = .directory
  · obtain ⟨es, hes⟩ := Node.sight_eq_directory.mp hplace
    rw [if_pos ((h.isDirectory_iff hp).mpr hplace), h.directoryAt_eq hp hes, List.mem_append,
      List.mem_map, List.mem_map]
    simp only [List.mem_filter, Node.entries, mem_names_iff hdisk hes]
    constructor
    · rintro (⟨name, ⟨⟨hname, hleads⟩, hmatch⟩, rfl⟩ | ⟨name, hname, rfl⟩)
      · exact ⟨name, hmatch, hleads, Or.inl ⟨hname, rfl⟩⟩
      · split at hname
        · next hleading =>
          obtain ⟨hdot, hmatch⟩ := List.mem_filter.mp hname
          have hdot : name = "." ∨ name = ".." := by simpa using hdot
          exact ⟨name, hmatch, (exists_follow_dots hdot).mpr hplace, Or.inr ⟨⟨hleading, hdot⟩, rfl⟩⟩
        · cases hname
    · rintro ⟨name, hmatch, hleads, ⟨hname, rfl⟩ | ⟨⟨hleading, hdot⟩, rfl⟩⟩
      · exact Or.inl ⟨name, ⟨⟨hname, hleads⟩, hmatch⟩, rfl⟩
      · refine Or.inr ⟨name, ?_, rfl⟩
        rw [if_pos hleading, List.mem_filter]
        exact ⟨by simpa using hdot, hmatch⟩
  · rw [if_neg (mt (h.isDirectory_iff hp).mp hplace)]
    constructor
    · intro hr
      cases hr
    · rintro ⟨name, _, ⟨q, hq⟩, _⟩
      exact absurd (follow_cons_eq_ok.mp hq).1 hplace

end Disk

namespace Node

theorem descendantsOfEntries_eq_flatMap (path : Path) (es : List (String × Node)) :
    descendantsOfEntries path es = es.flatMap fun e =>
      (path.child e.1, e.2) :: e.2.descendants (path.child e.1) := by
  induction es with
  | nil => rfl
  | cons e es ih =>
    obtain ⟨name, n⟩ := e
    rw [descendantsOfEntries, ih, List.flatMap_cons, List.cons_append]

/-- Everything in a well-formed tree is found by names that can stand in a path. -/
theorem WellFormed.isEntryName {n m : Node} (hn : n.WellFormed) {names : List String}
    (hm : n.get? names = some m) : ∀ name ∈ names, Path.IsEntryName name := by
  induction names generalizing n with
  | nil => simp
  | cons name names ih =>
    obtain ⟨child, hchild, hrest⟩ := Option.bind_eq_some_iff.mp hm
    cases hn with
    | file c => cases hchild
    | directory hnodup hnames hnodes =>
      have hentry := (lookup_eq_some_iff hnodup).mp hchild
      exact List.forall_mem_cons.mpr ⟨hnames _ hentry, ih (hnodes _ hentry) hrest⟩

/-- Below a node is everything that names lead to from it, each under the path that goes down by the
names. -/
theorem mem_descendants {n m : Node} (hn : n.WellFormed) {path r : Path} :
    (r, m) ∈ n.descendants path ↔
      ∃ names, names ≠ [] ∧ n.get? names = some m ∧ r = path.descend names := by
  induction n using Node.induction generalizing path with
  | file c =>
    rw [descendants]
    constructor
    · intro h
      cases h
    · rintro ⟨names, hne, hm, _⟩
      obtain ⟨name, rest, rfl⟩ := List.exists_cons_of_ne_nil hne
      cases hm
  | directory es ih =>
    rw [descendants, descendantsOfEntries_eq_flatMap, List.mem_flatMap]
    cases hn with
    | directory hnodup _ hnodes =>
      constructor
      · rintro ⟨⟨name, n⟩, hentry, hr⟩
        have hlookup : es.lookup name = some n := (lookup_eq_some_iff hnodup).mpr hentry
        rcases List.mem_cons.mp hr with hhead | hbelow
        · obtain ⟨rfl, rfl⟩ := Prod.mk.inj hhead
          exact ⟨[name], by simp, by rw [get?, entries, hlookup]; rfl, rfl⟩
        · obtain ⟨names, _, hm, rfl⟩ := (ih _ hentry (hnodes _ hentry)).mp hbelow
          exact ⟨name :: names, by simp, by rw [get?, entries, hlookup]; exact hm, rfl⟩
      · rintro ⟨names, hne, hm, rfl⟩
        -- The first name is that of an entry, and the others lead down from this entry or are none.
        obtain ⟨name, rest, rfl⟩ := List.exists_cons_of_ne_nil hne
        obtain ⟨n, hlookup, hrest⟩ := Option.bind_eq_some_iff.mp hm
        have hentry : (name, n) ∈ es := (lookup_eq_some_iff hnodup).mp hlookup
        refine ⟨(name, n), hentry, ?_⟩
        cases rest with
        | nil =>
          obtain rfl := Option.some.inj hrest
          exact List.mem_cons_self
        | cons next rest =>
          refine List.mem_cons_of_mem _ ((ih _ hentry (hnodes _ hentry)).mpr ?_)
          exact ⟨next :: rest, by simp, hrest, rfl⟩

end Node

namespace Path

/-- A path that goes down by names ends in the last of them. -/
theorem descend_concat (p : Path) (names : List String) (name : String) :
    p.descend (names ++ [name]) = (p.descend names).child name := by
  rw [descend, List.foldl_concat]
  rfl

/-- A path that ends in the name of an entry says more than "here". -/
theorem isHere_child_entryName (p : Path) {name : String} (hname : IsEntryName name) :
    Disk.isHere (p.child name) = false := by
  by_contra hhere
  obtain ⟨rest, hpieces, hidle⟩ := isHere_iff.mp (Bool.eq_true_of_not_eq_false hhere)
  rw [pieces_child p hname] at hpieces
  have hmem : name ∈ "." :: rest := by
    rw [← hpieces]
    exact List.mem_append_right _ List.mem_cons_self
  rcases List.mem_cons.mp hmem with hdot | hmem
  · exact hname.2.1 hdot
  · exact (hidle name hmem).elim hname.1 hname.2.1

/-- What is in a directory says nothing but "here" only if the directory does and a dot follows. -/
theorem isHere_stem_child {p : Path} (hp : p.text ≠ "") {name : String}
    (hname : '/' ∉ name.toList) :
    Disk.isHere ((Disk.stem p).child name) = true ↔ Disk.isHere p = true ∧ name = "." := by
  rw [Disk.stem]
  split
  · next hhere =>
    rw [isHere_iff, pieces_child_of_notMem _ hname, and_iff_right hhere]
    constructor
    · rintro ⟨rest, hpieces, _⟩
      exact (List.cons.inj hpieces).1
    · rintro rfl
      exact ⟨[], rfl, by simp⟩
  · next hhere =>
    simp [isHere_child hp hname, hhere]

end Path

namespace Disk

variable {disk : Disk}

theorem sight_ne_nothing_of_get? {place : List String} {m : Node}
    (hm : disk.root.get? place = some m) : disk.sight place ≠ .nothing := by
  rw [sight, ne_eq, Node.sight_eq_nothing, hm]
  simp

/-- What is found below a path: everything that names lead to from its place. -/
theorem mem_descendants_directoryAt (hdisk : disk.root.WellFormed) {p r : Path} {m : Node}
    {place : List String} (h : disk.Stands p place) (hp : p.text ≠ "") :
    (r, m) ∈ (disk.directoryAt p).descendants (stem p) ↔
      ∃ names, names ≠ [] ∧ disk.root.get? (place ++ names) = some m ∧
        r = (stem p).descend names := by
  by_cases hplace : disk.sight place = .directory
  · obtain ⟨es, hes⟩ := Node.sight_eq_directory.mp hplace
    simp only [h.directoryAt_eq hp hes, Node.mem_descendants (hdisk.get? hes), Node.get?_append,
      hes, Option.bind_some]
  · -- Nothing is below what is no directory.
    constructor
    · intro hr
      rw [directoryAt] at hr
      cases hget : disk.get? p with
      | none =>
        rw [hget] at hr
        cases hr
      | some n =>
        rw [hget] at hr
        cases n with
        | file c => cases hr
        | directory es =>
          refine absurd ((h.isDirectory_iff hp).mp ?_) hplace
          rw [isDirectory, hget]
    · rintro ⟨names, hne, hm, _⟩
      exact absurd (Node.sight_eq_directory_of_append hne (sight_ne_nothing_of_get? hm)) hplace

/-- The names that lead from a place to something are names of entries. -/
theorem isEntryName_of_get?_append (hdisk : disk.root.WellFormed) {place names : List String}
    {m : Node} (hm : disk.root.get? (place ++ names) = some m) :
    ∀ name ∈ names, Path.IsEntryName name :=
  fun name hname => hdisk.isEntryName hm name (List.mem_append_right place hname)

/-- What is found below a path stands where names lead from its place, and it is not "here". -/
theorem Stands.below (hdisk : disk.root.WellFormed) {p : Path} {place names : List String}
    {m : Node} (h : disk.Stands p place) (hne : names ≠ [])
    (hm : disk.root.get? (place ++ names) = some m) :
    disk.Stands ((Disk.stem p).descend names) (place ++ names) ∧
      ((Disk.stem p).descend names).text ≠ "" ∧ isHere ((Disk.stem p).descend names) = false := by
  have hnames := isEntryName_of_get?_append hdisk hm
  refine ⟨h.stem.descend hnames (sight_ne_nothing_of_get? hm), ?_⟩
  obtain ⟨front, last, rfl⟩ := (List.eq_nil_or_concat' names).resolve_left hne
  have hlast : Path.IsEntryName last := hnames last (by simp)
  rw [Path.descend_concat]
  exact ⟨Path.child_text_ne hlast, Path.isHere_child_entryName _ hlast⟩

/-! ## Expansion -/

/-- From a path, components lead to the directories that pieces lead to which fit them.  The pieces
must not begin with an empty one if the path says nothing but "here". -/
def Expands (disk : Disk) (gs : List Glob) : Prop :=
  ∀ {p : Path} {place q : List String}, disk.Stands p place → p.text ≠ "" →
    disk.sight q = .directory →
    ((∃ r ∈ disk.expand gs p, disk.locate r = .ok q) ↔
      ∃ pieces, Glob.Fits gs pieces ∧ (isHere p = true → Path.startsEmpty pieces = false) ∧
        disk.follow place pieces = .ok q)

/-- The same for components that follow two stars. -/
def ExpandsBelow (disk : Disk) (gs : List Glob) : Prop :=
  ∀ {p : Path} {place q : List String}, disk.Stands p place → p.text ≠ "" →
    disk.sight q = .directory →
    ((∃ r ∈ disk.expandBelow gs p, disk.locate r = .ok q) ↔
      ∃ pieces, Glob.FitsBelow gs pieces ∧ disk.follow place pieces = .ok q)

theorem expands_nil (disk : Disk) : disk.Expands [] := by
  intro p place q h hp hq
  simp only [expand, List.mem_singleton, exists_eq_left, h.locate_eq_ok hp hq]
  constructor
  · rintro rfl
    exact ⟨[], .nil, fun _ => rfl, rfl⟩
  · rintro ⟨pieces, hfits, _, hfollow⟩
    cases hfits
    exact (Except.ok.inj hfollow).symm

theorem mem_expand_literal {g : Glob} {gs : List Glob} {name : String}
    (hliteral : g.literal? = some name) {p r : Path} :
    r ∈ disk.expand (g :: gs) p ↔
      ∃ next, disk.step? p name = some next ∧ r ∈ disk.expand gs next := by
  rw [expand, hliteral]
  dsimp only
  cases disk.step? p name <;> simp

/-- After a step, pieces lead on that fit the other components. -/
theorem Expands.next {gs : List Glob} (ih : disk.Expands gs) {p next : Path} {name : String}
    {place r q : List String} (hr : disk.follow place [name] = .ok r) (hnext : disk.Stands next r)
    (htext : next.text ≠ "") (hstall : isHere p = true → name ≠ "")
    (hhere : isHere next = true ↔ isHere p = true ∧ name = ".") (hq : disk.sight q = .directory) :
    (∃ t ∈ disk.expand gs next, disk.locate t = .ok q) ↔
      ∃ rest, Glob.Fits gs rest ∧ (isHere p = true → Path.startsEmpty (name :: rest) = false) ∧
        disk.follow place (name :: rest) = .ok q := by
  rw [ih hnext htext hq]
  refine exists_congr fun rest => and_congr_right fun _ => and_congr ?_ ?_
  · simp only [hhere, Path.startsEmpty_cons_eq_false, and_imp]
    exact ⟨fun h hp => ⟨hstall hp, h hp⟩, fun h hp => (h hp).2⟩
  · rw [← List.singleton_append, follow_append, hr]
    rfl

/-- A component without wildcards takes one step. -/
theorem Expands.literal {g : Glob} {gs : List Glob} (ih : disk.Expands gs) {name : String}
    (hliteral : g.literal? = some name) (hname : '/' ∉ name.toList) : disk.Expands (g :: gs) := by
  intro p place q h hp hq
  simp only [mem_expand_literal hliteral, step?_eq_some h hp hname]
  have hnext : ∀ {r}, disk.follow place [name] = .ok r → (isHere p = true → name ≠ "") →
      ((∃ t ∈ disk.expand gs ((stem p).child name), disk.locate t = .ok q) ↔
        ∃ rest, Glob.Fits gs rest ∧ (isHere p = true → Path.startsEmpty (name :: rest) = false) ∧
          disk.follow place (name :: rest) = .ok q) := by
    intro r hr hstall
    have hne : (stem p).text ≠ "" ∨ name ≠ "" := by
      by_cases hhere : isHere p = true
      · exact Or.inr (hstall hhere)
      · rw [stem, if_neg hhere]
        exact Or.inl hp
    exact ih.next hr (h.stem.child hname hr) (Path.child_text_ne_of_notMem hname hne) hstall
      (Path.isHere_stem_child hp hname) hq
  constructor
  · rintro ⟨t, ⟨_, ⟨hstall, ⟨r, hr⟩, rfl⟩, ht⟩, hlocate⟩
    obtain ⟨rest, hrest, hleads⟩ := (hnext hr hstall).mp ⟨t, ht, hlocate⟩
    exact ⟨name :: rest, .literal hliteral hrest, hleads⟩
  · rintro ⟨pieces, hfits, hhere, hfollow⟩
    obtain ⟨rest, rfl, hrest⟩ := (Glob.fits_append_of_literals (.cons hliteral .nil)).mp hfits
    obtain ⟨r, hr, _⟩ := follow_append_eq_ok.mp hfollow
    have hstall : isHere p = true → name ≠ "" :=
      fun hp => (Path.startsEmpty_cons_eq_false.mp (hhere hp)).1
    obtain ⟨t, ht, hlocate⟩ := (hnext hr hstall).mpr ⟨rest, hrest, hhere, hfollow⟩
    exact ⟨t, ⟨_, ⟨hstall, ⟨r, hr⟩, rfl⟩, ht⟩, hlocate⟩

theorem mem_expand_wildcard {g : Glob} {gs : List Glob} (hwild : g.literal? = none)
    (hsingle : g.isRecursive = false) {p r : Path} :
    r ∈ disk.expand (g :: gs) p ↔ ∃ next ∈ disk.matching p g, r ∈ disk.expand gs next := by
  rw [expand, hwild]
  dsimp only
  rw [hsingle, if_neg (by decide), List.mem_flatMap]

/-- A component with wildcards takes one step for each name that it matches. -/
theorem Expands.wildcard (hdisk : disk.root.WellFormed) {g : Glob} {gs : List Glob}
    (ih : disk.Expands gs) (hwild : g.literal? = none) (hsingle : g.isRecursive = false) :
    disk.Expands (g :: gs) := by
  intro p place q h hp hq
  simp only [mem_expand_wildcard hwild hsingle, mem_matching hdisk h hp]
  have hnext : ∀ {name r next}, disk.follow place [name] = .ok r →
      (Path.IsEntryName name ∧ next = (stem p).child name ∨
        (g.hasLeadingDot = true ∧ (name = "." ∨ name = "..")) ∧ next = p.child name) →
      ((∃ t ∈ disk.expand gs next, disk.locate t = .ok q) ↔
        ∃ rest, Glob.Fits gs rest ∧ (isHere p = true → Path.startsEmpty (name :: rest) = false) ∧
          disk.follow place (name :: rest) = .ok q) := by
    -- An entry is added to the stem of the path, but dots are added to the path itself.
    rintro name r next hr (⟨hname, rfl⟩ | ⟨⟨_, hdots⟩, rfl⟩)
    · exact ih.next hr (h.stem.child hname.2.2.2 hr) (Path.child_text_ne hname)
        (fun _ => hname.1) (Path.isHere_stem_child hp hname.2.2.2) hq
    · have hslash : '/' ∉ name.toList := by rcases hdots with rfl | rfl <;> decide
      have hne : name ≠ "" := by rcases hdots with rfl | rfl <;> decide
      refine ih.next hr (h.child hslash hr) (Path.child_text_ne_of_notMem hslash (Or.inl hp))
        (fun _ => hne) ?_ hq
      rw [Path.isHere_child hp hslash, or_iff_right hne]
  constructor
  · rintro ⟨t, ⟨next, ⟨name, hmatch, ⟨r, hr⟩, hname⟩, ht⟩, hlocate⟩
    obtain ⟨rest, hrest, hleads⟩ := (hnext hr hname).mp ⟨t, ht, hlocate⟩
    exact ⟨name :: rest, .wildcard hwild hsingle hmatch (hname.imp And.left And.left) hrest, hleads⟩
  · rintro ⟨pieces, hfits, hhere, hfollow⟩
    cases hfits with
    | literal hliteral =>
      rw [hwild] at hliteral
      cases hliteral
    | recursive hrecursive =>
      rw [hsingle] at hrecursive
      cases hrecursive
    | @wildcard _ _ name rest _ _ hmatch hpiece hrest =>
      obtain ⟨r, hr, _⟩ := follow_append_eq_ok.mp (List.singleton_append ▸ hfollow)
      obtain ⟨next, hname⟩ : ∃ next, Path.IsEntryName name ∧ next = (stem p).child name ∨
          (g.hasLeadingDot = true ∧ (name = "." ∨ name = "..")) ∧ next = p.child name := by
        rcases hpiece with hname | hdots
        · exact ⟨_, Or.inl ⟨hname, rfl⟩⟩
        · exact ⟨_, Or.inr ⟨hdots, rfl⟩⟩
      obtain ⟨t, ht, hlocate⟩ := (hnext hr hname).mpr ⟨rest, hrest, hhere, hfollow⟩
      exact ⟨t, ⟨next, ⟨name, hmatch, ⟨r, hr⟩, hname⟩, ht⟩, hlocate⟩

/-- Two stars at the end lead to every directory below. -/
theorem expandsBelow_nil (hdisk : disk.root.WellFormed) : disk.ExpandsBelow [] := by
  intro p place q h hp hq
  rw [expandBelow]
  constructor
  · rintro ⟨r, hr, hlocate⟩
    obtain ⟨⟨_, m⟩, hmem, rfl⟩ := List.mem_map.mp hr
    obtain ⟨names, hne, hm, rfl⟩ :=
      (mem_descendants_directoryAt hdisk h hp).mp (List.mem_filter.mp hmem).1
    obtain ⟨hstands, htext, _⟩ := h.below hdisk hne hm
    obtain rfl := (hstands.locate_eq_ok htext hq).mp hlocate
    have hnames := isEntryName_of_get?_append hdisk hm
    exact ⟨names, .nil hne hnames,
      (follow_names_eq_ok hne hnames).mpr ⟨rfl, sight_ne_nothing_of_get? hm⟩⟩
  · rintro ⟨names, hfits, hfollow⟩
    cases hfits with
    | nil hne hnames =>
      obtain ⟨rfl, _⟩ := (follow_names_eq_ok hne hnames).mp hfollow
      obtain ⟨es, hes⟩ := Node.sight_eq_directory.mp hq
      obtain ⟨hstands, htext, _⟩ := h.below hdisk hne hes
      refine ⟨(stem p).descend names, ?_, (hstands.locate_eq_ok htext hq).mpr rfl⟩
      refine List.mem_map.mpr ⟨(_, .directory es), List.mem_filter.mpr ⟨?_, rfl⟩, rfl⟩
      exact (mem_descendants_directoryAt hdisk h hp).mpr ⟨names, hne, hes, rfl⟩

/-- Two stars lead to where the components after them lead from below. -/
theorem ExpandsBelow.recursive {g : Glob} {gs : List Glob} (ih : disk.ExpandsBelow gs)
    (hrecursive : g.isRecursive = true) : disk.Expands (g :: gs) ∧ disk.ExpandsBelow (g :: gs) := by
  constructor
  · intro p place q h hp hq
    have hwild : g.literal? = none := by
      by_contra hliteral
      obtain ⟨name, hname⟩ := Option.ne_none_iff_exists'.mp hliteral
      rw [Glob.isRecursive_of_literal? hname] at hrecursive
      cases hrecursive
    have hexpand : disk.expand (g :: gs) p = disk.expandBelow gs p := by
      rw [expand, hwild]
      exact if_pos hrecursive
    rw [hexpand, ih h hp hq]
    refine exists_congr fun pieces => ?_
    rw [Glob.fits_recursive_iff hrecursive]
    exact and_congr_right fun hbelow =>
      (and_iff_right fun _ => Path.startsEmpty_of_fitsBelow hbelow).symm
  · intro p place q h hp hq
    rw [expandBelow, if_pos hrecursive, ih h hp hq]
    exact exists_congr fun pieces => and_congr_left' (Glob.fitsBelow_recursive_iff hrecursive).symm

/-- A component that follows two stars takes a step for each path below that ends in a name that it
matches. -/
theorem Expands.below (hdisk : disk.root.WellFormed) {g : Glob} {gs : List Glob}
    (ih : disk.Expands gs) (hsingle : g.isRecursive = false) : disk.ExpandsBelow (g :: gs) := by
  intro p place q h hp hq
  rw [expandBelow, hsingle, if_neg (by decide)]
  have hnamed : ∀ {front : List String} {name : String}, Path.IsEntryName name →
      (namedBy g ((stem p).descend (front ++ [name])) = true ↔ g.isMatch name = true) := by
    intro front name hname
    rw [Path.descend_concat, namedBy, Path.fileName?_of_pieces (Path.pieces_child _ hname) hname]
    rfl
  -- The last of the names that lead down is the one that is matched, and the others are skipped.
  constructor
  · rintro ⟨t, ht, hlocate⟩
    obtain ⟨r, hr, ht⟩ := List.mem_flatMap.mp ht
    obtain ⟨hr, hmatch⟩ := List.mem_filter.mp hr
    obtain ⟨⟨_, m⟩, hmem, rfl⟩ := List.mem_map.mp hr
    obtain ⟨names, hne, hm, rfl⟩ := (mem_descendants_directoryAt hdisk h hp).mp hmem
    obtain ⟨hstands, htext, _⟩ := h.below hdisk hne hm
    obtain ⟨rest, hrest, _, hfollow⟩ := (ih hstands htext hq).mp ⟨t, ht, hlocate⟩
    have hnames := isEntryName_of_get?_append hdisk hm
    have hdown : disk.follow place names = .ok (place ++ names) :=
      (follow_names_eq_ok hne hnames).mpr ⟨rfl, sight_ne_nothing_of_get? hm⟩
    obtain ⟨skipped, name, rfl⟩ := (List.eq_nil_or_concat' names).resolve_left hne
    obtain ⟨hskipped, hname⟩ := List.forall_mem_append.mp hnames
    have hname : Path.IsEntryName name := hname name List.mem_cons_self
    refine ⟨skipped ++ name :: rest,
      .within hsingle hskipped hname ((hnamed hname).mp hmatch) hrest, ?_⟩
    rw [List.append_cons]
    exact follow_append_eq_ok.mpr ⟨_, hdown, hfollow⟩
  · rintro ⟨pieces, hfits, hfollow⟩
    cases hfits with
    | recursive hrecursive =>
      rw [hsingle] at hrecursive
      cases hrecursive
    | @within _ _ skipped name rest _ hskipped hname hmatch hrest =>
      rw [List.append_cons] at hfollow
      have hne : skipped ++ [name] ≠ [] := by simp
      have hnames : ∀ x ∈ skipped ++ [name], Path.IsEntryName x :=
        List.forall_mem_append.mpr ⟨hskipped, by simpa using hname⟩
      obtain ⟨r, hr, hfollow⟩ := follow_append_eq_ok.mp hfollow
      obtain ⟨rfl, hthere⟩ := (follow_names_eq_ok hne hnames).mp hr
      rw [sight, ne_eq, Node.sight_eq_nothing, ← ne_eq, Option.ne_none_iff_exists'] at hthere
      obtain ⟨m, hm⟩ := hthere
      obtain ⟨hstands, htext, hhere⟩ := h.below hdisk hne hm
      obtain ⟨t, ht, hlocate⟩ :=
        (ih hstands htext hq).mpr ⟨rest, hrest, fun htrue => by simp [hhere] at htrue, hfollow⟩
      refine ⟨t, List.mem_flatMap.mpr ⟨_, List.mem_filter.mpr ⟨?_, (hnamed hname).mpr hmatch⟩, ht⟩,
        hlocate⟩
      exact List.mem_map_of_mem ((mem_descendants_directoryAt hdisk h hp).mpr ⟨_, hne, hm, rfl⟩)

/-- Components lead to the directories that pieces lead to which fit them. -/
theorem expands (hdisk : disk.root.WellFormed) {gs : List Glob}
    (hgs : ∀ g ∈ gs, ∀ name, g.literal? = some name → '/' ∉ name.toList) :
    disk.Expands gs ∧ disk.ExpandsBelow gs := by
  -- Two stars lead from the first statement to the second, and the component after them back.
  induction gs with
  | nil => exact ⟨expands_nil disk, expandsBelow_nil hdisk⟩
  | cons g gs ih =>
    obtain ⟨hg, hrest⟩ := List.forall_mem_cons.mp hgs
    obtain ⟨ihExpands, ihBelow⟩ := ih hrest
    by_cases hrecursive : g.isRecursive = true
    · exact ihBelow.recursive hrecursive
    · rw [Bool.not_eq_true] at hrecursive
      refine ⟨?_, ihExpands.below hdisk hrecursive⟩
      cases hliteral : g.literal? with
      | some name => exact ihExpands.literal hliteral (hg name hliteral)
      | none => exact ihExpands.wildcard hdisk hliteral hrecursive

end Disk

end PropCatalog
