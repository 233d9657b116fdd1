import PropCatalog.Proofs.Globbing
import PropCatalog.Settings.Check

/-!
# Directories that an include entry asks for

An include entry of a scan is joined to the base before it is expanded, so that the pieces of the
base are components of the pattern as well.  The directories that are walked are those that are
named by paths which fit the joined pattern (`Path.Fits`, `Disk.mem_glob?`).

A base without wildcards fits itself alone.  Then the paths that fit are the base joined with the
paths that fit the entry (`Path.fits_join_iff`).  Any other base may stand for other directories
than the one that it names.
-/

namespace PropCatalog

namespace Path

/-! ## Pieces -/

/-- Cutting keeps all characters but the slashes. -/
theorem flatten_cut (cs : List Char) : (cut cs).flatten = cs.filter (· != '/') := by
  induction cs with
  | nil => rfl
  | cons c cs ih =>
    obtain ⟨head, tail, hcs⟩ := List.exists_cons_of_ne_nil (cut_ne_nil cs)
    rw [hcs, List.flatten_cons] at ih
    rw [cut, hcs]
    split
    · next hc => simp [hc, ih]
    · next hc => simp [hc, ← ih]

/-- The characters of a path other than slashes are those of its pieces. -/
theorem exists_mem_pieces_iff {p : Path} {c : Char} :
    (∃ piece ∈ p.pieces, c ∈ piece.toList) ↔ c ∈ p.text.toList ∧ c ≠ '/' := by
  have hflat : c ∈ (cut p.text.toList).flatten ↔ c ∈ p.text.toList ∧ c ≠ '/' := by
    rw [flatten_cut, List.mem_filter, bne_iff_ne]
  rw [← hflat, List.mem_flatten]
  simp [pieces]

/-- What was cut at slashes is put together with slashes. -/
theorem intercalate_cut (cs : List Char) : ['/'].intercalate (cut cs) = cs := by
  induction cs with
  | nil => rfl
  | cons c cs ih =>
    obtain ⟨head, tail, hcs⟩ := List.exists_cons_of_ne_nil (cut_ne_nil cs)
    rw [hcs] at ih
    rw [cut, hcs]
    split
    · next hc => simp [List.intercalate_cons_cons, ih, hc]
    · cases tail <;> simp_all [List.intercalate_cons_cons]

/-- A path is known by its pieces. -/
theorem eq_of_pieces {p r : Path} (h : p.pieces = r.pieces) : p = r := by
  have hcut : cut p.text.toList = cut r.text.toList :=
    List.map_injective_iff.mpr (fun _ _ => String.ofList_injective) h
  have htext : p.text.toList = r.text.toList := by
    rw [← intercalate_cut p.text.toList, hcut, intercalate_cut]
  exact congrArg Path.mk (String.toList_injective htext)

/-- The pieces of a path without the empty one that stands for the root. -/
def bodyPieces (p : Path) : List String := if p.isAbsolute then p.pieces.tail else p.pieces

theorem bodyPieces_of_isAbsolute {p : Path} (h : p.isAbsolute = true) :
    p.pieces = "" :: p.bodyPieces := by
  rw [bodyPieces, if_pos h]
  obtain ⟨rest, hrest⟩ := List.head?_eq_some_iff.mp (head?_pieces_of_isAbsolute h)
  rw [hrest, List.tail_cons]

theorem bodyPieces_of_relative {p : Path} (h : p.isAbsolute = false) : p.bodyPieces = p.pieces := by
  rw [bodyPieces, h, if_neg (by decide)]

/-- A path is known by where it starts and by its other pieces. -/
theorem eq_of_bodyPieces {p r : Path} (habsolute : p.isAbsolute = r.isAbsolute)
    (h : p.bodyPieces = r.bodyPieces) : p = r := by
  apply eq_of_pieces
  cases hr : r.isAbsolute with
  | true => rw [bodyPieces_of_isAbsolute hr, bodyPieces_of_isAbsolute (habsolute.trans hr), h]
  | false => rw [← bodyPieces_of_relative hr, ← bodyPieces_of_relative (habsolute.trans hr), h]

/-- There is a relative path with any pieces that do not begin with an empty one. -/
theorem exists_relative {pieces : List String} (hslash : ∀ piece ∈ pieces, '/' ∉ piece.toList)
    (hne : pieces ≠ []) (hhead : pieces.head? ≠ some "") :
    ∃ p : Path, p.isAbsolute = false ∧ p.pieces = pieces := by
  have hpieces := pieces_intercalate_of_notMem hslash hne
  refine ⟨⟨"/".intercalate pieces⟩, ?_, hpieces⟩
  by_contra habsolute
  have hempty := head?_pieces_of_isAbsolute (Bool.eq_true_of_not_eq_false habsolute)
  rw [hpieces] at hempty
  exact hhead hempty

/-- There is an absolute path with any pieces after the first one. -/
theorem exists_absolute {pieces : List String} (hslash : ∀ piece ∈ pieces, '/' ∉ piece.toList)
    (hne : pieces ≠ []) : ∃ p : Path, p.isAbsolute = true ∧ p.bodyPieces = pieces := by
  have hpieces : (⟨"/".intercalate ("" :: pieces)⟩ : Path).pieces = "" :: pieces :=
    pieces_intercalate_of_notMem (List.forall_mem_cons.mpr ⟨by decide, hslash⟩) (by simp)
  have habsolute : (⟨"/".intercalate ("" :: pieces)⟩ : Path).isAbsolute = true := by
    obtain ⟨first, rest, rfl⟩ := List.exists_cons_of_ne_nil hne
    simp [isAbsolute, String.intercalate_cons_cons]
  refine ⟨_, habsolute, ?_⟩
  rw [bodyPieces, if_pos habsolute, hpieces, List.tail_cons]

/-! ## Components of joined patterns -/

/-- The components of a pattern are its front pieces, without the one that stands for the root. -/
theorem frontPieces_of_isAbsolute {p : Path} (h : p.isAbsolute = true) :
    p.frontPieces = "" :: Disk.patternPieces p := by
  have hfront : p.frontPieces ≠ [] :=
    frontPieces_ne_nil fun hempty => by simp [isAbsolute, hempty] at h
  have hbody := bodyPieces_of_isAbsolute h
  rw [frontPieces, hbody] at hfront ⊢
  rw [Disk.patternPieces, ← bodyPieces]
  cases hcases : p.bodyPieces with
  | nil => simp [hcases] at hfront
  | cons first rest =>
    rw [List.getLast?_cons_cons, List.dropLast_cons_cons]
    simp only [beq_iff_eq]
    split <;> rfl

theorem frontPieces_of_relative {p : Path} (h : p.isAbsolute = false) :
    p.frontPieces = Disk.patternPieces p := by
  rw [Disk.patternPieces, ← bodyPieces, bodyPieces_of_relative h, frontPieces]
  simp only [beq_iff_eq]

theorem frontPieces_join (dir : Path) {p : Path} (hp : p.isAbsolute = false) :
    (dir.join p).frontPieces = dir.frontPieces ++ p.frontPieces := by
  obtain ⟨front, last, hpieces⟩ := (List.eq_nil_or_concat' p.pieces).resolve_left p.pieces_ne_nil
  have hjoin := pieces_join dir hp
  rw [hpieces, ← List.append_assoc] at hjoin
  rw [frontPieces_of_pieces hjoin, frontPieces_of_pieces hpieces]
  split
  · rfl
  · rw [List.append_assoc]

/-- Joining puts the components of the directory before those of the path. -/
theorem patternPieces_join (dir : Path) {p : Path} (hp : p.isAbsolute = false) :
    Disk.patternPieces (dir.join p) = Disk.patternPieces dir ++ Disk.patternPieces p := by
  have hfront := frontPieces_join dir hp
  have habsolute := isAbsolute_join dir hp
  cases hdir : dir.isAbsolute with
  | true =>
    rw [frontPieces_of_isAbsolute (habsolute.trans hdir), frontPieces_of_isAbsolute hdir,
      frontPieces_of_relative hp] at hfront
    exact (List.cons.inj hfront).2
  | false =>
    rwa [frontPieces_of_relative (habsolute.trans hdir), frontPieces_of_relative hdir,
      frontPieces_of_relative hp] at hfront

theorem bodyPieces_join (dir : Path) {p : Path} (hp : p.isAbsolute = false) :
    (dir.join p).bodyPieces = Disk.patternPieces dir ++ p.pieces := by
  have hpieces := pieces_join dir hp
  have habsolute := isAbsolute_join dir hp
  cases hdir : dir.isAbsolute with
  | true =>
    rw [bodyPieces_of_isAbsolute (habsolute.trans hdir), frontPieces_of_isAbsolute hdir] at hpieces
    exact (List.cons.inj hpieces).2
  | false =>
    rwa [← bodyPieces_of_relative (habsolute.trans hdir), frontPieces_of_relative hdir] at hpieces

/-- Every piece of a pattern that is not empty is a component. -/
theorem mem_patternPieces {p : Path} {piece : String} (h : piece ∈ p.pieces) (hne : piece ≠ "") :
    piece ∈ Disk.patternPieces p := by
  have hfront : piece ∈ p.frontPieces := by
    rcases pieces_eq_frontPieces p with hpieces | hpieces <;> rw [hpieces] at h
    · exact h
    · exact (List.mem_append.mp h).resolve_right (by simpa using hne)
  cases hp : p.isAbsolute with
  | true =>
    rw [frontPieces_of_isAbsolute hp] at hfront
    exact (List.mem_cons.mp hfront).resolve_left hne
  | false => rwa [frontPieces_of_relative hp] at hfront

theorem mem_pieces_of_mem_patternPieces {p : Path} {piece : String}
    (h : piece ∈ Disk.patternPieces p) : piece ∈ p.pieces := by
  have hfront : piece ∈ p.frontPieces := by
    cases hp : p.isAbsolute with
    | true =>
      rw [frontPieces_of_isAbsolute hp]
      exact List.mem_cons_of_mem _ h
    | false => rwa [frontPieces_of_relative hp]
  rcases pieces_eq_frontPieces p with hpieces | hpieces <;> rw [hpieces]
  · exact hfront
  · exact List.mem_append_left _ hfront

theorem notMem_of_mem_patternPieces {p : Path} :
    ∀ piece ∈ Disk.patternPieces p, '/' ∉ piece.toList :=
  fun _ h => notMem_of_mem_pieces (mem_pieces_of_mem_patternPieces h)

/-- The pieces of a path are among those of every path that it is joined to. -/
theorem mem_pieces_join {dir p : Path} {piece : String} (h : piece ∈ p.pieces) :
    piece ∈ (dir.join p).pieces := by
  cases hp : p.isAbsolute with
  | true => rwa [join_of_isAbsolute hp]
  | false =>
    rw [pieces_join dir hp]
    exact List.mem_append_right _ h

/-! ## Paths that fit -/

/-- A path fits a pattern for paths: both start at the root or neither does, and the other pieces of
the path fit the components of the pattern. -/
def Fits (p pattern : Path) : Prop :=
  p.isAbsolute = pattern.isAbsolute ∧
    ∃ gs, (Disk.patternPieces pattern).mapM Glob.compile? = some gs ∧ Glob.Fits gs p.bodyPieces

/-- Whether a relative path has an empty piece before any piece but dots.  No expansion gets past
such a piece. -/
def stalls (p : Path) : Bool := !p.isAbsolute && startsEmpty p.pieces

theorem stalls_eq_false {p : Path} :
    p.stalls = false ↔ (p.isAbsolute = false → startsEmpty p.bodyPieces = false) := by
  rw [stalls]
  cases h : p.isAbsolute with
  | true => simp
  | false => simp [bodyPieces_of_relative h]

/-- There is a path with any pieces that need not stall. -/
theorem exists_path {absolute : Bool} {pieces : List String}
    (hslash : ∀ piece ∈ pieces, '/' ∉ piece.toList) (hne : pieces ≠ [])
    (hstall : absolute = false → startsEmpty pieces = false) :
    ∃ p : Path, p.isAbsolute = absolute ∧ p.bodyPieces = pieces := by
  cases absolute with
  | true => exact exists_absolute hslash hne
  | false =>
    have hhead : pieces.head? ≠ some "" := by
      intro hempty
      obtain ⟨rest, rfl⟩ := List.head?_eq_some_iff.mp hempty
      exact (startsEmpty_cons_eq_false.mp (hstall rfl)).1 rfl
    obtain ⟨p, hrelative, hpieces⟩ := exists_relative hslash hne hhead
    exact ⟨p, hrelative, by rw [bodyPieces_of_relative hrelative, hpieces]⟩

end Path

namespace Glob

/-- The literals among the components of a pattern have no slashes. -/
theorem notMem_of_literal? {pieces : List String} {gs : List Glob}
    (hpieces : ∀ piece ∈ pieces, '/' ∉ piece.toList) (h : pieces.mapM compile? = some gs) :
    ∀ g ∈ gs, ∀ name, g.literal? = some name → '/' ∉ name.toList := by
  have hcompiled := mapM_eq_some_iff.mp h
  clear h
  induction hcompiled with
  | nil => simp
  | cons hg _ ih =>
    obtain ⟨hpiece, hrest⟩ := List.forall_mem_cons.mp hpieces
    refine List.forall_mem_cons.mpr ⟨fun name hname => ?_, ih hrest⟩
    rwa [eq_of_literal? hg hname]

/-- What fits has no slashes. -/
theorem notMem_of_fits {gs : List Glob}
    (hgs : ∀ g ∈ gs, ∀ name, g.literal? = some name → '/' ∉ name.toList) :
    (∀ pieces, Fits gs pieces → ∀ piece ∈ pieces, '/' ∉ piece.toList) ∧
      ∀ pieces, FitsBelow gs pieces → ∀ piece ∈ pieces, '/' ∉ piece.toList := by
  -- Either relation leads to the other for fewer components, so both are shown together.
  induction gs with
  | nil =>
    constructor
    · intro pieces h
      cases h
      simp
    · intro pieces h
      cases h with
      | nil _ hnames => exact fun name hname => (hnames name hname).2.2.2
  | cons g gs ih =>
    obtain ⟨hg, hrest⟩ := List.forall_mem_cons.mp hgs
    obtain ⟨ihFits, ihBelow⟩ := ih hrest
    constructor
    · intro pieces h
      cases h with
      | literal hliteral hrest =>
        exact List.forall_mem_cons.mpr ⟨hg _ hliteral, ihFits _ hrest⟩
      | wildcard _ _ _ hpiece hrest =>
        refine List.forall_mem_cons.mpr ⟨?_, ihFits _ hrest⟩
        rcases hpiece with hname | ⟨_, rfl | rfl⟩
        · exact hname.2.2.2
        · decide
        · decide
      | recursive _ hbelow => exact ihBelow pieces hbelow
    · intro pieces h
      cases h with
      | recursive _ hbelow => exact ihBelow pieces hbelow
      | within _ hskipped hname _ hrest =>
        exact List.forall_mem_append.mpr ⟨fun x hx => (hskipped x hx).2.2.2,
          List.forall_mem_cons.mpr ⟨hname.2.2.2, ihFits _ hrest⟩⟩

/-- What fits a pattern has a first piece, which is empty only if the first component is. -/
theorem exists_cons_of_fits {texts pieces : List String} {gs : List Glob} (hne : texts ≠ [])
    (hgs : texts.mapM compile? = some gs) (h : Fits gs pieces) :
    ∃ piece rest, pieces = piece :: rest ∧ (texts.head? ≠ some "" → piece ≠ "") := by
  cases mapM_eq_some_iff.mp hgs with
  | nil => exact absurd rfl hne
  | cons hg _ =>
    cases h with
    | @literal _ _ piece rest hliteral _ =>
      refine ⟨piece, rest, rfl, fun hhead hempty => hhead ?_⟩
      rw [← eq_of_literal? hg hliteral, hempty]
      rfl
    | @wildcard _ _ piece rest _ _ _ hpiece _ =>
      refine ⟨piece, rest, rfl, fun _ => ?_⟩
      rcases hpiece with hname | ⟨_, rfl | rfl⟩
      · exact hname.1
      · decide
      · decide
    | recursive _ hbelow =>
      obtain ⟨name, rest, rfl, hname⟩ := hbelow.exists_cons
      exact ⟨name, rest, rfl, fun _ => hname.1⟩

/-- Texts without wildcards are compiled to their literals. -/
theorem exists_literals {texts : List String} (h : ∀ text ∈ texts, IsPlain text) :
    ∃ ls, texts.mapM compile? = some ls ∧
      List.Forall₂ (fun g name => g.literal? = some name) ls texts := by
  induction texts with
  | nil => exact ⟨[], rfl, .nil⟩
  | cons text texts ih =>
    obtain ⟨htext, hrest⟩ := List.forall_mem_cons.mp h
    obtain ⟨g, hg, hliteral⟩ := exists_compile?_of_isPlain htext
    obtain ⟨ls, hls, hliterals⟩ := ih hrest
    exact ⟨g :: ls, by simp [hg, hls], .cons hliteral hliterals⟩

end Glob

namespace Path

theorem isPlain_of_mem_pieces {p : Path} (h : Glob.IsPlain p.text) {piece : String}
    (hpiece : piece ∈ p.pieces) : Glob.IsPlain piece :=
  fun c hc => h c (exists_mem_pieces_iff.mp ⟨piece, hpiece, hc⟩).1

/-- A relative path begins with a piece that is not empty, unless it is empty itself. -/
theorem head?_pieces_of_relative {p : Path} (h : p.isAbsolute = false) (hp : p.text ≠ "") :
    p.pieces.head? ≠ some "" := by
  cases hlist : p.text.toList with
  | nil => exact absurd (by simpa using hlist) hp
  | cons c cs =>
    have hc : c ≠ '/' := by
      rintro rfl
      simp [isAbsolute, hlist] at h
    obtain ⟨head, tail, hcs⟩ := List.exists_cons_of_ne_nil (cut_ne_nil cs)
    simp [pieces, hlist, cut, hc, hcs]

theorem patternPieces_of_relative {p : Path} (h : p.isAbsolute = false) (hp : p.text ≠ "") :
    Disk.patternPieces p ≠ [] ∧ (Disk.patternPieces p).head? ≠ some "" := by
  rw [← frontPieces_of_relative h]
  refine ⟨frontPieces_ne_nil hp, fun hempty => head?_pieces_of_relative h hp ?_⟩
  rcases pieces_eq_frontPieces p with hpieces | hpieces <;> rw [hpieces]
  · exact hempty
  · rw [List.head?_append, hempty]
    rfl

/-- What fits an entry that is joined to a directory without wildcards is the directory joined with
what fits the entry. -/
theorem fits_join_iff {dir entry p : Path} (hdir : Glob.IsPlain dir.text)
    (hentry : entry.text ≠ "") :
    p.Fits (dir.join entry) ↔ ∃ rel : Path, rel.Fits entry ∧ p = dir.join rel := by
  cases habsolute : entry.isAbsolute with
  | true =>
    rw [join_of_isAbsolute habsolute]
    constructor
    · intro h
      exact ⟨p, h, (join_of_isAbsolute (h.1.trans habsolute)).symm⟩
    · rintro ⟨rel, h, rfl⟩
      rwa [join_of_isAbsolute (h.1.trans habsolute)]
  | false =>
    -- The components of the directory are literals, so they fit its pieces and nothing else.
    obtain ⟨ls, hls, hliterals⟩ := Glob.exists_literals fun piece hpiece =>
      isPlain_of_mem_pieces hdir (mem_pieces_of_mem_patternPieces hpiece)
    have hcomponents : ∀ gs, (Disk.patternPieces (dir.join entry)).mapM Glob.compile? = some gs ↔
        ∃ rest, (Disk.patternPieces entry).mapM Glob.compile? = some rest ∧ gs = ls ++ rest := by
      intro gs
      rw [patternPieces_join dir habsolute, List.mapM_append, hls]
      cases (Disk.patternPieces entry).mapM Glob.compile? <;> simp [eq_comm]
    rw [Fits, isAbsolute_join dir habsolute]
    simp only [hcomponents]
    constructor
    · rintro ⟨hp, _, ⟨gs, hgs, rfl⟩, hfits⟩
      obtain ⟨rest, hbody, hrest⟩ := (Glob.fits_append_of_literals hliterals).mp hfits
      obtain ⟨hne, hhead⟩ := patternPieces_of_relative habsolute hentry
      have hslash : ∀ piece ∈ rest, '/' ∉ piece.toList :=
        (Glob.notMem_of_fits (Glob.notMem_of_literal? notMem_of_mem_patternPieces hgs)).1 rest hrest
      obtain ⟨piece, others, rfl, hpiece⟩ := Glob.exists_cons_of_fits hne hgs hrest
      -- What is left does not begin with an empty piece, as the entry does not, and so is a path.
      obtain ⟨rel, hrelative, hpieces⟩ :=
        exists_relative hslash (by simp) (by simpa using hpiece hhead)
      refine ⟨rel, ⟨hrelative.trans habsolute.symm, gs, hgs, ?_⟩, eq_of_bodyPieces ?_ ?_⟩
      · rwa [bodyPieces_of_relative hrelative, hpieces]
      · rw [isAbsolute_join dir hrelative, hp]
      · rw [bodyPieces_join dir hrelative, hpieces, hbody]
    · rintro ⟨rel, ⟨hrel, gs, hgs, hfits⟩, rfl⟩
      have hrelative := hrel.trans habsolute
      rw [bodyPieces_of_relative hrelative] at hfits
      refine ⟨isAbsolute_join dir hrelative, ls ++ gs, ⟨gs, hgs, rfl⟩, ?_⟩
      rw [bodyPieces_join dir hrelative, Glob.fits_append_of_literals hliterals]
      exact ⟨rel.pieces, rfl, hfits⟩

end Path

namespace Disk

variable {disk : Disk}

/-- A path that does not stall leads where its pieces lead, the one for the root apart. -/
theorem locate_of_bodyPieces {p : Path} (hne : p.bodyPieces ≠ []) (hstall : p.stalls = false) :
    disk.locate p = disk.follow (disk.origin p) p.bodyPieces := by
  have hp : p.text ≠ "" := by
    intro hempty
    rw [show p = ⟨""⟩ from congrArg Path.mk hempty] at hstall
    cases hstall
  rw [locate_of_ne hp]
  cases habsolute : p.isAbsolute with
  | true => rw [Path.bodyPieces_of_isAbsolute habsolute, follow_idle (Or.inl rfl) _ hne]
  | false => rw [Path.bodyPieces_of_relative habsolute]

/-- Where the expansion of a pattern starts. -/
def globStart (pattern : Path) : Path := if pattern.isAbsolute then ⟨"/"⟩ else ⟨"."⟩

theorem stands_globStart (disk : Disk) (pattern : Path) :
    disk.Stands (globStart pattern) (disk.origin pattern) := by
  rw [globStart, origin]
  split
  · exact stands_root disk
  · exact stands_here disk

theorem globStart_text_ne (pattern : Path) : (globStart pattern).text ≠ "" := by
  rw [globStart]
  split <;> decide

theorem isHere_globStart (pattern : Path) :
    isHere (globStart pattern) = true ↔ pattern.isAbsolute = false := by
  rw [globStart]
  cases pattern.isAbsolute <;> decide

/-- A pattern is expanded if its components are patterns. -/
theorem glob?_eq_some {pattern : Path} (hne : patternPieces pattern ≠ []) {gs : List Glob}
    (hgs : (patternPieces pattern).mapM Glob.compile? = some gs) :
    disk.glob? pattern = some ((disk.expand gs (globStart pattern)).filter disk.isDirectory) := by
  have hcompiles : ∀ piece ∈ pattern.pieces, ∃ g, Glob.compile? piece = some g := by
    intro piece hpiece
    by_cases hempty : piece = ""
    · exact ⟨⟨[]⟩, hempty ▸ rfl⟩
    · exact Glob.forall_of_mapM_eq_some hgs piece (Path.mem_patternPieces hpiece hempty)
  obtain ⟨whole, hwhole⟩ := Glob.compile?_of_pieces hcompiles
  have hlength := (Glob.mapM_eq_some_iff.mp hgs).length_eq
  have hgsne : gs ≠ [] := by
    rintro rfl
    exact hne (List.eq_nil_of_length_eq_zero hlength)
  simp [glob?, hwhole, hgs, hgsne, globStart]

theorem glob?_eq_none {pattern : Path}
    (h : (patternPieces pattern).mapM Glob.compile? = none) : disk.glob? pattern = none := by
  rw [glob?, h]
  cases Glob.compile? pattern.text <;> rfl

/-- A pattern names the directories that are named by paths which fit it. -/
theorem mem_glob? (hdisk : disk.root.WellFormed) {pattern : Path}
    (hne : patternPieces pattern ≠ []) {q : List String} :
    (∃ root ∈ (disk.glob? pattern).getD [], disk.locate root = .ok q) ↔
      disk.sight q = .directory ∧
        ∃ p : Path, p.Fits pattern ∧ p.stalls = false ∧ disk.locate p = .ok q := by
  cases hgs : (patternPieces pattern).mapM Glob.compile? with
  | none => simp [glob?_eq_none hgs, Path.Fits, hgs]
  | some gs =>
    have hliterals := Glob.notMem_of_literal? Path.notMem_of_mem_patternPieces hgs
    have hexpand : disk.sight q = .directory →
        ((∃ root ∈ disk.expand gs (globStart pattern), disk.locate root = .ok q) ↔
          ∃ pieces, Glob.Fits gs pieces ∧
            (pattern.isAbsolute = false → Path.startsEmpty pieces = false) ∧
            disk.follow (disk.origin pattern) pieces = .ok q) := by
      intro hq
      rw [(expands hdisk hliterals).1 (stands_globStart disk pattern) (globStart_text_ne pattern)
        hq]
      simp only [isHere_globStart]
    have hfitsne : ∀ pieces, Glob.Fits gs pieces → pieces ≠ [] := by
      intro pieces hfits
      obtain ⟨piece, rest, rfl, _⟩ := Glob.exists_cons_of_fits hne hgs hfits
      simp
    have horigin : ∀ p : Path, p.isAbsolute = pattern.isAbsolute →
        disk.origin p = disk.origin pattern := fun p h => by rw [origin, origin, h]
    rw [glob?_eq_some hne hgs, Option.getD_some]
    constructor
    · rintro ⟨root, hroot, hlocate⟩
      obtain ⟨hroot, hdirectory⟩ := List.mem_filter.mp hroot
      have hq : disk.sight q = .directory := by
        obtain ⟨place, hplace, hsight⟩ := isDirectory_iff_locate.mp hdirectory
        rwa [Except.ok.inj (hlocate.symm.trans hplace)]
      obtain ⟨pieces, hfits, hstall, hfollow⟩ := (hexpand hq).mp ⟨root, hroot, hlocate⟩
      -- The pieces make up a path: relative ones do not begin with an empty one.
      obtain ⟨p, habsolute, rfl⟩ := Path.exists_path
        ((Glob.notMem_of_fits hliterals).1 pieces hfits) (hfitsne pieces hfits) hstall
      have hstall : p.stalls = false := Path.stalls_eq_false.mpr (habsolute ▸ hstall)
      refine ⟨hq, p, ⟨habsolute, gs, hgs, hfits⟩, hstall, ?_⟩
      rw [locate_of_bodyPieces (hfitsne _ hfits) hstall, horigin p habsolute, hfollow]
    · rintro ⟨hq, p, ⟨habsolute, gs', hgs', hfits⟩, hstall, hlocate⟩
      obtain rfl : gs = gs' := Option.some.inj (hgs.symm.trans hgs')
      rw [locate_of_bodyPieces (hfitsne _ hfits) hstall, horigin p habsolute] at hlocate
      obtain ⟨root, hroot, hlocate⟩ := (hexpand hq).mpr
        ⟨p.bodyPieces, hfits, habsolute ▸ Path.stalls_eq_false.mp hstall, hlocate⟩
      have hdirectory := isDirectory_iff_locate.mpr ⟨q, hlocate, hq⟩
      exact ⟨root, List.mem_filter.mpr ⟨hroot, hdirectory⟩, hlocate⟩

/-! ## Include entries -/

/-- A pattern that a wildcard stands in has a component. -/
theorem patternPieces_join_ne_nil (base : Path) {entry : String}
    (h : Glob.hasWildcard entry = true) : patternPieces (base.join ⟨entry⟩) ≠ [] := by
  obtain ⟨c, hc, hwild⟩ := List.any_eq_true.mp h
  have hslash : c ≠ '/' := by
    rintro rfl
    exact absurd hwild (by decide)
  obtain ⟨piece, hpiece, hmem⟩ := Path.exists_mem_pieces_iff.mpr ⟨hc, hslash⟩
  have hne : piece ≠ "" := by
    rintro rfl
    cases hmem
  exact List.ne_nil_of_mem (Path.mem_patternPieces (Path.mem_pieces_join hpiece) hne)

/-- For an include entry with wildcards, a scan walks the directories that are named by paths which
fit the base joined with the entry, so that the base is read as a pattern too.  If no character of
the base has a meaning in patterns, these are the directories that are named by the base joined with
a path which fits the entry. -/
theorem includeRoots_iff (hdisk : disk.root.WellFormed) (base : Path) {entry : String}
    (hentry : Glob.hasWildcard entry = true) (q : List String) :
    ((∃ root ∈ disk.includeRoots base entry, disk.locate root = .ok q) ↔
      disk.sight q = .directory ∧
        ∃ p : Path, p.Fits (base.join ⟨entry⟩) ∧ p.stalls = false ∧ disk.locate p = .ok q) ∧
    (Glob.IsPlain base.text →
      ((∃ root ∈ disk.includeRoots base entry, disk.locate root = .ok q) ↔
        disk.sight q = .directory ∧
          ∃ rel : Path, rel.Fits ⟨entry⟩ ∧ (base.join rel).stalls = false ∧
            disk.locate (base.join rel) = .ok q)) := by
  have hroots : (∃ root ∈ disk.includeRoots base entry, disk.locate root = .ok q) ↔
      disk.sight q = .directory ∧
        ∃ p : Path, p.Fits (base.join ⟨entry⟩) ∧ p.stalls = false ∧ disk.locate p = .ok q := by
    rw [includeRoots, if_pos hentry, mem_glob? hdisk (patternPieces_join_ne_nil base hentry)]
  refine ⟨hroots, fun hbase => ?_⟩
  have hne : entry ≠ "" := by
    rintro rfl
    cases hentry
  have hjoin : ∀ p : Path, p.Fits (base.join ⟨entry⟩) ↔
      ∃ rel : Path, rel.Fits ⟨entry⟩ ∧ p = base.join rel := fun _ => Path.fits_join_iff hbase hne
  rw [hroots]
  refine and_congr_right fun _ => ?_
  simp only [hjoin]
  constructor
  · rintro ⟨_, ⟨rel, hfits, rfl⟩, hleads⟩
    exact ⟨rel, hfits, hleads⟩
  · rintro ⟨rel, hfits, hleads⟩
    exact ⟨_, ⟨rel, hfits, rfl⟩, hleads⟩

/-- A directory whose name is a set, next to one that the set admits. -/
def locales : Disk :=
  ⟨.directory [("app", .directory [
    ("[locale]", .directory [("ui", .directory [("A.jsx", .file (.text ""))])]),
    ("l", .directory [("x", .directory [("B.jsx", .file (.text ""))])])])], []⟩

theorem wellFormed_locales : locales.root.WellFormed := by
  have hA : (Node.directory [("A.jsx", .file (.text ""))]).WellFormed :=
    .directory (by decide) (by decide) (by simpa using .file _)
  have hB : (Node.directory [("B.jsx", .file (.text ""))]).WellFormed :=
    .directory (by decide) (by decide) (by simpa using .file _)
  have hui : (Node.directory [("ui", .directory [("A.jsx", .file (.text ""))])]).WellFormed :=
    .directory (by decide) (by decide) (by simpa using hA)
  have hx : (Node.directory [("x", .directory [("B.jsx", .file (.text ""))])]).WellFormed :=
    .directory (by decide) (by decide) (by simpa using hB)
  exact .directory (by decide) (by decide)
    (by simpa using .directory (by decide) (by decide) (by simpa using ⟨hui, hx⟩))

/-- Under a plain base the names of one letter are walked.  Under a base that is a set no path that
fits leads to the directory of that name, and one leads to what the set admits. -/
theorem includeRoots_iff_locales :
    locales.root.WellFormed ∧ Glob.hasWildcard "?" = true ∧ Glob.hasWildcard "*" = true ∧
    Glob.IsPlain "app" ∧
    (∃ rel : Path, rel.Fits ⟨"?"⟩ ∧ ((⟨"app"⟩ : Path).join rel).stalls = false ∧
      locales.locate ((⟨"app"⟩ : Path).join rel) = .ok ["app", "l"]) ∧
    (∃ p : Path, p.Fits ⟨"app/[locale]/*"⟩ ∧ p.stalls = false ∧
      locales.locate p = .ok ["app", "l", "x"]) ∧
    ¬ ∃ p : Path, p.Fits ⟨"app/[locale]/*"⟩ ∧ p.stalls = false ∧
      locales.locate p = .ok ["app", "[locale]", "ui"] := by
  have hplain : Glob.IsPlain "app" := by simp [Glob.IsPlain]
  have hletter : Glob.hasWildcard "?" = true := by decide
  have hstar : Glob.hasWildcard "*" = true := by decide
  have hbelow := (includeRoots_iff wellFormed_locales ⟨"app"⟩ hletter ["app", "l"]).2 hplain
  have hset := includeRoots_iff wellFormed_locales ⟨"app/[locale]"⟩ hstar
  refine ⟨wellFormed_locales, hletter, hstar, hplain, ?_, ?_, ?_⟩
  · exact (hbelow.mp ⟨⟨"app/l"⟩, by decide, rfl⟩).2
  · exact ((hset ["app", "l", "x"]).1.mp ⟨⟨"app/l/x"⟩, by decide, rfl⟩).2
  · intro hfits
    obtain ⟨root, hroot, hlocate⟩ := (hset ["app", "[locale]", "ui"]).1.mpr ⟨by decide, hfits⟩
    have hroots : locales.includeRoots ⟨"app/[locale]"⟩ "*" = [⟨"app/l/x"⟩] := by decide
    have hplace : locales.locate ⟨"app/l/x"⟩ = .ok ["app", "l", "x"] := rfl
    rw [hroots, List.mem_singleton] at hroot
    rw [hroot, hplace] at hlocate
    exact absurd (Except.ok.inj hlocate) (by decide)

/-- The settings with the entry are accepted, and the path `ui` fits it and leads from the base to a
directory.  The scan does not walk that directory but one that is not below the base. -/
theorem includeRoots_brackets :
    Settings.check { includes := ["*"] } = .ok { includes := ["*"] } ∧
    (⟨"ui"⟩ : Path).Fits ⟨"*"⟩ ∧ ((⟨"app/[locale]"⟩ : Path).join ⟨"ui"⟩).stalls = false ∧
    locales.locate ((⟨"app/[locale]"⟩ : Path).join ⟨"ui"⟩) = .ok ["app", "[locale]", "ui"] ∧
    locales.sight ["app", "[locale]", "ui"] = .directory ∧
    locales.includeRoots ⟨"app/[locale]"⟩ "*" = [⟨"app/l/x"⟩] ∧
    (locales.scan { base := ⟨"app/[locale]"⟩, includes := ["*"], ignoreTestFiles := false }).files =
      ["app/l/x/B.jsx"] := by
  refine ⟨rfl, ⟨rfl, [⟨[.anySequence]⟩], rfl, ?_⟩, rfl, rfl, by decide, by decide, by decide⟩
  exact .wildcard rfl rfl (by decide) (Or.inl (by decide)) .nil

end Disk

end PropCatalog
