import PropCatalog.Files.Disk
import PropCatalog.Proofs.Paths

/-!
# What there is at a place

A place is given by the names that lead to it from the root.  What a disk shows at a place is
nothing, a directory, or a file with its content (`Node.sight`).  Everything that is done with a path
is decided by the sights of the disk: following it (`Disk.follow_cons`), reading, and writing.

Writing a file changes one sight, and so does making a directory (`Node.sight_insert_file`,
`Node.sight_insert_directory`).  A disk that was written to still shows every directory, and a file
at every place where one was (`Disk.Grows`); on such a disk a path that led somewhere leads to the
same place (`Disk.Grows.follow`).
-/

namespace PropCatalog

/-- What there is at a place, without what is below it. -/
inductive Sight where
  | nothing
  | directory
  | file (content : Content)
deriving DecidableEq, Repr

namespace Node

/-- To prove something of every node, prove it of files and of directories whose entries have it. -/
@[elab_as_elim]
theorem induction {motive : Node → Prop} (file : ∀ c, motive (.file c))
    (directory : ∀ es, (∀ e ∈ es, motive e.2) → motive (.directory es)) (n : Node) : motive n :=
  @Node.rec motive (fun es => ∀ e ∈ es, motive e.2) (fun e => motive e.2) file directory
    (fun _ h => absurd h List.not_mem_nil)
    (fun _ _ head tail => List.forall_mem_cons.2 ⟨head, tail⟩) (fun _ _ h => h) n

theorem get?_append (n : Node) (xs ys : List String) :
    n.get? (xs ++ ys) = (n.get? xs).bind (get? ys) := by
  induction xs generalizing n with
  | nil => rfl
  | cons x xs ih =>
    rw [List.cons_append, get?, get?]
    cases n.entries.lookup x with
    | none => rfl
    | some m => exact ih m

theorem get?_concat (n : Node) (place : List String) (name : String) :
    n.get? (place ++ [name]) = (n.get? place).bind fun m => m.entries.lookup name := by
  rw [get?_append]
  congr 1
  funext m
  rw [get?]
  cases m.entries.lookup name <;> rfl

/-- What a node shows by itself. -/
def asSight : Node → Sight
  | .file c => .file c
  | .directory _ => .directory

/-- What there is at a place below a node. -/
def sight (n : Node) (place : List String) : Sight :=
  match n.get? place with
  | none => .nothing
  | some m => m.asSight

theorem sight_eq_directory {n : Node} {place : List String} :
    n.sight place = .directory ↔ ∃ es, n.get? place = some (.directory es) := by
  unfold sight
  cases n.get? place with
  | none => simp
  | some m => cases m <;> simp [asSight]

theorem sight_eq_file {n : Node} {place : List String} {c : Content} :
    n.sight place = .file c ↔ n.get? place = some (.file c) := by
  unfold sight
  cases n.get? place with
  | none => simp
  | some m => cases m <;> simp [asSight]

theorem sight_eq_nothing {n : Node} {place : List String} :
    n.sight place = .nothing ↔ n.get? place = none := by
  unfold sight
  cases n.get? place with
  | none => simp
  | some m => cases m <;> simp [asSight]

theorem sight_nil (n : Node) : n.sight [] = n.asSight := rfl

theorem sight_cons (es : List (String × Node)) (name : String) (place : List String) :
    (directory es).sight (name :: place) =
      match es.lookup name with
      | none => .nothing
      | some m => m.sight place := by
  unfold sight
  rw [get?, entries]
  cases es.lookup name <;> rfl

theorem sight_file_cons (c : Content) (name : String) (place : List String) :
    (file c).sight (name :: place) = .nothing := rfl

theorem sight_append (n : Node) (xs ys : List String) :
    n.sight (xs ++ ys) = match n.get? xs with
      | none => .nothing
      | some m => m.sight ys := by
  unfold sight
  rw [get?_append]
  cases n.get? xs <;> rfl

/-- Only in a directory there is anything. -/
theorem sight_eq_directory_of_append {n : Node} {place rest : List String} (hrest : rest ≠ [])
    (h : n.sight (place ++ rest) ≠ .nothing) : n.sight place = .directory := by
  rw [sight_append] at h
  unfold sight
  cases hplace : n.get? place with
  | none => simp [hplace] at h
  | some m =>
    rw [hplace] at h
    cases m with
    | directory es => rfl
    | file c =>
      cases rest with
      | nil => exact absurd rfl hrest
      | cons name rest => exact absurd (sight_file_cons c name rest) h

/-! ## Inserting -/

/-- A node put in the place of one that is there. -/
theorem sight_insert (new : Node) {n old : Node} {place : List String}
    (hold : n.get? place = some old) (r : List String) :
    (n.insert place new).sight r =
      if place <+: r then new.sight (r.drop place.length) else n.sight r := by
  induction place generalizing n r with
  | nil => simp [insert]
  | cons name place ih =>
    cases n with
    | file c => simp [get?, entries] at hold
    | directory es =>
      obtain ⟨child, hchild, hrest⟩ := Option.bind_eq_some_iff.mp hold
      change es.lookup name = some child at hchild
      rw [insert, hchild, Option.getD_some]
      cases r with
      | nil => simp [sight_nil, asSight]
      | cons other r =>
        rw [sight_cons, sight_cons]
        by_cases hother : other = name
        · subst hother
          rw [lookup_setEntry_self, hchild]
          dsimp only
          rw [ih hrest]
          simp [List.cons_prefix_cons]
        · rw [lookup_setEntry_of_ne hother, if_neg]
          rw [List.cons_prefix_cons]
          exact fun h => hother h.1.symm

/-- What is inserted in a directory becomes an entry of it. -/
theorem insert_concat (new : Node) {n : Node} {place : List String} {es : List (String × Node)}
    (hplace : n.get? place = some (.directory es)) (name : String) :
    n.insert (place ++ [name]) new = n.insert place (.directory (setEntry name new es)) := by
  induction place generalizing n with
  | nil =>
    obtain rfl : n = .directory es := Option.some.inj hplace
    simp [insert]
  | cons first place ih =>
    cases n with
    | file c => simp [get?, entries] at hplace
    | directory fs =>
      obtain ⟨child, hchild, hrest⟩ := Option.bind_eq_some_iff.mp hplace
      change fs.lookup first = some child at hchild
      rw [List.cons_append, insert, insert, hchild, Option.getD_some, ih hrest]

variable {n : Node} {place : List String} {name : String}

/-- Below the new entry of a directory there is what is below the inserted node; elsewhere there is
what was there before. -/
theorem sight_insert_concat (new : Node) (hplace : n.sight place = .directory)
    (r : List String) :
    (n.insert (place ++ [name]) new).sight r =
      if place ++ [name] <+: r then new.sight (r.drop (place ++ [name]).length)
      else n.sight r := by
  obtain ⟨es, hes⟩ := sight_eq_directory.mp hplace
  rw [insert_concat new hes, sight_insert _ hes]
  by_cases hprefix : place <+: r
  · obtain ⟨rest, rfl⟩ := hprefix
    rw [if_pos (List.prefix_append _ _), List.drop_left]
    simp only [List.prefix_append_right_inj]
    cases rest with
    | nil => simp [sight_nil, asSight, hplace]
    | cons other rest =>
      rw [sight_cons]
      simp only [List.cons_prefix_cons]
      by_cases hother : other = name
      · subst hother
        simp [lookup_setEntry_self]
      · rw [lookup_setEntry_of_ne hother, if_neg fun h => hother h.1.symm, sight_append, hes]
        exact (sight_cons es other rest).symm
  · rw [if_neg hprefix, if_neg]
    exact fun h => hprefix ((List.prefix_append _ _).trans h)

/-- To put something under which nothing lies where no directory was changes the sight of that place
and no other. -/
theorem sight_insert_childless {new : Node}
    (hnew : ∀ other rest, new.sight (other :: rest) = .nothing)
    (hplace : n.sight place = .directory) (hfree : n.sight (place ++ [name]) ≠ .directory)
    (r : List String) :
    (n.insert (place ++ [name]) new).sight r =
      if r = place ++ [name] then new.asSight else n.sight r := by
  rw [sight_insert_concat _ hplace]
  by_cases hprefix : place ++ [name] <+: r
  · obtain ⟨rest, rfl⟩ := hprefix
    rw [if_pos (List.prefix_append _ _), List.drop_left]
    cases rest with
    | nil => simp [sight_nil]
    | cons other rest =>
      -- Below what is no directory there is nothing.
      have hnothing : n.sight (place ++ [name] ++ other :: rest) = .nothing := by
        by_contra h
        exact hfree (sight_eq_directory_of_append (by simp) h)
      rw [if_neg (by simp), hnothing, hnew]
  · rw [if_neg hprefix, if_neg]
    rintro rfl
    exact hprefix (List.prefix_refl _)

/-- Writing a file changes the sight of its place and no other. -/
theorem sight_insert_file (c : Content) (hplace : n.sight place = .directory)
    (hfree : n.sight (place ++ [name]) ≠ .directory) (r : List String) :
    (n.insert (place ++ [name]) (.file c)).sight r =
      if r = place ++ [name] then .file c else n.sight r :=
  sight_insert_childless (sight_file_cons c) hplace hfree r

/-- Making a directory changes the sight of its place and no other. -/
theorem sight_insert_directory (hplace : n.sight place = .directory)
    (hfree : n.sight (place ++ [name]) = .nothing) (r : List String) :
    (n.insert (place ++ [name]) (.directory [])).sight r =
      if r = place ++ [name] then .directory else n.sight r := by
  refine sight_insert_childless (fun other rest => ?_) hplace (by simp [hfree]) r
  rw [sight_cons]
  rfl

end Node

namespace Disk

/-- What there is at a place of a disk. -/
def sight (disk : Disk) (place : List String) : Sight := disk.root.sight place

/-! ## Following paths -/

/-- A step is decided by what there is where it starts and where it leads. -/
theorem follow_cons (disk : Disk) (place : List String) (piece : String) (pieces : List String) :
    disk.follow place (piece :: pieces) =
      match disk.sight place with
      | .directory =>
          if piece = "" ∨ piece = "." then disk.follow place pieces
          else if piece = ".." then disk.follow place.dropLast pieces
          else if disk.sight (place ++ [piece]) = .nothing then .error .notFound
          else disk.follow (place ++ [piece]) pieces
      | .file _ => .error .notDirectory
      | .nothing => .error .notFound := by
  rw [follow, sight, Node.sight]
  cases hplace : disk.root.get? place with
  | none => rfl
  | some m =>
    cases m with
    | file c => rfl
    | directory es =>
      have hchild : disk.sight (place ++ [piece]) = .nothing ↔ es.lookup piece = none := by
        rw [sight, Node.sight_eq_nothing, Node.get?_concat, hplace]
        rfl
      simp only [Node.asSight, Bool.or_eq_true, decide_eq_true_eq]
      cases hlookup : es.lookup piece with
      | none => simp [hchild.mpr hlookup]
      | some m =>
        have hsome : disk.sight (place ++ [piece]) ≠ .nothing := by
          rw [ne_eq, hchild, hlookup]
          simp
        simp [hsome]

/-- A step leads on from a directory only, and down to what is there only. -/
theorem follow_cons_eq_ok {disk : Disk} {place pieces q : List String} {piece : String} :
    disk.follow place (piece :: pieces) = .ok q ↔
      disk.sight place = .directory ∧
        if piece = "" ∨ piece = "." then disk.follow place pieces = .ok q
        else if piece = ".." then disk.follow place.dropLast pieces = .ok q
        else disk.sight (place ++ [piece]) ≠ .nothing ∧
          disk.follow (place ++ [piece]) pieces = .ok q := by
  rw [follow_cons]
  cases disk.sight place with
  | nothing => simp
  | file c => simp
  | directory =>
    simp only [true_and]
    split
    · rfl
    · split
      · rfl
      · split
        · next hnothing => simp [hnothing]
        · next hthere => simp [hthere]

theorem follow_append (disk : Disk) (place xs ys : List String) :
    disk.follow place (xs ++ ys) = (disk.follow place xs).bind (disk.follow · ys) := by
  induction xs generalizing place with
  | nil => rfl
  | cons x xs ih =>
    rw [List.cons_append, follow_cons, follow_cons]
    cases disk.sight place with
    | nothing => rfl
    | file c => rfl
    | directory =>
      dsimp only
      split
      · exact ih place
      · split
        · exact ih place.dropLast
        · split
          · rfl
          · exact ih (place ++ [x])

/-- The pieces before the last one lead to a directory. -/
theorem follow_concat {disk : Disk} {place q : List String} {pieces : List String} {last : String}
    (h : disk.follow place (pieces ++ [last]) = .ok q) :
    ∃ r, disk.follow place pieces = .ok r ∧ disk.sight r = .directory ∧
      (((last = "" ∨ last = ".") ∧ q = r) ∨ (last = ".." ∧ q = r.dropLast) ∨
        (last ≠ "" ∧ last ≠ "." ∧ last ≠ ".." ∧ q = r ++ [last] ∧ disk.sight q ≠ .nothing)) := by
  rw [follow_append] at h
  cases hpieces : disk.follow place pieces with
  | error fault =>
    rw [hpieces] at h
    cases h
  | ok r =>
    rw [hpieces] at h
    change disk.follow r [last] = .ok q at h
    obtain ⟨hdirectory, hlast⟩ := follow_cons_eq_ok.mp h
    refine ⟨r, rfl, hdirectory, ?_⟩
    split at hlast
    · next hidle => exact Or.inl ⟨hidle, (Except.ok.inj hlast).symm⟩
    · next hidle =>
      rw [not_or] at hidle
      split at hlast
      · next hup => exact Or.inr (Or.inl ⟨hup, (Except.ok.inj hlast).symm⟩)
      · next hup =>
        obtain ⟨hthere, hq⟩ := hlast
        obtain rfl := Except.ok.inj hq
        exact Or.inr (Or.inr ⟨hidle.1, hidle.2, hup, rfl, hthere⟩)

/-- A name of an entry leads one place further down. -/
theorem follow_entryName {disk : Disk} {place : List String} {name : String}
    (hname : Path.IsEntryName name) (hplace : disk.sight place = .directory) :
    disk.follow place [name] =
      if disk.sight (place ++ [name]) = .nothing then .error .notFound
      else .ok (place ++ [name]) := by
  rw [follow_cons, hplace]
  dsimp only
  rw [if_neg (not_or.mpr ⟨hname.1, hname.2.1⟩), if_neg hname.2.2.1]
  rfl

theorem locate_of_ne {disk : Disk} {p : Path} (hp : p.text ≠ "") :
    disk.locate p = disk.follow (disk.origin p) p.pieces := by
  rw [locate, if_neg hp]

theorem origin_join (disk : Disk) (dir : Path) {p : Path} (hp : p.isAbsolute = false) :
    disk.origin (dir.join p) = disk.origin dir := by
  rw [origin, origin, Path.isAbsolute_join dir hp]

theorem get?_eq_bind (disk : Disk) (p : Path) :
    disk.get? p = (disk.locate p).toOption.bind (fun q => disk.root.get? q) := by
  unfold get?
  cases disk.locate p <;> rfl

/-- The name of an entry leads to the entry. -/
theorem get?_follow_entryName (disk : Disk) (place : List String) {name : String}
    (hname : Path.IsEntryName name) :
    (disk.follow place [name]).toOption.bind (fun q => disk.root.get? q) =
      (disk.root.get? place).bind fun n => n.entries.lookup name := by
  rw [← Node.get?_concat]
  cases hplace : disk.sight place with
  | directory =>
    rw [follow_entryName hname hplace]
    by_cases hnothing : disk.sight (place ++ [name]) = .nothing
    · rw [if_pos hnothing, Node.sight_eq_nothing.mp hnothing]
      rfl
    · rw [if_neg hnothing]
      rfl
  | nothing =>
    rw [follow_cons, hplace, Node.get?_concat, Node.sight_eq_nothing.mp hplace]
    rfl
  | file c =>
    rw [follow_cons, hplace, Node.get?_concat, Node.sight_eq_file.mp hplace]
    rfl

/-- An empty piece leads nowhere else, and leads on from a directory only. -/
theorem get?_follow_empty (disk : Disk) (place : List String) :
    (disk.follow place [""]).toOption.bind (fun q => disk.root.get? q) =
      (disk.root.get? place).filter Node.isDirectory := by
  rw [follow_cons]
  cases hplace : disk.sight place with
  | directory =>
    obtain ⟨es, hes⟩ := Node.sight_eq_directory.mp hplace
    dsimp only
    rw [if_pos (Or.inl rfl), hes]
    exact hes
  | nothing =>
    rw [Node.sight_eq_nothing.mp hplace]
    rfl
  | file c =>
    rw [Node.sight_eq_file.mp hplace]
    rfl

/-- An entry of what a path names is named by the path with the name of the entry. -/
theorem get?_child (disk : Disk) {p : Path} (hp : p.text ≠ "") {name : String}
    (hname : Path.IsEntryName name) :
    disk.get? (p.child name) = (disk.get? p).bind fun n => n.entries.lookup name := by
  have hpieces := Path.pieces_child p hname
  have horigin : disk.origin (p.child name) = disk.origin p :=
    disk.origin_join p (Path.isAbsolute_eq_false hname.2.2.2)
  rw [get?_eq_bind, get?_eq_bind, locate_of_ne (Path.child_text_ne hname), locate_of_ne hp, hpieces,
    horigin, follow_append]
  rcases Path.pieces_eq_frontPieces p with hfront | hfront
  · rw [hfront]
    cases disk.follow (disk.origin p) p.frontPieces with
    | error fault => rfl
    | ok place => exact disk.get?_follow_entryName place hname
  · -- What stands before the slash at the end must be a directory, as it must be to have entries.
    rw [hfront, follow_append]
    cases disk.follow (disk.origin p) p.frontPieces with
    | error fault => rfl
    | ok place =>
      have hentry := disk.get?_follow_entryName place hname
      have hslash := disk.get?_follow_empty place
      change (disk.follow place [name]).toOption.bind (fun q => disk.root.get? q) =
        ((disk.follow place [""]).toOption.bind fun q => disk.root.get? q).bind fun n => n.entries.lookup name
      rw [hentry, hslash]
      cases disk.root.get? place with
      | none => rfl
      | some n => cases n <;> rfl

/-- What stands before the last name of a place where there is something is a directory, and so is
the root. -/
theorem sight_dropLast {disk : Disk} {place : List String} (h : disk.sight place = .directory) :
    disk.sight place.dropLast = .directory := by
  rcases List.eq_nil_or_concat place with rfl | ⟨front, last, rfl⟩
  · exact h
  · rw [List.concat_eq_append] at h ⊢
    rw [List.dropLast_concat]
    have hthere : disk.root.sight (front ++ [last]) ≠ .nothing := by
      rw [← sight, h]
      simp
    exact Node.sight_eq_directory_of_append (by simp) hthere

/-- A path that leads to a file ends in the name of an entry, which stands in the directory that the
pieces before it lead to. -/
theorem pieces_of_locate_file {disk : Disk} {p : Path} {place : List String} {c : Content}
    (hlocate : disk.locate p = .ok place) (hfile : disk.sight place = .file c) :
    ∃ front name r, p.pieces = front ++ [name] ∧ Path.IsEntryName name ∧
      disk.follow (disk.origin p) front = .ok r ∧ disk.sight r = .directory ∧
      place = r ++ [name] := by
  have hp : p.text ≠ "" := by
    intro hempty
    rw [locate, if_pos hempty] at hlocate
    cases hlocate
  rw [locate_of_ne hp] at hlocate
  obtain hnil | ⟨front, name, hpieces⟩ := List.eq_nil_or_concat p.pieces
  · exact absurd hnil p.pieces_ne_nil
  · rw [List.concat_eq_append] at hpieces
    rw [hpieces] at hlocate
    obtain ⟨r, hr, hdirectory, ⟨_, rfl⟩ | ⟨_, rfl⟩ | ⟨hempty, hhere, hup, hplace, _⟩⟩ :=
      follow_concat hlocate
    · rw [hdirectory] at hfile
      cases hfile
    · rw [sight_dropLast hdirectory] at hfile
      cases hfile
    · have hslash : '/' ∉ name.toList := Path.notMem_of_mem_pieces (p := p) (by simp [hpieces])
      exact ⟨front, name, r, hpieces, ⟨hempty, hhere, hup, hslash⟩, hr, hdirectory, hplace⟩

theorem readText_eq_ok {disk : Disk} {p : Path} {text : String} :
    disk.readText p = .ok text ↔
      ∃ place, disk.locate p = .ok place ∧ disk.sight place = .file (.text text) := by
  simp only [sight, Node.sight_eq_file]
  unfold readText
  cases disk.locate p with
  | error fault => simp [bind, Except.bind]
  | ok place =>
    simp only [bind, Except.bind, Except.ok.injEq, exists_eq_left']
    cases disk.root.get? place with
    | none => simp
    | some n =>
      cases n with
      | directory es => simp
      | file c => cases c <;> simp

/-! ## Disks that grow -/

/-- Another disk shows a directory at every place where a disk shows one, and a file at every place
where it shows one. -/
structure Grows (disk later : Disk) : Prop where
  workingDirectory : later.workingDirectory = disk.workingDirectory
  directory {place : List String} : disk.sight place = .directory → later.sight place = .directory
  file {place : List String} {c : Content} :
    disk.sight place = .file c → ∃ d, later.sight place = .file d

namespace Grows

variable {disk later latest : Disk}

theorem refl (disk : Disk) : disk.Grows disk := ⟨rfl, id, fun h => ⟨_, h⟩⟩

theorem trans (h : disk.Grows later) (h' : later.Grows latest) : disk.Grows latest where
  workingDirectory := h'.workingDirectory.trans h.workingDirectory
  directory hplace := h'.directory (h.directory hplace)
  file hplace := by
    obtain ⟨d, hd⟩ := h.file hplace
    exact h'.file hd

theorem sight_ne_nothing (h : disk.Grows later) {place : List String}
    (hplace : disk.sight place ≠ .nothing) : later.sight place ≠ .nothing := by
  cases hsight : disk.sight place with
  | nothing => exact absurd hsight hplace
  | directory => simp [h.directory hsight]
  | file c =>
    obtain ⟨d, hd⟩ := h.file hsight
    simp [hd]

theorem origin (h : disk.Grows later) (p : Path) : later.origin p = disk.origin p := by
  rw [Disk.origin, Disk.origin, h.workingDirectory]

/-- What led somewhere leads to the same place. -/
theorem follow (h : disk.Grows later) {place pieces q : List String}
    (hq : disk.follow place pieces = .ok q) : later.follow place pieces = .ok q := by
  induction pieces generalizing place with
  | nil => exact hq
  | cons piece pieces ih =>
    obtain ⟨hplace, hrest⟩ := follow_cons_eq_ok.mp hq
    refine follow_cons_eq_ok.mpr ⟨h.directory hplace, ?_⟩
    split
    · next hidle =>
      rw [if_pos hidle] at hrest
      exact ih hrest
    · next hidle =>
      rw [if_neg hidle] at hrest
      split
      · next hup =>
        rw [if_pos hup] at hrest
        exact ih hrest
      · next hup =>
        rw [if_neg hup] at hrest
        exact ⟨h.sight_ne_nothing hrest.1, ih hrest.2⟩

theorem locate (h : disk.Grows later) {p : Path} {place : List String}
    (hp : disk.locate p = .ok place) : later.locate p = .ok place := by
  by_cases hempty : p.text = ""
  · rw [Disk.locate, if_pos hempty] at hp
    cases hp
  · rw [locate_of_ne hempty] at hp ⊢
    rw [h.origin]
    exact h.follow hp

end Grows

end Disk

end PropCatalog
