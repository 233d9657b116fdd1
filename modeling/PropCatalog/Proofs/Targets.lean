import PropCatalog.Proofs.Delivery

/-!
# Results below a directory

A transform that writes below a directory keeps the names of a path and nothing else of it, neither
the root nor steps up.  So the targets of two files are the same exactly if the names in their paths
are, and of all results that go to one target the last one is found there
(`Command.runTransform_outDir`).  That is no loss as long as the paths are all relative, or all
absolute, and have no step up: then paths with the same names lead to the same file.
-/

namespace PropCatalog

namespace Disk

variable {disk : Disk}

/-- Pieces without a step up lead down by the names among them. -/
theorem eq_append_of_follow {place pieces q : List String} (hup : ".." ∉ pieces)
    (h : disk.follow place pieces = .ok q) : q = place ++ pieces.filterMap Path.pieceName? := by
  induction pieces generalizing place with
  | nil =>
    obtain rfl := Except.ok.inj h
    simp
  | cons piece pieces ih =>
    rw [List.mem_cons, not_or] at hup
    obtain ⟨_, hrest⟩ := follow_cons_eq_ok.mp h
    split at hrest
    · next hidle =>
      have hname : Path.pieceName? piece = none := by
        rcases hidle with rfl | rfl <;> rfl
      rw [List.filterMap_cons_none hname]
      exact ih hup.2 hrest
    · next hidle =>
      rw [if_neg (Ne.symm hup.1)] at hrest
      rw [not_or] at hidle
      have hname := Path.pieceName?_of_ne hidle.1 hidle.2 (Ne.symm hup.1)
      rw [List.filterMap_cons_some hname, ih hup.2 hrest.2, List.append_assoc]
      rfl

/-- A path without a step up leads to the place that its names say. -/
theorem eq_append_of_locate {p : Path} {place : List String} (hup : ".." ∉ p.pieces)
    (h : disk.locate p = .ok place) : place = disk.origin p ++ p.names := by
  rw [locate] at h
  split at h
  · cases h
  · rw [Path.names_eq_filterMap]
    exact eq_append_of_follow hup h

/-- Names of entries lead down by themselves. -/
theorem eq_append_of_follow_names {place names q : List String}
    (hnames : ∀ name ∈ names, Path.IsEntryName name) (h : disk.follow place names = .ok q) :
    q = place ++ names := by
  rw [eq_append_of_follow (fun hup => (hnames _ hup).2.2.1 rfl) h, Path.filterMap_pieceName? hnames]

end Disk

namespace Command

variable {disk : Disk} {options : Options} {dir : Path}

/-! ## Targets -/

theorem isAbsolute_names (file : String) :
    (⟨"/".intercalate (Path.mk file).names⟩ : Path).isAbsolute = false :=
  Path.isAbsolute_intercalate fun _ => Path.isEntryName_of_mem_names

/-- The target of a file has the pieces of the directory and then the names of the file. -/
theorem pieces_outPath (dir : Path) {file : String} (hne : (Path.mk file).names ≠ []) :
    (outPath dir file).pieces = dir.frontPieces ++ (Path.mk file).names := by
  rw [outPath, Path.pieces_join dir (isAbsolute_names file),
    Path.pieces_intercalate (fun _ => Path.isEntryName_of_mem_names) hne]

theorem origin_outPath (disk : Disk) (dir : Path) (file : String) :
    disk.origin (outPath dir file) = disk.origin dir :=
  disk.origin_join dir (isAbsolute_names file)

/-- Two files have one target exactly if their paths have the same names. -/
theorem outPath_eq_iff (dir : Path) (file other : String) :
    outPath dir file = outPath dir other ↔ (Path.mk file).names = (Path.mk other).names := by
  constructor
  · intro h
    have hpieces := congrArg Path.pieces h
    rw [outPath, outPath, Path.pieces_join dir (isAbsolute_names file),
      Path.pieces_join dir (isAbsolute_names other), List.append_cancel_left_eq] at hpieces
    have hnames (f : String) :
        (⟨"/".intercalate (Path.mk f).names⟩ : Path).pieces.filterMap Path.pieceName? =
          (Path.mk f).names := by
      rw [← Path.names_eq_filterMap]
      exact Path.names_intercalate fun _ => Path.isEntryName_of_mem_names
    rw [← hnames file, ← hnames other, hpieces]
  · intro h
    rw [outPath, outPath, h]

/-- What writing the result for a file below a directory does, with the place that the directory
turns out to be at. -/
structure WritesBelow (dir : Path) (file code : String) (disk later : Disk) (place : List String) :
    Prop where
  grows : disk.Grows later
  directory : later.follow (later.origin dir) dir.frontPieces = .ok place
  target : later.locate (outPath dir file) = .ok (place ++ (Path.mk file).names)
  written : later.sight (place ++ (Path.mk file).names) = .file (.text code)
  elsewhere {r : List String} : r ≠ place ++ (Path.mk file).names →
    later.sight r = disk.sight r ∨ disk.sight r = .nothing ∧ later.sight r = .directory

theorem WritesBelow.kept {file code : String} {later : Disk} {place r : List String}
    (h : WritesBelow dir file code disk later place) (hr : r ≠ place ++ (Path.mk file).names)
    (hthere : disk.sight r ≠ .nothing) : later.sight r = disk.sight r := by
  rcases h.elsewhere hr with hsame | ⟨hnothing, _⟩
  · exact hsame
  · exact absurd hnothing hthere

/-- The directories on the way are made first, and then the file is written.  A fault leaves the
directories that have been made. -/
theorem writeBelow_cases (disk : Disk) (target : Path) (code : String) :
    (∃ e, writeBelow disk target code = .error e ∧ disk.Extends e.2) ∨
    (∃ ready later, writeBelow disk target code = .ok later ∧ disk.Extends ready ∧
      ready.writeText target code = .ok later) := by
  -- Once the directories are there, only the file can fail.
  have hwrite {ready : Disk} (hready : disk.Extends ready)
      (hrest : writeBelow disk target code =
        (writeFile ready target code).mapError fun message => (message, ready)) :
      (∃ e, writeBelow disk target code = .error e ∧ disk.Extends e.2) ∨
      (∃ ready later, writeBelow disk target code = .ok later ∧ disk.Extends ready ∧
        ready.writeText target code = .ok later) := by
    rw [hrest, writeFile]
    cases hwritten : ready.writeText target code with
    | error fault => exact Or.inl ⟨_, rfl, hready⟩
    | ok later => exact Or.inr ⟨ready, later, rfl, hready, hwritten⟩
  cases hparent : target.parent? with
  | none =>
    refine hwrite (.refl disk) ?_
    rw [writeBelow, hparent]
    rfl
  | some parent =>
    have hleft := disk.extends_left_makeChain parent.ancestors
    cases hmade : disk.makeDirectories parent with
    | error e =>
      rw [show disk.makeChain parent.ancestors = .error e from hmade] at hleft
      refine Or.inl
        ⟨("Failed to create directory: " ++ parent.text ++ ": " ++ e.1.message, e.2), ?_, hleft⟩
      rw [writeBelow, hparent]
      simp only [hmade]
      rfl
    | ok ready =>
      rw [show disk.makeChain parent.ancestors = .ok ready from hmade] at hleft
      refine hwrite hleft ?_
      rw [writeBelow, hparent]
      simp only [hmade]
      rfl

theorem writesBelow_of_writeBelow {file code : String} {later : Disk}
    (hne : (Path.mk file).names ≠ []) (h : writeBelow disk (outPath dir file) code = .ok later) :
    ∃ place, WritesBelow dir file code disk later place := by
  obtain ⟨ready, hready, hwrite⟩ : ∃ ready, disk.Extends ready ∧
      ready.writeText (outPath dir file) code = .ok later := by
    rcases writeBelow_cases disk (outPath dir file) code with
      ⟨e, herror, _⟩ | ⟨ready, later', hok, hready, hwrite⟩
    · cases herror.symm.trans h
    · obtain rfl : later' = later := Except.ok.inj (hok.symm.trans h)
      exact ⟨ready, hready, hwrite⟩
  obtain ⟨front, last, hnames⟩ : ∃ front last, (Path.mk file).names = front ++ [last] :=
    ⟨_, _, (List.dropLast_concat_getLast hne).symm⟩
  have hentry : ∀ name ∈ front ++ [last], Path.IsEntryName name := by
    rw [← hnames]
    exact fun _ => Path.isEntryName_of_mem_names
  have hpieces : (outPath dir file).pieces = (dir.frontPieces ++ front) ++ [last] := by
    rw [pieces_outPath dir hne, hnames, List.append_assoc]
  obtain ⟨parent, hfollow, hputs, hlocate⟩ :=
    Disk.locate_of_writeText hpieces (hentry last (by simp)) hwrite
  -- The way to the target leads through the directory, and from there down by names alone.
  rw [Disk.follow_append, origin_outPath] at hfollow
  cases hplace : ready.follow (ready.origin dir) dir.frontPieces with
  | error fault =>
    rw [hplace] at hfollow
    cases hfollow
  | ok place =>
    rw [hplace] at hfollow
    obtain rfl : parent = place ++ front :=
      Disk.eq_append_of_follow_names (fun x hx => hentry x (by simp [hx])) hfollow
    rw [List.append_assoc, ← hnames] at hputs hlocate
    have hgrows := hputs.grows
    refine ⟨place, hready.grows.trans hgrows, ?_, hlocate, hputs.here, ?_⟩
    · rw [hgrows.origin]
      exact hgrows.follow hplace
    · intro r hr
      rw [hputs.elsewhere hr]
      exact hready.shows r

/-- Delivering a result below a directory writes it to its target. -/
theorem deliver_directory (dir : Path) (headers : Bool) (file : String) (r : Report) (code : String)
    (o : Outcome) :
    deliver (.directory dir) headers file r code o =
      (writeBelow o.disk (outPath dir file) code).map fun later =>
        { o with disk := later, output := o.output ++ writtenLine (outPath dir file).text r } := by
  rw [deliver]
  cases writeBelow o.disk (outPath dir file) code <;> rfl

/-! ## Runs -/

/-- What is left when results have been written below a directory one after the other. -/
structure WrittenBelow (dir : Path) (results : List (String × Except String (Report × String)))
    (disk after : Disk) : Prop where
  grows : disk.Grows after
  /-- What stands below the directory under names that no result has stays as it is. -/
  kept : ∀ place names, disk.follow (disk.origin dir) dir.frontPieces = .ok place →
    (∀ file result, (file, .ok result) ∈ results → (Path.mk file).names ≠ names) →
    disk.sight (place ++ names) ≠ .nothing →
    after.sight (place ++ names) = disk.sight (place ++ names)
  /-- The last result with its names is found at its target. -/
  written : ∀ before file r code rest, results = before ++ (file, .ok (r, code)) :: rest →
    (∀ other result, (other, .ok result) ∈ rest → (Path.mk other).names ≠ (Path.mk file).names) →
    after.readText (outPath dir file) = .ok code

namespace WrittenBelow

variable {results : List (String × Except String (Report × String))} {later after : Disk}
  {file : String}

theorem nil (dir : Path) (disk : Disk) : WrittenBelow dir [] disk disk :=
  ⟨.refl disk, fun _ _ _ _ _ => rfl, fun _ _ _ _ _ h => absurd h (by simp)⟩

/-- Nothing is written for a file without a result. -/
theorem cons_error {message : String} (h : WrittenBelow dir results disk after) :
    WrittenBelow dir ((file, .error message) :: results) disk after where
  grows := h.grows
  kept place names hplace hnames := h.kept place names hplace fun other result hother =>
    hnames other result (List.mem_cons_of_mem _ hother)
  written before other r code rest hresults hrest := by
    cases before with
    | nil => cases hresults
    | cons first before =>
      obtain ⟨_, htail⟩ := List.cons.inj hresults
      exact h.written before other r code rest htail hrest

/-- A result that has been written is found afterwards unless one with the same names follows. -/
theorem cons_ok {r : Report} {code : String} {place : List String}
    (hstep : WritesBelow dir file code disk later place) (h : WrittenBelow dir results later after) :
    WrittenBelow dir ((file, .ok (r, code)) :: results) disk after where
  grows := hstep.grows.trans h.grows
  kept place' names hplace hnames hthere := by
    -- The directory is where it was, so this result went to another place.
    obtain rfl : place = place' := by
      have hfollow := hstep.grows.follow hplace
      rw [← hstep.grows.origin, hstep.directory] at hfollow
      exact Except.ok.inj hfollow
    have hne : place ++ names ≠ place ++ (Path.mk file).names := by
      rw [ne_eq, List.append_cancel_left_eq]
      exact Ne.symm (hnames file _ List.mem_cons_self)
    have hkept := hstep.kept hne hthere
    rw [h.kept place names hstep.directory
      (fun other result hother => hnames other result (List.mem_cons_of_mem _ hother))
      (hkept ▸ hthere), hkept]
  written before other r' code' rest hresults hrest := by
    cases before with
    | nil =>
      obtain ⟨hhead, rfl⟩ := List.cons.inj hresults
      cases hhead
      have hsight := h.kept place (Path.mk file).names hstep.directory hrest (by simp [hstep.written])
      rw [Disk.readText_eq_ok]
      exact ⟨_, h.grows.locate hstep.target, hsight.trans hstep.written⟩
    | cons first before =>
      obtain ⟨_, htail⟩ := List.cons.inj hresults
      exact h.written before other r' code' rest htail hrest

end WrittenBelow

/-- A run that does not fail writes all results, each over an earlier one with the same names. -/
theorem writtenBelow_deliverAll {headers : Bool}
    {results : List (String × Except String (Report × String))} {o : Outcome}
    (hnames : ∀ file result, (file, .ok result) ∈ results → (Path.mk file).names ≠ [])
    (herror : (deliverAll (.directory dir) headers results o).error = none) :
    WrittenBelow dir results o.disk (deliverAll (.directory dir) headers results o).disk := by
  induction results generalizing o with
  | nil => exact .nil dir o.disk
  | cons result results ih =>
    have hnames' : ∀ file result, (file, .ok result) ∈ results → (Path.mk file).names ≠ [] :=
      fun file result h => hnames file result (List.mem_cons_of_mem _ h)
    obtain ⟨file, message | ⟨r, code⟩⟩ := result
    · rw [deliverAll] at herror ⊢
      have hrest := ih hnames' herror
      exact hrest.cons_error
    · rw [deliverAll, deliver_directory] at herror ⊢
      cases hwrite : writeBelow o.disk (outPath dir file) code with
      | error e =>
        rw [hwrite] at herror
        cases herror
      | ok later =>
        rw [hwrite] at herror
        obtain ⟨place, hstep⟩ :=
          writesBelow_of_writeBelow (hnames file _ List.mem_cons_self) hwrite
        exact .cons_ok hstep (ih hnames' herror)

/-- Some element of a list with a property is followed by none that has it. -/
theorem exists_last {α : Type} {P : α → Prop} {xs : List α} (h : ∃ x ∈ xs, P x) :
    ∃ before y rest, xs = before ++ y :: rest ∧ P y ∧ ∀ z ∈ rest, ¬ P z := by
  induction xs with
  | nil => simp at h
  | cons x xs ih =>
    by_cases hxs : ∃ y ∈ xs, P y
    · obtain ⟨before, y, rest, rfl, hy, hrest⟩ := ih hxs
      exact ⟨x :: before, y, rest, rfl, hy, hrest⟩
    · obtain ⟨y, hmem, hy⟩ := h
      rcases List.mem_cons.mp hmem with rfl | hmem
      · exact ⟨[], y, xs, rfl, hy, fun z hz hPz => hxs ⟨z, hz, hPz⟩⟩
      · exact absurd ⟨y, hmem, hy⟩ hxs

/-- A file for which there is a result has a name. -/
theorem names_ne_nil_of_attachFile {file : String} {result : Report × String}
    (h : attachFile disk options file = .ok result) : (Path.mk file).names ≠ [] := by
  obtain ⟨place, text, hlocate, hsight⟩ := sight_of_attachFile h
  obtain ⟨front, name, _, hpieces, hname, _, _, _⟩ := Disk.pieces_of_locate_file hlocate hsight
  rw [Path.names_eq_filterMap, hpieces, List.filterMap_append, ne_eq, List.append_eq_nil_iff]
  rintro ⟨_, hnil⟩
  rw [List.filterMap_cons_some (Path.pieceName?_entryName hname)] at hnil
  cases hnil

theorem names_ne_nil_of_mem_resultsFor {sources : Sources} {file : String}
    {result : Report × String} (h : (file, .ok result) ∈ resultsFor disk sources) :
    (Path.mk file).names ≠ [] := by
  obtain ⟨other, _, heq⟩ := List.mem_map.mp h
  obtain ⟨rfl, hattach⟩ := Prod.mk.inj heq
  exact names_ne_nil_of_attachFile hattach

/-! ## Which result a target holds -/

section OutDir

variable {c : TransformCommand} {sources : Sources} (hdir : c.outDir = some dir)
  (hsources : findSources disk c.paths c.sourceRoot c.verbose = .ok sources)
  (herror : (runTransform disk c).error = none)

include hdir hsources herror

theorem writtenBelow_runTransform :
    WrittenBelow dir (resultsFor disk sources) disk (runTransform disk c).disk := by
  have hdestination : destination c = .directory dir := by simp [destination, hdir]
  rw [disk_runTransform hsources]
  rw [error_runTransform hsources] at herror
  rw [delivered, hdestination] at herror ⊢
  exact writtenBelow_deliverAll (fun _ _ => names_ne_nil_of_mem_resultsFor) herror

/-- A target holds the result of the last file that has it as its target. -/
theorem readText_outPath_of_last {before rest : List String} {file : String}
    (hfiles : sources.found.files = before ++ file :: rest) {report : Report} {code : String}
    (hattach : attachFile disk sources.settings.options file = .ok (report, code))
    (hrest : ∀ other ∈ rest, ∀ result,
      attachFile disk sources.settings.options other = .ok result →
      outPath dir other ≠ outPath dir file) :
    (runTransform disk c).disk.readText (outPath dir file) = .ok code := by
  have hresults : resultsFor disk sources =
      before.map (fun f => (f, attachFile disk sources.settings.options f)) ++
        (file, .ok (report, code)) ::
          rest.map (fun f => (f, attachFile disk sources.settings.options f)) := by
    rw [resultsFor, hfiles, List.map_append, List.map_cons, hattach]
  refine (writtenBelow_runTransform hdir hsources herror).written _ file report code _ hresults ?_
  intro other result hmem
  obtain ⟨other', hother, heq⟩ := List.mem_map.mp hmem
  obtain ⟨rfl, hok⟩ := Prod.mk.inj heq
  exact fun hsame => hrest other' hother result hok ((outPath_eq_iff dir _ _).mpr hsame)

/-- So if all files with a target are one file under several paths, the target holds its result. -/
theorem readText_outPath_of_same {file : String} (hfile : file ∈ sources.found.files)
    (hplace : ∀ other ∈ sources.found.files, outPath dir other = outPath dir file →
      ∀ place, disk.locate ⟨other⟩ = .ok place → disk.locate ⟨file⟩ = .ok place)
    {report : Report} {code : String}
    (hattach : attachFile disk sources.settings.options file = .ok (report, code)) :
    (runTransform disk c).disk.readText (outPath dir file) = .ok code := by
  obtain ⟨before, other, rest, hfiles, ⟨⟨result, hother⟩, htarget⟩, hrest⟩ :=
    exists_last (P := fun other =>
        (∃ result, attachFile disk sources.settings.options other = .ok result) ∧
          outPath dir other = outPath dir file)
      ⟨file, hfile, ⟨_, hattach⟩, rfl⟩
  obtain ⟨place, _, hlocate, _⟩ := sight_of_attachFile hother
  have hresult := attachFile_of_locate
    (hplace other (by simp [hfiles]) htarget place hlocate) hlocate hattach
  rw [← htarget]
  refine readText_outPath_of_last hdir hsources herror hfiles hresult ?_
  intro later hlater result' hok hsame
  exact hrest later hlater ⟨⟨result', hok⟩, hsame.trans htarget⟩

end OutDir

/-- What a transform that writes below a directory leaves there. -/
structure TransformedBelow (dir : Path) (disk : Disk) (options : Options) (files : List String)
    (o : Outcome) : Prop where
  /-- Two files have one target exactly if their paths have the same names. -/
  targets : ∀ file ∈ files, ∀ other ∈ files,
    outPath dir file = outPath dir other ↔ (Path.mk file).names = (Path.mk other).names
  /-- A target holds the result of the last file that has it as its target. -/
  last : ∀ before file rest, files = before ++ file :: rest →
    ∀ report code, attachFile disk options file = .ok (report, code) →
    (∀ other ∈ rest, ∀ result, attachFile disk options other = .ok result →
      outPath dir other ≠ outPath dir file) →
    o.disk.readText (outPath dir file) = .ok code
  /-- The target of a file holds its own result if no listed path with its names has a step up, and
  they are all relative or all absolute. -/
  own : ∀ file ∈ files, (∀ other ∈ files, (Path.mk other).names = (Path.mk file).names →
      (Path.mk other).isAbsolute = (Path.mk file).isAbsolute ∧ ".." ∉ (Path.mk other).pieces) →
    ∀ report code, attachFile disk options file = .ok (report, code) →
    o.disk.readText (outPath dir file) = .ok code

/-- After a transform that wrote all its results below a directory, every target holds the last
result that went there, and a file's own result if the paths with its names cannot lead elsewhere. -/
theorem runTransform_outDir {disk : Disk} {c : TransformCommand} {dir : Path} {sources : Sources}
    (hdir : c.outDir = some dir)
    (hsources : findSources disk c.paths c.sourceRoot c.verbose = .ok sources)
    (herror : (runTransform disk c).error = none) :
    TransformedBelow dir disk sources.settings.options sources.found.files
      (runTransform disk c) where
  targets file _ other _ := outPath_eq_iff dir file other
  last _ _ _ hfiles _ _ hattach hrest :=
    readText_outPath_of_last hdir hsources herror hfiles hattach hrest
  own file hfile hpaths report code hattach := by
    refine readText_outPath_of_same hdir hsources herror hfile ?_ hattach
    intro other hother htarget place hlocate
    have hsame := (outPath_eq_iff dir other file).mp htarget
    obtain ⟨habsolute, hup⟩ := hpaths other hother hsame
    obtain ⟨place', _, hlocate', _⟩ := sight_of_attachFile hattach
    have hplace : place' = place := by
      rw [Disk.eq_append_of_locate hup hlocate,
        Disk.eq_append_of_locate (hpaths file hfile rfl).2 hlocate', hsame, Disk.origin, Disk.origin,
        habsolute]
    rw [hlocate', hplace]

/-- A disk with two files of the same name. -/
def twoApps : Disk :=
  ⟨.directory [("App.jsx", .file (.text "a")), ("sub", .directory [("App.jsx", .file (.text "b"))])],
    []⟩

/-- A command that writes the results for two files below a directory. -/
def twoBelow (first second : String) : TransformCommand :=
  ⟨[⟨first⟩, ⟨second⟩], false, some ⟨"out"⟩, none, false⟩

/-- The results for two files with different names in their paths are both found. -/
theorem runTransform_outDir_twoApps :
    ∃ a b, attachFile twoApps {} "App.jsx" = .ok a ∧ attachFile twoApps {} "sub/App.jsx" = .ok b ∧
      (runTransform twoApps (twoBelow "App.jsx" "sub/App.jsx")).disk.readText ⟨"out/App.jsx"⟩ =
        .ok a.2 ∧
      (runTransform twoApps (twoBelow "App.jsx" "sub/App.jsx")).disk.readText ⟨"out/sub/App.jsx"⟩ =
        .ok b.2 := by
  have hsources : findSources twoApps [⟨"App.jsx"⟩, ⟨"sub/App.jsx"⟩] none false =
      .ok ⟨{}, ⟨["App.jsx", "sub/App.jsx"], 0⟩, ""⟩ := by rfl
  have herror : (runTransform twoApps (twoBelow "App.jsx" "sub/App.jsx")).error = none := by
    decide +kernel
  have hparsed : (Source.attach? (.ofPath ⟨"App.jsx"⟩) "a" {}).isSome = true ∧
      (Source.attach? (.ofPath ⟨"sub/App.jsx"⟩) "b" {}).isSome = true := by decide +kernel
  obtain ⟨a, ha⟩ := Option.isSome_iff_exists.mp hparsed.1
  obtain ⟨b, hb⟩ := Option.isSome_iff_exists.mp hparsed.2
  have hfirst : attachFile twoApps {} "App.jsx" = .ok a := attachFile_eq_ok.mpr ⟨"a", rfl, ha⟩
  have hsecond : attachFile twoApps {} "sub/App.jsx" = .ok b := attachFile_eq_ok.mpr ⟨"b", rfl, hb⟩
  have hrun := runTransform_outDir (c := twoBelow "App.jsx" "sub/App.jsx") rfl hsources herror
  exact ⟨a, b, hfirst, hsecond, hrun.own "App.jsx" (by decide) (by decide) a.1 a.2 hfirst,
    hrun.own "sub/App.jsx" (by decide) (by decide) b.1 b.2 hsecond⟩

/-- A path with a step up has the target of another file, and its result is lost. -/
theorem runTransform_outDir_collision :
    (runTransform twoApps (twoBelow "sub/../App.jsx" "sub/App.jsx")).error = none ∧
    (twoApps.locate ⟨"sub/../App.jsx"⟩).toOption ≠ (twoApps.locate ⟨"sub/App.jsx"⟩).toOption ∧
    (attachFile twoApps {} "sub/../App.jsx").isOk = true ∧
    ((runTransform twoApps (twoBelow "sub/../App.jsx" "sub/App.jsx")).disk.readText
      (outPath ⟨"out"⟩ "sub/../App.jsx")).toOption ≠
        (attachFile twoApps {} "sub/../App.jsx").toOption.map Prod.snd := by
  decide +kernel

end Command

end PropCatalog
