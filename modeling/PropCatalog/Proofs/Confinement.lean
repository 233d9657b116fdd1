import PropCatalog.Proofs.Targets

/-!
# Nothing outside of the output directory changes

A transform that writes below a directory takes paths as they are given, absolute or with steps up.
Its targets do not lead out of the directory all the same: a target has the components of the directory
and then names only (`Command.components_outPath`), so it leads to a place below the one where the
directory is (`Command.exists_base_of_locate`).

What a run changes on the disk is followed write by write, and a write that fails counts too, since
directories that were made for it stay.  After every run, also one that ends early, whatever is new is
a directory or a result at its target (`Command.changedBelow_deliverAll`).
-/

namespace PropCatalog

namespace Path

/-! ## Components of targets -/

theorem frontPieces_ne_nil {dir : Path} (hdir : dir.text ≠ "") : dir.frontPieces ≠ [] := by
  rcases join_eq dir (p := ⟨""⟩) rfl with ⟨hempty, _⟩ | ⟨a, htext, _⟩ | ⟨_, hlast, _⟩
  · exact absurd hempty hdir
  · obtain ⟨text⟩ := dir
    obtain rfl : text = a ++ "/" := htext
    rw [frontPieces_slash]
    exact pieces_ne_nil _
  · rw [frontPieces, if_neg hlast]
    exact pieces_ne_nil _

/-- Names that are written with slashes between them stand for themselves. -/
theorem filterMap_ofPiece?_intercalate {names : List String}
    (hnames : ∀ name ∈ names, IsEntryName name) :
    (⟨"/".intercalate names⟩ : Path).pieces.filterMap Component.ofPiece? =
      names.map Component.name := by
  by_cases hne : names = []
  · subst hne
    rfl
  · rw [pieces_intercalate hnames hne,
      List.filterMap_congr fun name hname => Component.ofPiece?_entryName (hnames name hname),
      List.filterMap_eq_map']

theorem components_intercalate {names : List String} (hnames : ∀ name ∈ names, IsEntryName name) :
    (⟨"/".intercalate names⟩ : Path).components = names.map Component.name := by
  cases names with
  | nil => rfl
  | cons name names =>
    have hname := hnames name List.mem_cons_self
    have hpieces := pieces_intercalate hnames (by simp)
    have hrest := filterMap_ofPiece?_intercalate hnames
    rw [hpieces, List.filterMap_cons_some (Component.ofPiece?_entryName hname)] at hrest
    rw [components, hpieces, ← hrest]
    simp [hname.2.1, isAbsolute_intercalate hnames, Component.ofPiece?_entryName hname]

/-- Joining names to a directory appends them to its components. -/
theorem components_join_intercalate (dir : Path) {names : List String}
    (hnames : ∀ name ∈ names, IsEntryName name) :
    (dir.join ⟨"/".intercalate names⟩).components = dir.components ++ names.map Component.name := by
  by_cases hempty : dir.text = ""
  · obtain ⟨text⟩ := dir
    obtain rfl : text = "" := hempty
    rw [join_empty]
    exact components_intercalate hnames
  · obtain ⟨first, rest, hfront⟩ := List.exists_cons_of_ne_nil (frontPieces_ne_nil hempty)
    have hjoined : (dir.join ⟨"/".intercalate names⟩).pieces =
        first :: (rest ++ (⟨"/".intercalate names⟩ : Path).pieces) := by
      rw [pieces_join dir (isAbsolute_intercalate hnames), hfront]
      rfl
    -- A piece that is missing at the end of the front pieces is empty and counts for nothing.
    obtain ⟨tail, hpieces, htail⟩ : ∃ tail, dir.pieces = first :: tail ∧
        tail.filterMap Component.ofPiece? = rest.filterMap Component.ofPiece? := by
      rcases pieces_eq_frontPieces dir with heq | heq
      · exact ⟨rest, heq.trans hfront, rfl⟩
      · refine ⟨rest ++ [""], by rw [heq, hfront]; rfl, ?_⟩
        rw [List.filterMap_append]
        exact List.append_nil _
    rw [components, components, hjoined, hpieces, isAbsolute_join dir (isAbsolute_intercalate hnames)]
    simp only [List.filterMap_append, filterMap_ofPiece?_intercalate hnames, htail, List.append_assoc]

end Path

namespace Disk

/-! ## The place of a directory -/

variable {disk later : Disk}

/-- Where paths that are joined to a directory start: at its place, and for the empty path in the
working directory. -/
def base (disk : Disk) (dir : Path) : Except FileFault (List String) :=
  if dir.text = "" then .ok disk.workingDirectory else disk.locate dir

theorem base_of_follow {dir : Path} {place : List String}
    (hfollow : disk.follow (disk.origin dir) dir.frontPieces = .ok place)
    (hdirectory : disk.sight place = .directory) : disk.base dir = .ok place := by
  unfold base
  split
  · next hempty =>
    obtain ⟨text⟩ := dir
    obtain rfl : text = "" := hempty
    exact hfollow
  · next hne =>
    rw [locate_of_ne hne]
    rcases Path.pieces_eq_frontPieces dir with heq | heq
    · rw [heq, hfollow]
    · rw [heq, follow_append, hfollow]
      change disk.follow place [""] = .ok place
      rw [follow_cons, hdirectory]
      rfl

/-- Without a step up, the place of a directory is the one that its names say. -/
theorem eq_append_of_base {dir : Path} {place : List String} (hup : ".." ∉ dir.pieces)
    (h : disk.base dir = .ok place) : place = disk.origin dir ++ dir.names := by
  unfold base at h
  split at h
  · next hempty =>
    obtain ⟨text⟩ := dir
    obtain rfl : text = "" := hempty
    obtain rfl := Except.ok.inj h
    exact (List.append_nil _).symm
  · exact eq_append_of_locate hup h

/-- Pieces without a step up that lead to a file on a disk that has grown led there before, if the
file was there. -/
theorem follow_of_grows (hgrows : disk.Grows later) {place pieces q : List String} {c : Content}
    (hup : ".." ∉ pieces) (h : later.follow place pieces = .ok q) (hq : disk.sight q = .file c) :
    disk.follow place pieces = .ok q := by
  induction pieces generalizing place with
  | nil => exact h
  | cons piece pieces ih =>
    rw [List.mem_cons, not_or] at hup
    obtain ⟨hplace, hrest⟩ := follow_cons_eq_ok.mp h
    have hnames := eq_append_of_follow (by simpa using hup) h
    -- Something below the place was there before, so the place was a directory then.
    have hbefore : disk.sight place = .directory := by
      cases hbelow : (piece :: pieces).filterMap Path.pieceName? with
      | nil =>
        rw [hbelow, List.append_nil] at hnames
        obtain ⟨d, hd⟩ := hgrows.file (hnames ▸ hq)
        cases hplace.symm.trans hd
      | cons name below =>
        rw [hbelow] at hnames
        refine Node.sight_eq_directory_of_append (by simp : name :: below ≠ []) ?_
        rw [← hnames, ← sight, hq]
        simp
    refine follow_cons_eq_ok.mpr ⟨hbefore, ?_⟩
    split
    · next hidle =>
      rw [if_pos hidle] at hrest
      exact ih hup.2 hrest
    · next hidle =>
      rw [if_neg hidle, if_neg (Ne.symm hup.1)] at hrest
      rw [if_neg (Ne.symm hup.1)]
      have hnext := ih hup.2 hrest.2
      refine ⟨?_, hnext⟩
      cases pieces with
      | nil =>
        obtain rfl := Except.ok.inj hnext
        simp [hq]
      | cons second rest => simp [(follow_cons_eq_ok.mp hnext).1]

end Disk

namespace Command

variable {disk : Disk} {dir : Path}

/-- A target has the components of the directory, and then the names of the file. -/
theorem components_outPath (dir : Path) (file : String) :
    (outPath dir file).components = dir.components ++ (Path.mk file).names.map .name :=
  Path.components_join_intercalate dir fun _ => Path.isEntryName_of_mem_names

/-- A target leads to a place below the directory, by the names of the file. -/
theorem exists_base_of_locate {file : String} {place : List String}
    (h : disk.locate (outPath dir file) = .ok place) :
    ∃ base, disk.base dir = .ok base ∧ place = base ++ (Path.mk file).names := by
  have hentry : ∀ name ∈ (Path.mk file).names, Path.IsEntryName name :=
    fun _ => Path.isEntryName_of_mem_names
  obtain ⟨first, rest, hpieces⟩ := List.exists_cons_of_ne_nil
    (Path.pieces_ne_nil ⟨"/".intercalate (Path.mk file).names⟩)
  rw [Disk.locate] at h
  split at h
  · cases h
  · rw [outPath, Path.pieces_join dir (isAbsolute_names file), hpieces, Disk.follow_append,
      disk.origin_join dir (isAbsolute_names file)] at h
    cases hfollow : disk.follow (disk.origin dir) dir.frontPieces with
    | error fault =>
      rw [hfollow] at h
      cases h
    | ok base =>
      rw [hfollow] at h
      have hdown : disk.follow base (first :: rest) = .ok place := h
      -- The names are among the pieces after the directory, and nothing there is a step up.
      have hup : ".." ∉ first :: rest := by
        rw [← hpieces]
        intro hmem
        have hname := Path.filterMap_ofPiece?_intercalate hentry
        have hparent : Path.Component.up ∈ (Path.mk file).names.map Path.Component.name := by
          rw [← hname]
          exact List.mem_filterMap.mpr ⟨"..", hmem, rfl⟩
        simp at hparent
      refine ⟨base, Disk.base_of_follow hfollow (Disk.follow_cons_eq_ok.mp hdown).1, ?_⟩
      rw [Disk.eq_append_of_follow hup hdown, ← hpieces, ← Path.names_eq_filterMap,
        Path.names_intercalate hentry]

/-! ## What a run changes -/

/-- Whatever is new on a disk is a directory, or a result for a file at its target. -/
structure ChangedBelow (dir : Path) (results : List (String × Except String (Report × String)))
    (disk after : Disk) : Prop where
  grows : disk.Grows after
  changed : ∀ place, after.sight place = disk.sight place ∨
    (disk.sight place = .nothing ∧ after.sight place = .directory) ∨
    ∃ file report code, (file, .ok (report, code)) ∈ results ∧
      after.locate (outPath dir file) = .ok place ∧ after.sight place = .file (.text code)

namespace ChangedBelow

variable {results : List (String × Except String (Report × String))} {later after : Disk}

theorem of_extends (h : disk.Extends after) : ChangedBelow dir results disk after where
  grows := h.grows
  changed place := (h.shows place).imp_right Or.inl

/-- Nothing is written for a file without a result. -/
theorem cons_error {file message : String} (h : ChangedBelow dir results disk after) :
    ChangedBelow dir ((file, .error message) :: results) disk after where
  grows := h.grows
  changed place := by
    rcases h.changed place with hsame | hmade | ⟨other, report, code, hmem, hwritten⟩
    · exact Or.inl hsame
    · exact Or.inr (Or.inl hmade)
    · exact Or.inr (Or.inr ⟨other, report, code, List.mem_cons_of_mem _ hmem, hwritten⟩)

/-- A result that is written changes its target, and the rest of the run may change it again. -/
theorem cons_ok {file code : String} {report : Report} {target : List String}
    (hstep : WritesBelow dir file code disk later target)
    (h : ChangedBelow dir results later after) :
    ChangedBelow dir ((file, .ok (report, code)) :: results) disk after where
  grows := hstep.grows.trans h.grows
  changed place := by
    rcases h.changed place with hsame | ⟨hnothing, hmade⟩ | ⟨other, r, code', hmem, hwritten⟩
    · rw [hsame]
      by_cases htarget : place = target ++ (Path.mk file).names
      · subst htarget
        exact Or.inr (Or.inr ⟨file, report, code, List.mem_cons_self,
          h.grows.locate hstep.target, hstep.written⟩)
      · exact (hstep.elsewhere htarget).imp_right Or.inl
    · -- There was nothing before this result was written either.
      have hbefore : disk.sight place = .nothing := by
        by_contra hthere
        exact hstep.grows.sight_ne_nothing hthere hnothing
      exact Or.inr (Or.inl ⟨hbefore, hmade⟩)
    · exact Or.inr (Or.inr ⟨other, r, code', List.mem_cons_of_mem _ hmem, hwritten⟩)

end ChangedBelow

/-- A run changes nothing but targets, whether or not it gets to its end. -/
theorem changedBelow_deliverAll {headers : Bool}
    {results : List (String × Except String (Report × String))} {o : Outcome}
    (hnames : ∀ file result, (file, .ok result) ∈ results → (Path.mk file).names ≠ [])
    (hdisk : o.disk = disk) :
    ChangedBelow dir results disk (deliverAll (.directory dir) headers results o).disk := by
  induction results generalizing o disk with
  | nil => exact .of_extends (hdisk ▸ .refl disk)
  | cons result results ih =>
    have hnames' : ∀ file result, (file, .ok result) ∈ results → (Path.mk file).names ≠ [] :=
      fun file result h => hnames file result (List.mem_cons_of_mem _ h)
    obtain ⟨file, message | ⟨report, code⟩⟩ := result
    · rw [deliverAll]
      exact .cons_error (ih hnames' hdisk)
    · rw [deliverAll, deliver_directory, hdisk]
      rcases writeBelow_cases disk (outPath dir file) code with
        ⟨e, herror, hmade⟩ | ⟨_, later, hwrite, _, _⟩
      · -- The run ends here, and only directories have been made for this result.
        rw [herror]
        exact .of_extends hmade
      · obtain ⟨target, hstep⟩ :=
          writesBelow_of_writeBelow (hnames file _ List.mem_cons_self) hwrite
        rw [hwrite]
        exact .cons_ok hstep (ih hnames' rfl)

theorem changedBelow_runTransform {c : TransformCommand} {sources : Sources}
    (hdir : c.outDir = some dir)
    (hsources : findSources disk c.paths c.sourceRoot c.verbose = .ok sources) :
    ChangedBelow dir (resultsFor disk sources) disk (runTransform disk c).disk := by
  have hdestination : destination c = .directory dir := by simp [destination, hdir]
  rw [disk_runTransform hsources, delivered, hdestination]
  exact changedBelow_deliverAll (fun _ _ => names_ne_nil_of_mem_resultsFor) rfl

/-! ## What lies elsewhere -/

/-- A transform that writes below a directory has changed targets below it, and nothing else but for
new directories. -/
structure ConfinedTo (dir : Path) (disk : Disk) (options : Options) (files : List String)
    (after : Disk) : Prop where
  /-- After the directory, the components of a target are all names. -/
  targets : ∀ file ∈ files,
    (outPath dir file).components = dir.components ++ (Path.mk file).names.map .name
  /-- What is new is a directory, or the result for a listed file, at its target and below the place
  where the directory is. -/
  changed : ∀ place, after.sight place = disk.sight place ∨
    (disk.sight place = .nothing ∧ after.sight place = .directory) ∨
    ∃ file ∈ files, ∃ report code base, attachFile disk options file = .ok (report, code) ∧
      after.locate (outPath dir file) = .ok place ∧ after.sight place = .file (.text code) ∧
      after.base dir = .ok base ∧ place = base ++ (Path.mk file).names
  /-- A file that does not lie below the place where the directory is has its content. -/
  outside : ∀ place content, (∀ base, after.base dir = .ok base → ¬ base <+: place) →
    (after.sight place = .file content ↔ disk.sight place = .file content)
  /-- So has a file that is not reached by any path that begins with the directory. -/
  unreached : ∀ place content,
    (∀ p : Path, p.startsWith dir = true → after.locate p ≠ .ok place) →
    (after.sight place = .file content ↔ disk.sight place = .file content)
  /-- Without steps up, whether a path leads below the directory is seen from its names. -/
  elsewhere : ∀ p : Path, p.isAbsolute = dir.isAbsolute → ".." ∉ p.pieces → ".." ∉ dir.pieces →
    ¬ dir.names <+: p.names →
    ∀ text, after.readText p = .ok text ↔ disk.readText p = .ok text
  /-- No file is made, and none is changed, for a listed file that fails. -/
  failed : ∀ file ∈ files, ∀ message, attachFile disk options file = .error message →
    (∀ other ∈ files, ∀ result, attachFile disk options other = .ok result →
      outPath dir other ≠ outPath dir file) →
    ∀ place content, after.locate (outPath dir file) = .ok place →
      after.sight place = .file content → disk.sight place = .file content

section OutDir

variable {sources : Sources} {after : Disk}
  (hchanged : ChangedBelow dir (resultsFor disk sources) disk after)

include hchanged

/-- What is new, in terms of the listed files. -/
theorem ChangedBelow.cases (place : List String) :
    after.sight place = disk.sight place ∨
    (disk.sight place = .nothing ∧ after.sight place = .directory) ∨
    ∃ file ∈ sources.found.files, ∃ report code base,
      attachFile disk sources.settings.options file = .ok (report, code) ∧
      after.locate (outPath dir file) = .ok place ∧ after.sight place = .file (.text code) ∧
      after.base dir = .ok base ∧ place = base ++ (Path.mk file).names := by
  rcases hchanged.changed place with hsame | hmade | ⟨file, report, code, hmem, hlocate, hsight⟩
  · exact Or.inl hsame
  · exact Or.inr (Or.inl hmade)
  · obtain ⟨other, hother, heq⟩ := List.mem_map.mp hmem
    obtain ⟨rfl, hattach⟩ := Prod.mk.inj heq
    obtain ⟨base, hbase, hplace⟩ := exists_base_of_locate hlocate
    exact Or.inr (Or.inr
      ⟨other, hother, report, code, base, hattach, hlocate, hsight, hbase, hplace⟩)

/-- A file has its content if its place is no target. -/
theorem ChangedBelow.sight_eq_file_iff {place : List String} (content : Content)
    (hplace : ∀ file ∈ sources.found.files, ∀ result,
      attachFile disk sources.settings.options file = .ok result →
      after.locate (outPath dir file) ≠ .ok place) :
    after.sight place = .file content ↔ disk.sight place = .file content := by
  rcases hchanged.cases place with
    hsame | ⟨hnothing, hmade⟩ | ⟨file, hfile, report, code, _, hattach, hlocate, _, _, _⟩
  · rw [hsame]
  · simp [hnothing, hmade]
  · exact absurd hlocate (hplace file hfile _ hattach)

theorem ChangedBelow.outside {place : List String} (content : Content)
    (hplace : ∀ base, after.base dir = .ok base → ¬ base <+: place) :
    after.sight place = .file content ↔ disk.sight place = .file content := by
  refine hchanged.sight_eq_file_iff content fun file _ _ _ hlocate => ?_
  obtain ⟨base, hbase, rfl⟩ := exists_base_of_locate hlocate
  exact hplace base hbase (List.prefix_append _ _)

/-- A path that does not lead below the directory reads as before. -/
theorem ChangedBelow.readText_iff {p : Path} (habsolute : p.isAbsolute = dir.isAbsolute)
    (hup : ".." ∉ p.pieces) (hdirUp : ".." ∉ dir.pieces) (hnames : ¬ dir.names <+: p.names)
    (text : String) : after.readText p = .ok text ↔ disk.readText p = .ok text := by
  have horigin : after.origin p = after.origin dir := by
    rw [Disk.origin, Disk.origin, habsolute]
  -- Both places are found by going down from the same origin.
  have hkept {place : List String} (hlocate : after.locate p = .ok place) :
      after.sight place = .file (.text text) ↔ disk.sight place = .file (.text text) := by
    refine hchanged.outside (.text text) fun base hbase hbelow => hnames ?_
    rw [Disk.eq_append_of_locate hup hlocate, Disk.eq_append_of_base hdirUp hbase, horigin,
      List.prefix_append_right_inj] at hbelow
    exact hbelow
  rw [Disk.readText_eq_ok, Disk.readText_eq_ok]
  constructor
  · rintro ⟨place, hlocate, hsight⟩
    have hbefore := (hkept hlocate).mp hsight
    refine ⟨place, ?_, hbefore⟩
    by_cases hempty : p.text = ""
    · rw [Disk.locate, if_pos hempty] at hlocate
      cases hlocate
    · rw [Disk.locate_of_ne hempty, hchanged.grows.origin] at hlocate
      rw [Disk.locate_of_ne hempty]
      exact Disk.follow_of_grows hchanged.grows hup hlocate hbefore
  · rintro ⟨place, hlocate, hsight⟩
    have hlater := hchanged.grows.locate hlocate
    exact ⟨place, hlater, (hkept hlater).mpr hsight⟩

end OutDir

/-- Whatever paths a transform is given, it changes nothing outside of its output directory, and for a
file that fails nothing at all. -/
theorem runTransform_confined (disk : Disk) (c : TransformCommand) (dir : Path)
    (hdir : c.outDir = some dir) :
    (∀ e, findSources disk c.paths c.sourceRoot c.verbose = .error e →
      (runTransform disk c).disk = disk) ∧
    ∀ sources, findSources disk c.paths c.sourceRoot c.verbose = .ok sources →
      ConfinedTo dir disk sources.settings.options sources.found.files (runTransform disk c).disk := by
  constructor
  · intro e he
    rw [runTransform, he]
    rfl
  · intro sources hsources
    have hchanged := changedBelow_runTransform hdir hsources
    exact {
      targets := fun file _ => components_outPath dir file
      changed := hchanged.cases
      outside := fun place content => hchanged.outside content
      unreached := by
        intro place content hplace
        refine hchanged.sight_eq_file_iff content fun file _ _ _ => hplace _ ?_
        rw [Path.startsWith, components_outPath]
        simp
      elsewhere := fun p habsolute hup hdirUp hnames =>
        hchanged.readText_iff habsolute hup hdirUp hnames
      failed := by
        intro file _ message _ hothers place content hlocate hsight
        refine (hchanged.sight_eq_file_iff content ?_).mp hsight
        intro other hother result hok hlocate'
        -- Both targets are at the place, so they have the same names.
        obtain ⟨base, hbase, hplace⟩ := exists_base_of_locate hlocate
        obtain ⟨base', hbase', hplace'⟩ := exists_base_of_locate hlocate'
        obtain rfl : base = base' := Except.ok.inj (hbase.symm.trans hbase')
        rw [hplace, List.append_cancel_left_eq] at hplace'
        exact hothers other hother result hok ((outPath_eq_iff dir other file).mpr hplace'.symm) }

/-- A disk with a file above the working directory, and one in it that is not text. -/
def fileAbove : Disk :=
  ⟨.directory [("A.jsx", .file (.text "a")), ("w", .directory [("B.jsx", .file (.bytes [255]))])],
    ["w"]⟩

/-- A command that lists both files. -/
def upAndUnreadable : TransformCommand :=
  ⟨[⟨"../A.jsx"⟩, ⟨"B.jsx"⟩], false, some ⟨"/w/out"⟩, none, false⟩

/-- A file that is reached by a step up is left as it is, since the step is not taken from the output
directory, and nothing is made for a file that cannot be read. -/
theorem runTransform_confined_fileAbove :
    (runTransform fileAbove upAndUnreadable).error = none ∧
    (outPath ⟨"/w/out"⟩ "../A.jsx").components = [.root, .name "w", .name "out", .name "A.jsx"] ∧
    (runTransform fileAbove upAndUnreadable).disk.readText ⟨"/A.jsx"⟩ = .ok "a" ∧
    ∀ place content,
      (runTransform fileAbove upAndUnreadable).disk.locate ⟨"/w/out/B.jsx"⟩ = .ok place →
      (runTransform fileAbove upAndUnreadable).disk.sight place ≠ .file content := by
  have hsources : findSources fileAbove upAndUnreadable.paths none false =
      .ok ⟨{}, ⟨["../A.jsx", "B.jsx"], 0⟩, ""⟩ := by rfl
  have hrun := (runTransform_confined fileAbove upAndUnreadable ⟨"/w/out"⟩ rfl).2 _ hsources
  have hfails : ∃ message, attachFile fileAbove {} "B.jsx" = .error message := ⟨_, rfl⟩
  obtain ⟨message, hmessage⟩ := hfails
  refine ⟨by decide +kernel, hrun.targets "../A.jsx" (by decide),
    (hrun.elsewhere ⟨"/A.jsx"⟩ (by decide) (by decide) (by decide) (by decide) "a").mpr rfl, ?_⟩
  intro place content hlocate hsight
  have hbefore := hrun.failed "B.jsx" (by decide) message hmessage ?_ place content hlocate hsight
  · rw [Disk.eq_append_of_locate (by decide) hlocate] at hbefore
    cases hbefore
  · intro other hother result hok
    rcases List.mem_pair.mp hother with rfl | rfl
    · decide
    · cases hmessage.symm.trans hok

end Command

end PropCatalog
