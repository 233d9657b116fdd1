import PropCatalog.Command.Run
import PropCatalog.Proofs.Writing

/-!
# Where results are delivered

A transform reads every file before it writes any.  What it makes of a file depends on what the file
held then and on the name at the end of its path, so it is the same under every path that leads to
the file (`Command.attachFile_of_locate`).

With results written in place, every file that could be read and parsed holds its own result
afterwards, whatever else is in the list, and nothing else changes
(`Command.runTransform_inPlace`).
-/

namespace PropCatalog

/-- The dialect is told by the name at the end of a path. -/
theorem Source.Dialect.ofPath_congr {p q : Path} (h : p.fileName? = q.fileName?) :
    Dialect.ofPath p = Dialect.ofPath q := by
  have hextension : p.extension? = q.extension? := by
    rw [Path.extension?, Path.extension?, h]
  rw [Dialect.ofPath, Dialect.ofPath, hextension]

namespace Command

variable {disk : Disk} {options : Options}

theorem attachFile_eq_ok {file : String} {result : Report × String} :
    attachFile disk options file = .ok result ↔
      ∃ text, disk.readText ⟨file⟩ = .ok text ∧
        Source.attach? (.ofPath ⟨file⟩) text options = some result := by
  unfold attachFile
  cases hread : disk.readText ⟨file⟩ with
  | error fault => simp [hread, Except.mapError, bind, Except.bind]
  | ok text =>
    simp only [hread, Except.mapError, bind, Except.bind, Except.ok.injEq, exists_eq_left']
    cases Source.attach? (.ofPath ⟨file⟩) text options <;> simp

/-- A file for which there is a result is a file. -/
theorem sight_of_attachFile {file : String} {result : Report × String}
    (h : attachFile disk options file = .ok result) :
    ∃ place text, disk.locate ⟨file⟩ = .ok place ∧ disk.sight place = .file (.text text) := by
  obtain ⟨text, htext, _⟩ := attachFile_eq_ok.mp h
  obtain ⟨place, hlocate, hsight⟩ := Disk.readText_eq_ok.mp htext
  exact ⟨place, text, hlocate, hsight⟩

/-- The result for a file does not depend on the path that leads to it. -/
theorem attachFile_of_locate {file other : String} {place : List String}
    {result : Report × String} (hfile : disk.locate ⟨file⟩ = .ok place)
    (hother : disk.locate ⟨other⟩ = .ok place) (h : attachFile disk options file = .ok result) :
    attachFile disk options other = .ok result := by
  obtain ⟨text, htext, hattach⟩ := attachFile_eq_ok.mp h
  obtain ⟨place', hlocate, hsight⟩ := Disk.readText_eq_ok.mp htext
  obtain rfl : place' = place := Except.ok.inj (hlocate.symm.trans hfile)
  obtain ⟨_, name, r, hpieces, hname, _, _, hplace⟩ := Disk.pieces_of_locate_file hfile hsight
  obtain ⟨_, name', r', hpieces', hname', _, _, hplace'⟩ :=
    Disk.pieces_of_locate_file hother hsight
  obtain rfl : name = name' := by
    have hlast := congrArg List.getLast? (hplace.symm.trans hplace')
    simpa using hlast
  have hdialect : Source.Dialect.ofPath ⟨file⟩ = .ofPath ⟨other⟩ :=
    Source.Dialect.ofPath_congr
      ((Path.fileName?_of_pieces hpieces hname).trans
        (Path.fileName?_of_pieces hpieces' hname').symm)
  rw [attachFile_eq_ok]
  exact ⟨text, Disk.readText_eq_ok.mpr ⟨_, hother, hsight⟩, hdialect ▸ hattach⟩

/-! ## Delivering one result after the other -/

/-- Delivering a result leaves the exit code and the error as they are. -/
theorem deliver_eq_ok {destination : Destination} {headers : Bool} {file code : String} {r : Report}
    {o next : Outcome} (h : deliver destination headers file r code o = .ok next) :
    next.exit = o.exit ∧ next.error = o.error := by
  cases destination with
  | print =>
    cases h
    exact ⟨rfl, rfl⟩
  | inPlace =>
    simp only [deliver, bind, Except.bind] at h
    split at h
    · cases h
    · cases h
      exact ⟨rfl, rfl⟩
  | directory dir =>
    simp only [deliver, bind, Except.bind] at h
    split at h
    · cases h
    · cases h
      exact ⟨rfl, rfl⟩

/-- Unless the command itself fails, the exit code says whether there is a file without a result. -/
theorem exit_deliverAll {destination : Destination} {headers : Bool}
    {results : List (String × Except String (Report × String))} {o : Outcome}
    (h : (deliverAll destination headers results o).error = none) :
    (deliverAll destination headers results o).exit =
      if results.all fun result => result.2.isOk then o.exit else 1 := by
  induction results generalizing o with
  | nil => rfl
  | cons result results ih =>
    obtain ⟨file, message | ⟨r, code⟩⟩ := result
    · rw [deliverAll] at h ⊢
      rw [ih h, ite_self, List.all_cons]
      rfl
    · rw [deliverAll] at h ⊢
      cases hdeliver : deliver destination headers file r code o with
      | error message =>
        rw [hdeliver] at h
        cases h
      | ok next =>
        rw [hdeliver] at h
        dsimp only at h ⊢
        rw [ih h, (deliver_eq_ok hdeliver).1, List.all_cons]
        rfl

/-! ## Writing in place -/

/-- The files for which there is a result, each with its report and its code. -/
def successes (disk : Disk) (options : Options) (files : List String) :
    List (String × Report × String) :=
  files.filterMap fun file => (attachFile disk options file).toOption.map fun result =>
    (file, result)

/-- What is left when results have been written in place one after the other: whatever has been
written since `o`, each file with a result holds it, and the other places are as they were in `o`. -/
structure WrittenInPlace (disk : Disk) (options : Options) (files : List String)
    (o after : Outcome) : Prop where
  error : after.error = o.error
  output : after.output =
    o.output ++ String.join ((successes disk options files).map fun s => writtenLine s.1 s.2.1)
  workingDirectory : after.disk.workingDirectory = o.disk.workingDirectory
  written : ∀ file ∈ files, ∀ place r code, disk.locate ⟨file⟩ = .ok place →
    attachFile disk options file = .ok (r, code) → after.disk.sight place = .file (.text code)
  kept : ∀ place, (∀ file ∈ files, ∀ result, attachFile disk options file = .ok result →
    disk.locate ⟨file⟩ ≠ .ok place) → after.disk.sight place = o.disk.sight place

/-- A result can be written over a file that was there at the start. -/
theorem deliver_inPlace {o : Outcome} (hgrows : disk.Grows o.disk) {file : String}
    {place : List String} {c : Content} (hlocate : disk.locate ⟨file⟩ = .ok place)
    (hsight : disk.sight place = .file c) (headers : Bool) (r : Report) (code : String) :
    ∃ later, deliver .inPlace headers file r code o =
        .ok { o with disk := later, output := o.output ++ writtenLine file r } ∧
      o.disk.Puts place code later := by
  obtain ⟨d, hd⟩ := hgrows.file hsight
  obtain ⟨later, hwrite, hputs⟩ := Disk.writeText_of_locate code (hgrows.locate hlocate) hd
  refine ⟨later, ?_, hputs⟩
  simp [deliver, writeFile, hwrite, Except.mapError, bind, Except.bind, pure, Except.pure]

theorem writtenInPlace_deliverAll (headers : Bool) (files : List String) {o : Outcome}
    (hgrows : disk.Grows o.disk) :
    WrittenInPlace disk options files o
      (deliverAll .inPlace headers
        (files.map fun file => (file, attachFile disk options file)) o) := by
  induction files generalizing o with
  | nil =>
    exact ⟨rfl, by simp [successes, deliverAll], rfl, by simp, fun _ _ => rfl⟩
  | cons file files ih =>
    rw [List.map_cons]
    cases hattach : attachFile disk options file with
    | error message =>
      rw [deliverAll]
      have hrest := @ih { o with
          exit := 1
          warnings := o.warnings ++ line (failureMark ++ " " ++ file ++ ": " ++ message) } hgrows
      refine ⟨hrest.error, ?_, hrest.workingDirectory, ?_, ?_⟩
      · rw [hrest.output, successes, successes, List.filterMap_cons, hattach]
        rfl
      · intro other hother place r code hlocate hok
        rcases List.mem_cons.mp hother with rfl | hother
        · rw [hattach] at hok
          cases hok
        · exact hrest.written other hother place r code hlocate hok
      · intro place hplace
        exact hrest.kept place fun other hother => hplace other (List.mem_cons_of_mem _ hother)
    | ok result =>
      obtain ⟨r, code⟩ := result
      obtain ⟨place, text, hlocate, hsight⟩ := sight_of_attachFile hattach
      obtain ⟨later, hdeliver, hputs⟩ := deliver_inPlace hgrows hlocate hsight headers r code
      rw [deliverAll, hdeliver]
      have hrest := @ih { o with disk := later, output := o.output ++ writtenLine file r }
        (hgrows.trans hputs.grows)
      -- A file that comes later under another path has the same result as this one.
      have hhere : (deliverAll .inPlace headers
          (files.map fun file => (file, attachFile disk options file))
          { o with disk := later, output := o.output ++ writtenLine file r }).disk.sight place =
            .file (.text code) := by
        by_cases hagain : ∃ other ∈ files, disk.locate ⟨other⟩ = .ok place
        · obtain ⟨other, hother, hplace⟩ := hagain
          exact hrest.written other hother place r code hplace
            (attachFile_of_locate hlocate hplace hattach)
        · rw [hrest.kept place fun other hother _ _ hplace => hagain ⟨other, hother, hplace⟩]
          exact hputs.here
      refine ⟨hrest.error, ?_, hrest.workingDirectory.trans hputs.workingDirectory, ?_, ?_⟩
      · rw [hrest.output, successes, successes, List.filterMap_cons, hattach]
        simp [Except.toOption, String.join_cons, String.append_assoc]
      · intro other hother place' r' code' hlocate' hok
        rcases List.mem_cons.mp hother with rfl | hother
        · obtain rfl : place = place' := Except.ok.inj (hlocate.symm.trans hlocate')
          obtain ⟨rfl, rfl⟩ := Prod.mk.inj (Except.ok.inj (hattach.symm.trans hok))
          exact hhere
        · exact hrest.written other hother place' r' code' hlocate' hok
      · intro place' hplace'
        have hne : place' ≠ place := by
          rintro rfl
          exact hplace' file List.mem_cons_self _ hattach hlocate
        rw [hrest.kept place' fun other hother => hplace' other (List.mem_cons_of_mem _ hother)]
        exact hputs.elsewhere hne

/-- A place that a file with a result leads to shows a file before and after. -/
theorem WrittenInPlace.sight_cases {files : List String} {o after : Outcome}
    (h : WrittenInPlace disk options files o after) (place : List String) :
    (∃ c code, disk.sight place = .file c ∧ after.disk.sight place = .file (.text code)) ∨
      after.disk.sight place = o.disk.sight place := by
  by_cases hplace : ∃ file ∈ files, ∃ result, attachFile disk options file = .ok result ∧
      disk.locate ⟨file⟩ = .ok place
  · obtain ⟨file, hfile, ⟨r, code⟩, hattach, hlocate⟩ := hplace
    obtain ⟨place', text, hlocate', hsight⟩ := sight_of_attachFile hattach
    obtain rfl : place' = place := Except.ok.inj (hlocate'.symm.trans hlocate)
    exact Or.inl ⟨_, code, hsight, h.written file hfile _ r code hlocate hattach⟩
  · refine Or.inr (h.kept place fun file hfile result hattach hlocate => ?_)
    exact hplace ⟨file, hfile, result, hattach, hlocate⟩

theorem WrittenInPlace.grows {files : List String} {o after : Outcome}
    (h : WrittenInPlace disk options files o after) (ho : o.disk = disk) :
    disk.Grows after.disk where
  workingDirectory := ho ▸ h.workingDirectory
  directory {place} hplace := by
    rcases h.sight_cases place with ⟨c, _, hfile, _⟩ | hkept
    · rw [hplace] at hfile
      cases hfile
    · rw [hkept, ho, hplace]
  file {place c} hplace := by
    rcases h.sight_cases place with ⟨_, code, _, hwritten⟩ | hkept
    · exact ⟨_, hwritten⟩
    · exact ⟨c, by rw [hkept, ho, hplace]⟩

/-! ## Whole runs -/

/-- The results for the files that a command works on. -/
def resultsFor (disk : Disk) (sources : Sources) :
    List (String × Except String (Report × String)) :=
  sources.found.files.map fun file => (file, attachFile disk sources.settings.options file)

/-- The outcome of a transform when everything has been delivered and before it is summed up. -/
def delivered (disk : Disk) (c : TransformCommand) (sources : Sources) : Outcome :=
  deliverAll (destination c) (1 < (resultsFor disk sources).length) (resultsFor disk sources)
    { exit := 0, warnings := sources.notes, disk }

theorem runTransform_of_sources {c : TransformCommand} {sources : Sources}
    (hsources : findSources disk c.paths c.sourceRoot c.verbose = .ok sources) :
    runTransform disk c =
      if (delivered disk c sources).error.isSome then delivered disk c sources
      else { delivered disk c sources with
        warnings := (delivered disk c sources).warnings ++ skippedWarning sources.found.skipped
        output := (delivered disk c sources).output ++
          if destination c = .print then "" else transformSummary (resultsFor disk sources) } := by
  rw [runTransform, hsources]
  rfl

theorem disk_runTransform {c : TransformCommand} {sources : Sources}
    (hsources : findSources disk c.paths c.sourceRoot c.verbose = .ok sources) :
    (runTransform disk c).disk = (delivered disk c sources).disk := by
  rw [runTransform_of_sources hsources]
  split <;> rfl

theorem error_runTransform {c : TransformCommand} {sources : Sources}
    (hsources : findSources disk c.paths c.sourceRoot c.verbose = .ok sources) :
    (runTransform disk c).error = (delivered disk c sources).error := by
  rw [runTransform_of_sources hsources]
  split <;> rfl

theorem all_isOk_resultsFor {disk : Disk} {sources : Sources} :
    ((resultsFor disk sources).all fun result => result.2.isOk) = true ↔
      ∀ file ∈ sources.found.files,
        ∃ result, attachFile disk sources.settings.options file = .ok result := by
  rw [resultsFor, List.all_map, List.all_eq_true]
  refine forall₂_congr fun file _ => ?_
  rw [Function.comp_apply]
  cases attachFile disk sources.settings.options file with
  | error message => simp [Except.isOk, Except.toBool]
  | ok result => simp [Except.isOk, Except.toBool]

/-- The exit code of a transform that does not fail itself says whether a listed file failed. -/
theorem exit_runTransform {c : TransformCommand} {sources : Sources}
    (hsources : findSources disk c.paths c.sourceRoot c.verbose = .ok sources)
    (herror : (runTransform disk c).error = none) :
    ((runTransform disk c).exit = 1 ∧ ∃ file ∈ sources.found.files, ∃ message,
      attachFile disk sources.settings.options file = .error message) ∨
    ((runTransform disk c).exit = 0 ∧ ∀ file ∈ sources.found.files, ∃ result,
      attachFile disk sources.settings.options file = .ok result) := by
  rw [error_runTransform hsources] at herror
  have hexit : (runTransform disk c).exit =
      if (resultsFor disk sources).all fun result => result.2.isOk then 0 else 1 := by
    rw [runTransform_of_sources hsources, herror]
    exact exit_deliverAll herror
  by_cases hall : ((resultsFor disk sources).all fun result => result.2.isOk) = true
  · rw [if_pos hall] at hexit
    exact Or.inr ⟨hexit, all_isOk_resultsFor.mp hall⟩
  · rw [if_neg hall] at hexit
    refine Or.inl ⟨hexit, ?_⟩
    by_contra hnone
    refine hall (all_isOk_resultsFor.mpr fun file hfile => ?_)
    cases hattach : attachFile disk sources.settings.options file with
    | error message => exact absurd ⟨file, hfile, message, hattach⟩ hnone
    | ok result => exact ⟨result, rfl⟩

/-- Printing results writes nothing. -/
theorem disk_deliverAll_print (headers : Bool)
    (results : List (String × Except String (Report × String))) (o : Outcome) :
    (deliverAll .print headers results o).disk = o.disk := by
  induction results generalizing o with
  | nil => rfl
  | cons result results ih =>
    obtain ⟨file, message | ⟨r, code⟩⟩ := result
    · rw [deliverAll, ih]
    · rw [deliverAll]
      exact ih _

theorem succeeded_resultsFor (disk : Disk) (sources : Sources) :
    succeeded (resultsFor disk sources) =
      (successes disk sources.settings.options sources.found.files).map fun s => s.2.1 := by
  rw [succeeded, resultsFor, successes, List.filterMap_map, List.map_filterMap]
  refine List.filterMap_congr fun file _ => ?_
  rw [Function.comp_apply, Option.map_map]
  rfl

/-- What a transform that writes in place leaves behind. -/
structure TransformedInPlace (disk : Disk) (options : Options) (files : List String)
    (o : Outcome) : Prop where
  /-- The command does not fail. -/
  error : o.error = none
  /-- A listed file that could be read and parsed holds what its text from before gives. -/
  transformed : ∀ file ∈ files, ∀ text report code, disk.readText ⟨file⟩ = .ok text →
    Source.attach? (.ofPath ⟨file⟩) text options = some (report, code) →
    o.disk.readText ⟨file⟩ = .ok code
  /-- A listed file that failed is as it was. -/
  failed : ∀ file ∈ files, ∀ message, attachFile disk options file = .error message →
    ∀ place, disk.locate ⟨file⟩ = .ok place → o.disk.sight place = disk.sight place
  /-- Every place where there is no listed file is as it was. -/
  others : ∀ place, (∀ file ∈ files, disk.locate ⟨file⟩ ≠ .ok place) →
    o.disk.sight place = disk.sight place
  /-- The exit code says whether a listed file failed. -/
  exit : (o.exit = 1 ∧ ∃ file ∈ files, ∃ message, attachFile disk options file = .error message) ∨
    (o.exit = 0 ∧ ∀ file ∈ files, ∃ result, attachFile disk options file = .ok result)
  /-- There is a line for each file that was written, and one that counts the files that were
  written, those that were listed, and the components that were given metadata. -/
  output : o.output =
    String.join ((successes disk options files).map fun s => writtenLine s.1 s.2.1) ++
      (line "" ++ line ("Transformed " ++ toString (successes disk options files).length ++ " of " ++
        toString files.length ++ " files, " ++
        toString (((successes disk options files).map fun s => s.2.1.emittedCount).foldr (· + ·) 0) ++
        " with metadata"))

/-- A transform that writes in place gives every listed file that could be read and parsed its own
result, once and whatever else is listed, and leaves everything else as it is.  A transform that
prints its results leaves the whole disk as it is. -/
theorem runTransform_inPlace (disk : Disk) (c : TransformCommand) (hdir : c.outDir = none) :
    (c.write = true → ∀ sources,
      findSources disk c.paths c.sourceRoot c.verbose = .ok sources →
      TransformedInPlace disk sources.settings.options sources.found.files (runTransform disk c)) ∧
    (c.write = false → (runTransform disk c).disk = disk) := by
  constructor
  · intro hwrite sources hsources
    have hdestination : destination c = .inPlace := by simp [destination, hdir, hwrite]
    have hrun : WrittenInPlace disk sources.settings.options sources.found.files
        { exit := 0, warnings := sources.notes, disk } (delivered disk c sources) := by
      rw [delivered, hdestination]
      exact writtenInPlace_deliverAll _ _ (.refl disk)
    have herror : (delivered disk c sources).error = none := hrun.error
    have hdisk := disk_runTransform hsources
    have herror' := (error_runTransform hsources).trans herror
    refine ⟨herror', ?_, ?_, ?_, exit_runTransform hsources herror', ?_⟩
    · intro file hfile text report code htext hattach
      obtain ⟨place, hlocate, _⟩ := Disk.readText_eq_ok.mp htext
      rw [hdisk, Disk.readText_eq_ok]
      exact ⟨place, (hrun.grows rfl).locate hlocate, hrun.written file hfile place report code
        hlocate (attachFile_eq_ok.mpr ⟨text, htext, hattach⟩)⟩
    · intro file hfile message hfailed place hlocate
      rw [hdisk]
      -- A file with a result at the same place would have the same text, and so no fault.
      refine hrun.kept place fun other hother result hok hlocate' => ?_
      rw [attachFile_of_locate hlocate' hlocate hok] at hfailed
      cases hfailed
    · intro place hplace
      rw [hdisk]
      exact hrun.kept place fun file hfile _ _ => hplace file hfile
    · rw [runTransform_of_sources hsources, herror, hdestination]
      change (delivered disk c sources).output ++ transformSummary (resultsFor disk sources) = _
      rw [hrun.output, transformSummary, succeeded_resultsFor]
      simp [resultsFor, Function.comp_def]
  · intro hwrite
    have hdestination : destination c = .print := by simp [destination, hdir, hwrite]
    cases hsources : findSources disk c.paths c.sourceRoot c.verbose with
    | error e =>
      rw [runTransform, hsources]
      rfl
    | ok sources =>
      rw [disk_runTransform hsources, delivered, hdestination, disk_deliverAll_print]

/-- A disk with two files, the second of which cannot be parsed. -/
def twoFiles : Disk :=
  ⟨.directory [("A.jsx", .file (.text "a")), ("B.jsx", .file (.text ")"))], []⟩

/-- A command that lists the first file under two paths. -/
def twoPaths (write : Bool) : TransformCommand :=
  ⟨[⟨"A.jsx"⟩, ⟨"./A.jsx"⟩, ⟨"B.jsx"⟩], write, none, none, false⟩

/-- A file that is listed under two paths is transformed once, and one that cannot be parsed is left
as it is. -/
theorem runTransform_inPlace_twoPaths :
    (∃ result, Source.attach? (.ofPath ⟨"A.jsx"⟩) "a" {} = some result ∧
      (runTransform twoFiles (twoPaths true)).disk.readText ⟨"A.jsx"⟩ = .ok result.2) ∧
    (runTransform twoFiles (twoPaths true)).disk.sight ["B.jsx"] = .file (.text ")") ∧
    (runTransform twoFiles (twoPaths true)).exit = 1 ∧
    (runTransform twoFiles (twoPaths false)).disk = twoFiles := by
  have hsources : findSources twoFiles (twoPaths true).paths none false =
      .ok ⟨{}, ⟨["./A.jsx", "A.jsx", "B.jsx"], 0⟩, ""⟩ := by rfl
  have hrun := (runTransform_inPlace twoFiles (twoPaths true) rfl).1 rfl _ hsources
  have hparsed : (Source.attach? (.ofPath ⟨"A.jsx"⟩) "a" {}).isSome = true := by decide +kernel
  obtain ⟨result, hresult⟩ := Option.isSome_iff_exists.mp hparsed
  have hnone : (Source.attach? (.ofPath ⟨"B.jsx"⟩) ")" {}).isNone = true := by decide +kernel
  obtain ⟨message, hbroken⟩ : ∃ message, attachFile twoFiles {} "B.jsx" = .error message := by
    cases hattach : attachFile twoFiles {} "B.jsx" with
    | error message => exact ⟨message, rfl⟩
    | ok result =>
      obtain ⟨text, htext, hsome⟩ := attachFile_eq_ok.mp hattach
      obtain rfl : ")" = text := Except.ok.inj htext
      rw [Option.isNone_iff_eq_none.mp hnone] at hsome
      cases hsome
  refine ⟨⟨result, hresult, hrun.transformed "A.jsx" (by decide) "a" result.1 result.2 rfl hresult⟩,
    hrun.failed "B.jsx" (by decide) _ hbroken _ rfl, ?_,
    (runTransform_inPlace twoFiles (twoPaths false) rfl).2 rfl⟩
  rcases hrun.exit with ⟨hexit, _⟩ | ⟨_, hall⟩
  · exact hexit
  · obtain ⟨result, hresult⟩ := hall "B.jsx" (by decide)
    cases hbroken.symm.trans hresult

end Command

end PropCatalog
