import PropCatalog.Command.Run

/-!
# The files that arguments stand for

A command that is given paths works on the files that they stand for: a file stands for itself,
whatever the settings ignore, and a directory for what a scan of it finds.  What it is given is
looked at path by path, and the first that is not there ends it (`resolveFiles_eq_error`).

Otherwise the files are listed in ascending order (`exists_resolveFiles`).  An ascending list is known
by its members (`Text.eq_of_mem_iff`), so the list does not depend on the order in which the
paths are given, nor on how often each of them is.
-/

namespace PropCatalog

/-- An ascending list of texts is known by its members. -/
theorem Text.eq_of_mem_iff {xs ys : List String} (hxs : xs.Pairwise (· < ·))
    (hys : ys.Pairwise (· < ·)) (hmem : ∀ text, text ∈ xs ↔ text ∈ ys) : xs = ys := by
  have hnodup {texts : List String} (h : texts.Pairwise (· < ·)) : texts.Nodup := by
    refine h.imp fun {s t} hlt heq => ?_
    rw [heq] at hlt
    exact String.lt_irrefl t hlt
  have hperm : xs.Perm ys := (List.perm_ext_iff_of_nodup (hnodup hxs) (hnodup hys)).mpr hmem
  exact hperm.eq_of_pairwise (fun s t _ _ hst hts => absurd hts (String.lt_asymm hst)) hxs hys

namespace Command

variable (disk : Disk) (settings : Settings)

/-! ## One argument -/

/-- Whether there is neither a directory nor a file at a path. -/
def isMissing (p : Path) : Bool := !disk.isDirectory p && !disk.isFile p

/-- A path argument stands for a file: it names the file as it is given, or a directory in which a
scan without includes finds it. -/
def StandsFor (p : Path) (text : String) : Prop :=
  (disk.isFile p = true ∧ text = p.text) ∨
  (disk.isDirectory p = true ∧
    text ∈ (disk.scan ⟨p, [], settings.ignores, settings.ignoreTestFiles⟩).files)

theorem isMissing_iff {disk : Disk} {p : Path} :
    isMissing disk p = true ↔ disk.isDirectory p = false ∧ disk.isFile p = false := by
  simp [isMissing]

theorem isFile_eq_false_of_isDirectory {disk : Disk} {p : Path} (h : disk.isDirectory p = true) :
    disk.isFile p = false := by
  unfold Disk.isDirectory at h
  unfold Disk.isFile
  split at h
  · next hdirectory => rw [hdirectory]
  · cases h

/-- A file stands for itself. -/
theorem standsFor_of_isFile {p : Path} (h : disk.isFile p = true) {text : String} :
    StandsFor disk settings p text ↔ text = p.text := by
  constructor
  · rintro (⟨_, htext⟩ | ⟨hdirectory, _⟩)
    · exact htext
    · rw [isFile_eq_false_of_isDirectory hdirectory] at h
      cases h
  · intro htext
    exact Or.inl ⟨h, htext⟩

theorem filesAt_of_isMissing {p : Path} (h : isMissing disk p = true) :
    filesAt disk settings p = .error ("Path does not exist: " ++ p.text) := by
  obtain ⟨hdirectory, hfile⟩ := isMissing_iff.mp h
  simp [filesAt, hdirectory, hfile]

/-- An argument that is there gives the files that it stands for. -/
theorem exists_filesAt {p : Path} (h : isMissing disk p = false) :
    ∃ result, filesAt disk settings p = .ok result ∧
      ∀ text, text ∈ result.files ↔ StandsFor disk settings p text := by
  unfold filesAt StandsFor
  cases hdirectory : disk.isDirectory p with
  | true => exact ⟨_, rfl, by simp [isFile_eq_false_of_isDirectory hdirectory]⟩
  | false =>
    have hfile : disk.isFile p = true := by simpa [isMissing, hdirectory] using h
    exact ⟨⟨[p.text], 0⟩, by simp [hfile], by simp [hfile]⟩

/-! ## All arguments -/

/-- The first argument that is missing ends the command. -/
theorem mapM_filesAt_of_isMissing {paths : List Path} {p : Path}
    (h : paths.find? (isMissing disk) = some p) :
    paths.mapM (filesAt disk settings) = .error ("Path does not exist: " ++ p.text) := by
  induction paths with
  | nil => cases h
  | cons q paths ih =>
    rw [List.mapM_cons]
    cases hq : isMissing disk q with
    | true =>
      rw [List.find?_cons_of_pos hq] at h
      rw [filesAt_of_isMissing disk settings hq, Option.some.inj h]
      rfl
    | false =>
      rw [List.find?_cons_of_neg (by simp [hq])] at h
      obtain ⟨result, hresult, _⟩ := exists_filesAt disk settings hq
      rw [hresult, ih h]
      rfl

/-- If no argument is missing, together they give the files that any of them stands for. -/
theorem exists_mapM_filesAt {paths : List Path} (h : ∀ p ∈ paths, isMissing disk p = false) :
    ∃ results, paths.mapM (filesAt disk settings) = .ok results ∧
      ∀ text, text ∈ results.flatMap ScanResult.files ↔
        ∃ p ∈ paths, StandsFor disk settings p text := by
  induction paths with
  | nil => exact ⟨[], rfl, by simp⟩
  | cons p paths ih =>
    obtain ⟨hp, hpaths⟩ := List.forall_mem_cons.mp h
    obtain ⟨result, hresult, hfiles⟩ := exists_filesAt disk settings hp
    obtain ⟨results, hresults, hall⟩ := ih hpaths
    refine ⟨result :: results, ?_, fun text => ?_⟩
    · rw [List.mapM_cons, hresult, hresults]
      rfl
    · simp [hfiles, hall]

variable (root : Path) {paths : List Path}

/-- A command that is given paths fails because of the first of them that is missing. -/
theorem resolveFiles_of_isMissing (hne : paths ≠ []) {p : Path}
    (h : paths.find? (isMissing disk) = some p) :
    resolveFiles disk settings root paths = .error ("Path does not exist: " ++ p.text) := by
  rw [resolveFiles, if_neg (by simpa using hne), mapM_filesAt_of_isMissing disk settings h]
  rfl

/-- Without a missing path the files that the paths stand for are listed in ascending order. -/
theorem exists_resolveFiles (hne : paths ≠ []) (h : ∀ p ∈ paths, isMissing disk p = false) :
    ∃ found, resolveFiles disk settings root paths = .ok found ∧
      found.files.Pairwise (· < ·) ∧
      ∀ text, text ∈ found.files ↔ ∃ p ∈ paths, StandsFor disk settings p text := by
  obtain ⟨results, hresults, hall⟩ := exists_mapM_filesAt disk settings h
  rw [resolveFiles, if_neg (by simpa using hne), hresults]
  exact ⟨_, rfl, Text.pairwise_ascending _, fun text => Text.mem_ascending.trans (hall text)⟩

/-- A command that is given paths fails exactly if one of them is missing. -/
theorem resolveFiles_eq_error (hne : paths ≠ []) {message : String} :
    resolveFiles disk settings root paths = .error message ↔
      ∃ p, paths.find? (isMissing disk) = some p ∧
        message = "Path does not exist: " ++ p.text := by
  cases hfind : paths.find? (isMissing disk) with
  | some p =>
    rw [resolveFiles_of_isMissing disk settings root hne hfind]
    simp [eq_comm]
  | none =>
    have hthere : ∀ p ∈ paths, isMissing disk p = false := by
      simpa using List.find?_eq_none.mp hfind
    obtain ⟨found, hfound, _⟩ := exists_resolveFiles disk settings root hne hthere
    simp [hfound]

/-- The files that a command lists, unless it fails. -/
def listed? (paths : List Path) : Option (List String) :=
  (resolveFiles disk settings root paths).toOption.map ScanResult.files

/-- Arguments of which the same are missing and which stand for the same files are as good as each
other. -/
theorem listed?_congr {others : List Path} (hne : paths ≠ []) (hothers : others ≠ [])
    (hmissing : (∃ p ∈ others, isMissing disk p = true) ↔ ∃ p ∈ paths, isMissing disk p = true)
    (hfiles : ∀ text, (∃ p ∈ others, StandsFor disk settings p text) ↔
      ∃ p ∈ paths, StandsFor disk settings p text) :
    listed? disk settings root others = listed? disk settings root paths := by
  unfold listed?
  by_cases hsome : ∃ p ∈ paths, isMissing disk p = true
  · have hnone {ps : List Path} (hps : ps ≠ []) (h : ∃ p ∈ ps, isMissing disk p = true) :
        (resolveFiles disk settings root ps).toOption = none := by
      obtain ⟨p, hp⟩ := Option.isSome_iff_exists.mp (List.find?_isSome.mpr h)
      rw [resolveFiles_of_isMissing disk settings root hps hp]
      rfl
    rw [hnone hne hsome, hnone hothers (hmissing.mpr hsome)]
  · have hthere {ps : List Path} (h : ¬ ∃ p ∈ ps, isMissing disk p = true) :
        ∀ p ∈ ps, isMissing disk p = false := by
      simpa using h
    obtain ⟨found, hfound, hascending, hmem⟩ :=
      exists_resolveFiles disk settings root hne (hthere hsome)
    obtain ⟨found', hfound', hascending', hmem'⟩ :=
      exists_resolveFiles disk settings root hothers (hthere (mt hmissing.mp hsome))
    rw [hfound, hfound']
    have hsame : found'.files = found.files := by
      refine Text.eq_of_mem_iff hascending' hascending fun text => ?_
      rw [hmem', hmem, hfiles]
    exact congrArg some hsame

/-- What a command that is given paths works on.  It fails exactly if one of them is neither a
directory nor a file, and it names the first that is not.  Otherwise it lists, in strictly ascending
order, the given files as they are given and what scans without includes find in the given
directories.  So the order and the repetition of the paths make no difference, and neither does
another path to a file that is listed under that path already. -/
theorem resolveFiles_given (hne : paths ≠ []) :
    ((∃ message, resolveFiles disk settings root paths = .error message) ↔
      ∃ p ∈ paths, disk.isDirectory p = false ∧ disk.isFile p = false) ∧
    (∀ message, resolveFiles disk settings root paths = .error message →
      ∃ before p after, paths = before ++ p :: after ∧
        (∀ q ∈ before, disk.isDirectory q = true ∨ disk.isFile q = true) ∧
        disk.isDirectory p = false ∧ disk.isFile p = false ∧
        message = "Path does not exist: " ++ p.text) ∧
    ((∀ p ∈ paths, disk.isDirectory p = true ∨ disk.isFile p = true) →
      ∃ found, resolveFiles disk settings root paths = .ok found ∧
        found.files.Pairwise (· < ·) ∧
        ∀ text, text ∈ found.files ↔
          ∃ p ∈ paths, (disk.isFile p = true ∧ text = p.text) ∨
            (disk.isDirectory p = true ∧
              text ∈ (disk.scan ⟨p, [], settings.ignores, settings.ignoreTestFiles⟩).files)) ∧
    (∀ others : List Path, (∀ p, p ∈ others ↔ p ∈ paths) →
      listed? disk settings root others = listed? disk settings root paths) ∧
    ∀ dir ∈ paths, disk.isDirectory dir = true → ∀ file : Path, disk.isFile file = true →
      file.text ∈ (disk.scan ⟨dir, [], settings.ignores, settings.ignoreTestFiles⟩).files →
      ∀ others : List Path, (∀ p, p ∈ others ↔ p = file ∨ p ∈ paths) →
        listed? disk settings root others = listed? disk settings root paths := by
  have hthere (p : Path) : isMissing disk p = false ↔
      disk.isDirectory p = true ∨ disk.isFile p = true := by
    cases hd : disk.isDirectory p <;> simp [isMissing, hd]
  have hnonempty {others : List Path} (h : ∀ p ∈ paths, p ∈ others) : others ≠ [] := by
    obtain ⟨p, rest, rfl⟩ := List.exists_cons_of_ne_nil hne
    exact List.ne_nil_of_mem (h p List.mem_cons_self)
  refine ⟨?_, ?_, ?_, ?_, ?_⟩
  · simp only [resolveFiles_eq_error disk settings root hne, ← isMissing_iff]
    rw [← List.find?_isSome, Option.isSome_iff_exists]
    exact ⟨fun ⟨_, p, hp, _⟩ => ⟨p, hp⟩, fun ⟨p, hp⟩ => ⟨_, p, hp, rfl⟩⟩
  · intro message herror
    obtain ⟨p, hfind, rfl⟩ := (resolveFiles_eq_error disk settings root hne).mp herror
    obtain ⟨hp, before, after, hpaths, hbefore⟩ := List.find?_eq_some_iff_append.mp hfind
    obtain ⟨hdirectory, hfile⟩ := isMissing_iff.mp hp
    exact ⟨before, p, after, hpaths, fun q hq => (hthere q).mp (by simpa using hbefore q hq),
      hdirectory, hfile, rfl⟩
  · intro h
    exact exists_resolveFiles disk settings root hne fun p hp => (hthere p).mpr (h p hp)
  · intro others hothers
    refine listed?_congr disk settings root hne (hnonempty fun p => (hothers p).mpr) ?_ ?_
    · simp only [hothers]
    · simp only [hothers, implies_true]
  · intro dir hdir hdirectory file hfile hlisted others hothers
    refine listed?_congr disk settings root hne
      (hnonempty fun p hp => (hothers p).mpr (Or.inr hp)) ?_ fun text => ?_
    · -- The file is there, so it is not what is missing.
      have hfound : isMissing disk file = false := (hthere file).mpr (Or.inr hfile)
      simp [hothers, hfound]
    · constructor
      · rintro ⟨p, hp, hstands⟩
        rcases (hothers p).mp hp with rfl | hp
        · rw [standsFor_of_isFile disk settings hfile] at hstands
          exact ⟨dir, hdir, Or.inr ⟨hdirectory, hstands ▸ hlisted⟩⟩
        · exact ⟨p, hp, hstands⟩
      · rintro ⟨p, hp, hstands⟩
        exact ⟨p, (hothers p).mpr (Or.inr hp), hstands⟩

/-- A directory with a component and its test. -/
def componentWithTest : Disk :=
  ⟨.directory [("src", .directory [("A.jsx", .file (.text "a")),
    ("A.test.jsx", .file (.text "b"))])], []⟩

/-- A test is left out of the scan of its directory and listed if it is given itself.  To give the
component as well changes nothing. -/
theorem resolveFiles_given_test :
    (∃ found, resolveFiles componentWithTest {} ⟨"."⟩ [⟨"src/A.test.jsx"⟩, ⟨"src"⟩] = .ok found ∧
      "src/A.jsx" ∈ found.files ∧ "src/A.test.jsx" ∈ found.files) ∧
    "src/A.test.jsx" ∉ (componentWithTest.scan { base := ⟨"src"⟩ }).files ∧
    listed? componentWithTest {} ⟨"."⟩ [⟨"src"⟩, ⟨"src/A.jsx"⟩, ⟨"src/A.test.jsx"⟩] =
      listed? componentWithTest {} ⟨"."⟩ [⟨"src/A.test.jsx"⟩, ⟨"src"⟩] := by
  obtain ⟨_, _, hfound, _, hadded⟩ := resolveFiles_given componentWithTest {} ⟨"."⟩
    (show [(⟨"src/A.test.jsx"⟩ : Path), ⟨"src"⟩] ≠ [] by simp)
  have hscan : (componentWithTest.scan { base := ⟨"src"⟩ }).files = ["src/A.jsx"] := by
    decide +kernel
  obtain ⟨found, hok, _, hmem⟩ := hfound (by decide)
  refine ⟨⟨found, hok, (hmem _).mpr ?_, (hmem _).mpr ?_⟩, by simp [hscan], ?_⟩
  · exact ⟨⟨"src"⟩, by simp, Or.inr ⟨by decide, hscan ▸ List.mem_singleton_self _⟩⟩
  · exact ⟨⟨"src/A.test.jsx"⟩, by simp, Or.inl ⟨by decide, rfl⟩⟩
  · refine hadded ⟨"src"⟩ (by simp) (by decide) ⟨"src/A.jsx"⟩ (by decide)
      (hscan ▸ List.mem_singleton_self _) _ fun p => ?_
    simp only [List.mem_cons, List.not_mem_nil, or_false]
    grind

end Command

end PropCatalog
