import Mathlib.Data.List.Induction
import PropCatalog.Command.Run
import PropCatalog.Proofs.Places

/-!
# In which directories settings are looked for

The directories that the settings file is looked for in are read off the text of a path.  For an
absolute path these are the directories that it lies in, and the search finds the settings file
nearest to it that no repository stands before (`Disk.settingsFile?_absolute`).  The path of the
working directory that a command starts from if it is given none is `.`, and its text says nothing of
the directories above: only the working directory itself is looked in
(`Command.settings_workingDirectory`).
-/

namespace PropCatalog

theorem Settings.isEntryName_fileName : Path.IsEntryName Settings.fileName := by decide

theorem isEntryName_repositoryMark : Path.IsEntryName repositoryMark := by decide

/-- What is loaded from a settings file with a content. -/
def Content.loadAs (path : Path) : Content → Except LoadError LoadedSettings
  | .bytes _ => .error (.unreadable path .notText)
  | .text value => do
      let decoded ← (Settings.parse value).mapError (.undecodable path)
      let settings ← decoded.check.mapError (.unacceptable path)
      return ⟨settings, some path⟩

namespace Path

/-! ## Absolute paths -/

/-- The absolute path with given names. -/
def absolute (names : List String) : Path := ⟨"/" ++ "/".intercalate names⟩

theorem isAbsolute_absolute (names : List String) : (absolute names).isAbsolute = true := by
  simp [absolute, isAbsolute]

theorem absolute_text_ne (names : List String) : (absolute names).text ≠ "" := by
  simp [absolute]

theorem absolute_eq_intercalate {names : List String} (hne : names ≠ []) :
    absolute names = ⟨"/".intercalate ("" :: names)⟩ := by
  obtain ⟨name, others, rfl⟩ := List.exists_cons_of_ne_nil hne
  rw [absolute, String.intercalate_cons_cons, String.empty_append]

theorem pieces_absolute {names : List String} (hnames : ∀ name ∈ names, IsEntryName name)
    (hne : names ≠ []) : (absolute names).pieces = "" :: names := by
  have hslash := pieces_slash "" ("/".intercalate names)
  rw [String.empty_append, pieces_intercalate hnames hne] at hslash
  exact hslash

/-- The directories that an absolute path lies in are those of the path without its last name. -/
theorem ancestors_absolute_concat {names : List String} {name : String}
    (hnames : ∀ x ∈ names ++ [name], IsEntryName x) :
    (absolute (names ++ [name])).ancestors =
      absolute (names ++ [name]) :: (directories "/" (names.reverse ++ [""])).map Path.mk := by
  have hname := hnames name (by simp)
  obtain ⟨piece, rest, hrest⟩ := List.exists_cons_of_ne_nil
    (show names.reverse ++ [""] ≠ [] by simp)
  have hpieces : (absolute (names ++ [name])).pieces.reverse = name :: piece :: rest := by
    rw [pieces_absolute hnames (by simp), ← hrest]
    simp
  have hidle : dropIdle (name :: piece :: rest) = name :: piece :: rest := by
    simp [dropIdle, hname.1, hname.2.1]
  rw [ancestors, hpieces, hidle, isAbsolute_absolute, hrest]
  rfl

theorem ancestors_absolute {names : List String} (hnames : ∀ x ∈ names, IsEntryName x) :
    (absolute names).ancestors = (directories "/" (names.reverse ++ [""])).map Path.mk := by
  rcases List.eq_nil_or_concat names with rfl | ⟨front, name, rfl⟩
  · decide
  · rw [List.concat_eq_append] at hnames ⊢
    have hname := hnames name (by simp)
    have htext : "/".intercalate (name :: (front.reverse ++ [""])).reverse =
        (absolute (front ++ [name])).text := by
      rw [absolute_eq_intercalate (by simp)]
      simp
    rw [ancestors_absolute_concat hnames, List.reverse_append, List.reverse_singleton,
      List.singleton_append, List.cons_append, directories]
    simp only [hname.1, hname.2.1, decide_false, Bool.false_and, Bool.or_self, Bool.false_eq_true,
      if_false, htext, List.map_cons]

end Path

namespace Disk

variable {disk : Disk}

/-! ## Entries of directories -/

/-- The names of entries lead on from a path as they lead on from a place. -/
def EntriesAt (disk : Disk) (p : Path) (place : List String) : Prop :=
  ∀ name, Path.IsEntryName name → disk.get? (p.child name) = disk.root.get? (place ++ [name])

theorem entriesAt_of_locate {p : Path} {place : List String} (hp : p.text ≠ "")
    (hlocate : disk.locate p = .ok place) : disk.EntriesAt p place := by
  intro name hname
  rw [get?_child disk hp hname, get?_eq_bind, hlocate, Node.get?_concat]
  rfl

theorem entriesAt_empty (disk : Disk) : disk.EntriesAt ⟨""⟩ disk.workingDirectory := by
  intro name hname
  have hpieces : ((⟨""⟩ : Path).child name).pieces = [name] := Path.pieces_child ⟨""⟩ hname
  have horigin : disk.origin ((⟨""⟩ : Path).child name) = disk.workingDirectory :=
    disk.origin_join ⟨""⟩ (Path.isAbsolute_eq_false hname.2.2.2)
  rw [get?_eq_bind, locate_of_ne (Path.child_text_ne hname), hpieces, horigin, Node.get?_concat]
  exact disk.get?_follow_entryName disk.workingDirectory hname

/-- The directories that a directory lies in are there. -/
theorem sight_of_above {above place : List String} (h : above <+: place)
    (hplace : disk.sight place = .directory) : disk.sight above = .directory := by
  obtain ⟨rest, rfl⟩ := h
  cases rest with
  | nil => rwa [List.append_nil] at hplace
  | cons name rest =>
    refine Node.sight_eq_directory_of_append (by simp : name :: rest ≠ []) ?_
    rw [← sight, hplace]
    simp

/-- Names of entries lead to a directory that is there. -/
theorem follow_names {place names : List String} (hnames : ∀ name ∈ names, Path.IsEntryName name)
    (hthere : disk.sight (place ++ names) = .directory) :
    disk.follow place names = .ok (place ++ names) := by
  induction names generalizing place with
  | nil =>
    rw [List.append_nil]
    rfl
  | cons name names ih =>
    have hname := hnames name List.mem_cons_self
    have hplace := sight_of_above (List.prefix_append _ _) hthere
    rw [List.append_cons] at hthere ⊢
    have hnext := ih (fun x hx => hnames x (List.mem_cons_of_mem _ hx)) hthere
    have hdown := sight_of_above (List.prefix_append _ _) hthere
    rw [follow_cons_eq_ok, if_neg (not_or.mpr ⟨hname.1, hname.2.1⟩), if_neg hname.2.2.1]
    exact ⟨hplace, by simp [hdown], hnext⟩

theorem locate_absolute {place : List String} (hnames : ∀ name ∈ place, Path.IsEntryName name)
    (hdirectory : disk.sight place = .directory) : disk.locate (.absolute place) = .ok place := by
  have horigin : disk.origin (.absolute place) = [] := by
    rw [origin, Path.isAbsolute_absolute]
    rfl
  have hroot : disk.sight [] = .directory := sight_of_above List.nil_prefix hdirectory
  have hdown : disk.follow [] place = .ok place := follow_names hnames hdirectory
  rw [locate_of_ne (Path.absolute_text_ne place), horigin]
  by_cases hne : place = []
  · -- The root is spelled with a slash, which has an empty piece on either side.
    subst hne
    exact follow_cons_eq_ok.mpr ⟨hroot, follow_cons_eq_ok.mpr ⟨hroot, hdown⟩⟩
  · rw [Path.pieces_absolute hnames hne]
    exact follow_cons_eq_ok.mpr ⟨hroot, hdown⟩

/-! ## Settings files -/

/-- Whether there is a settings file in a directory. -/
def hasSettings (disk : Disk) (place : List String) : Bool :=
  match disk.sight (place ++ [Settings.fileName]) with
  | .file _ => true
  | _ => false

/-- Whether a directory holds a repository. -/
def hasRepository (disk : Disk) (place : List String) : Bool :=
  disk.sight (place ++ [repositoryMark]) != .nothing

theorem firstSettings?_cons {p : Path} {place : List String} (h : disk.EntriesAt p place)
    (ps : List Path) :
    disk.firstSettings? (p :: ps) =
      if disk.hasSettings place then some (p.child Settings.fileName)
      else if disk.hasRepository place then none
      else disk.firstSettings? ps := by
  have hfile : disk.isFile (p.child Settings.fileName) = disk.hasSettings place := by
    rw [isFile, h _ Settings.isEntryName_fileName, hasSettings, sight, Node.sight]
    cases disk.root.get? (place ++ [Settings.fileName]) with
    | none => rfl
    | some n => cases n <;> rfl
  have hmark : disk.exists? (p.child repositoryMark) = disk.hasRepository place := by
    rw [exists?, h _ isEntryName_repositoryMark, hasRepository, sight, Node.sight]
    cases disk.root.get? (place ++ [repositoryMark]) with
    | none => rfl
    | some n => cases n <;> rfl
  rw [firstSettings?, hfile, hmark]

/-- A directory is the first on the way up that has a settings file, and none before it holds a
repository. -/
structure NearestSettings (disk : Disk) (start place : List String) : Prop where
  above : place <+: start
  has : disk.hasSettings place = true
  first : ∀ between, place <+: between → between <+: start → between ≠ place →
    disk.hasSettings between = false ∧ disk.hasRepository between = false

namespace NearestSettings

variable {start place : List String}

theorem of_hasSettings (h : disk.hasSettings start = true) : disk.NearestSettings start start :=
  ⟨List.prefix_rfl, h, fun _ hplace hstart hne =>
    absurd (hstart.eq_of_length_le hplace.length_le) hne⟩

/-- Settings that are not found at the start are found above, unless there is a repository. -/
theorem hasRepository_eq_false (h : disk.NearestSettings start place)
    (hstart : disk.hasSettings start = false) : disk.hasRepository start = false := by
  refine (h.first start h.above List.prefix_rfl ?_).2
  rintro rfl
  cases hstart.symm.trans h.has

/-- A directory that has no settings and no repository is passed by. -/
theorem concat_iff {name : String} (hsettings : disk.hasSettings (start ++ [name]) = false)
    (hrepository : disk.hasRepository (start ++ [name]) = false) :
    disk.NearestSettings (start ++ [name]) place ↔ disk.NearestSettings start place := by
  constructor
  · intro h
    rcases List.prefix_concat_iff.mp h.above with rfl | habove
    · cases hsettings.symm.trans h.has
    · exact ⟨habove, h.has, fun between hplace hstart =>
        h.first between hplace (hstart.trans (List.prefix_append _ _))⟩
  · intro h
    refine ⟨h.above.trans (List.prefix_append _ _), h.has, fun between hplace hstart hne => ?_⟩
    rcases List.prefix_concat_iff.mp hstart with rfl | hstart
    · exact ⟨hsettings, hrepository⟩
    · exact h.first between hplace hstart hne

end NearestSettings

/-- From an absolute path, the nearest settings file is found, and none if there is none. -/
theorem settingsFile?_absolute {start : List String}
    (hnames : ∀ name ∈ start, Path.IsEntryName name) (hstart : disk.sight start = .directory) :
    (∃ place, disk.NearestSettings start place ∧
      disk.settingsFile? (.absolute start) = some ((Path.absolute place).child Settings.fileName)) ∨
    ((∀ place, ¬ disk.NearestSettings start place) ∧
      disk.settingsFile? (.absolute start) = none) := by
  -- By induction from the end: the directories above are those of the path without its last name.
  induction start using List.reverseRecOn with
  | nil =>
    have hentries := entriesAt_of_locate (Path.absolute_text_ne []) (locate_absolute hnames hstart)
    have hsearch : disk.settingsFile? (.absolute []) = _ := firstSettings?_cons hentries []
    rw [hsearch]
    cases hsettings : disk.hasSettings [] with
    | true => exact Or.inl ⟨[], .of_hasSettings hsettings, rfl⟩
    | false =>
      refine Or.inr ⟨fun place h => ?_, by cases disk.hasRepository [] <;> rfl⟩
      obtain rfl := List.prefix_nil.mp h.above
      cases hsettings.symm.trans h.has
  | append_singleton start name ih =>
    have hentries := entriesAt_of_locate (Path.absolute_text_ne _) (locate_absolute hnames hstart)
    have hnames' : ∀ x ∈ start, Path.IsEntryName x := fun x hx => hnames x (by simp [hx])
    have hsearch : disk.settingsFile? (.absolute (start ++ [name])) = _ :=
      (congrArg disk.firstSettings? (Path.ancestors_absolute_concat hnames)).trans
        (firstSettings?_cons hentries _)
    rw [← Path.ancestors_absolute hnames'] at hsearch
    rw [hsearch]
    cases hsettings : disk.hasSettings (start ++ [name]) with
    | true => exact Or.inl ⟨_, .of_hasSettings hsettings, rfl⟩
    | false =>
      cases hrepository : disk.hasRepository (start ++ [name]) with
      | true =>
        refine Or.inr ⟨fun place h => ?_, rfl⟩
        cases hrepository.symm.trans (h.hasRepository_eq_false hsettings)
      | false =>
        -- The search goes on, and so does what is nearest.
        simp only [NearestSettings.concat_iff hsettings hrepository]
        exact ih hnames' (sight_of_above (List.prefix_append _ _) hstart)

/-- From the path of the working directory, only the working directory is looked in. -/
theorem settingsFile?_here (hdirectory : disk.sight disk.workingDirectory = .directory) :
    disk.settingsFile? ⟨"."⟩ =
      if disk.hasSettings disk.workingDirectory then some ((⟨"."⟩ : Path).child Settings.fileName)
      else none := by
  have hlocate : disk.locate ⟨"."⟩ = .ok disk.workingDirectory :=
    follow_cons_eq_ok.mpr ⟨hdirectory, rfl⟩
  have hancestors : (⟨"."⟩ : Path).ancestors = [⟨"."⟩, ⟨""⟩] := by decide
  rw [settingsFile?, hancestors, firstSettings?_cons (entriesAt_of_locate (by decide) hlocate),
    firstSettings?_cons disk.entriesAt_empty]
  cases disk.hasSettings disk.workingDirectory with
  | true => rfl
  | false => cases disk.hasRepository disk.workingDirectory <;> rfl

theorem NearestSettings.unique {start place other : List String}
    (h : disk.NearestSettings start place) (h' : disk.NearestSettings start other) :
    place = other := by
  by_contra hne
  rcases List.prefix_or_prefix_of_prefix h.above h'.above with hbelow | hbelow
  · cases (h.first other hbelow h'.above (Ne.symm hne)).1.symm.trans h'.has
  · cases (h'.first place hbelow h.above hne).1.symm.trans h.has

/-! ## What is loaded -/

theorem hasSettings_eq_true {place : List String} :
    disk.hasSettings place = true ↔
      ∃ content, disk.sight (place ++ [Settings.fileName]) = .file content := by
  rw [hasSettings]
  cases disk.sight (place ++ [Settings.fileName]) <;> simp

theorem loadFrom_of_get? {path : Path} {content : Content}
    (h : disk.get? path = some (.file content)) : disk.loadFrom path = content.loadAs path := by
  obtain ⟨place, hlocate, hfile⟩ : ∃ place, disk.locate path = .ok place ∧
      disk.root.get? place = some (.file content) := by
    rw [get?_eq_bind] at h
    cases hlocate : disk.locate path with
    | error fault =>
      rw [hlocate] at h
      cases h
    | ok place =>
      rw [hlocate] at h
      exact ⟨place, rfl, h⟩
  cases content with
  | text text =>
    have hread : disk.readText path = .ok text := by
      simp only [readText, hlocate, hfile, bind, Except.bind]
    rw [loadFrom, hread]
    rfl
  | bytes values =>
    have hread : disk.readText path = .error .notText := by
      simp only [readText, hlocate, hfile, bind, Except.bind]
    rw [loadFrom, hread]
    rfl

theorem loadSettings_of_entriesAt {start p : Path} {place : List String} {content : Content}
    (hfound : disk.settingsFile? start = some (p.child Settings.fileName))
    (hentries : disk.EntriesAt p place)
    (hcontent : disk.sight (place ++ [Settings.fileName]) = .file content) :
    disk.loadSettings start = content.loadAs (p.child Settings.fileName) := by
  rw [loadSettings, hfound]
  refine loadFrom_of_get? ?_
  rw [hentries _ Settings.isEntryName_fileName]
  exact Node.sight_eq_file.mp hcontent

/-- From an absolute path, the nearest settings are loaded. -/
theorem loadSettings_absolute {start place : List String} {content : Content}
    (hnames : ∀ name ∈ start, Path.IsEntryName name) (hstart : disk.sight start = .directory)
    (hnearest : disk.NearestSettings start place)
    (hcontent : disk.sight (place ++ [Settings.fileName]) = .file content) :
    disk.loadSettings (.absolute start) =
      content.loadAs ((Path.absolute place).child Settings.fileName) := by
  rcases settingsFile?_absolute hnames hstart with ⟨other, hother, hfound⟩ | ⟨hnone, _⟩
  · obtain rfl := hnearest.unique hother
    have hlocate : disk.locate (.absolute place) = .ok place :=
      locate_absolute (fun name hname => hnames name (hnearest.above.subset hname))
        (sight_of_above hnearest.above hstart)
    exact loadSettings_of_entriesAt hfound
      (entriesAt_of_locate (Path.absolute_text_ne place) hlocate) hcontent
  · exact absurd hnearest (hnone place)

theorem loadSettings_absolute_of_none {start : List String}
    (hnames : ∀ name ∈ start, Path.IsEntryName name) (hstart : disk.sight start = .directory)
    (hnone : ∀ place, ¬ disk.NearestSettings start place) :
    disk.loadSettings (.absolute start) = .ok ⟨{}, none⟩ := by
  rcases settingsFile?_absolute hnames hstart with ⟨place, hplace, _⟩ | ⟨_, hfound⟩
  · exact absurd hplace (hnone place)
  · rw [loadSettings, hfound]

end Disk

namespace Command

/-! ## Settings of commands -/

variable {disk : Disk}

/-- A command finds its files with the settings that it has loaded. -/
theorem findSources_eq_ok {paths : List Path} {root : Option Path} {verbose : Bool}
    {sources : Sources} :
    findSources disk paths root verbose = .ok sources ↔
      ∃ loaded found, disk.loadSettings (root.getD ⟨"."⟩) = .ok loaded ∧
        resolveFiles disk loaded.settings (root.getD ⟨"."⟩) paths = .ok found ∧
        sources = ⟨loaded.settings, found,
          if verbose && loaded.path.isNone then defaultsNote else ""⟩ := by
  rw [findSources]
  cases hload : disk.loadSettings (root.getD ⟨"."⟩) with
  | error e => simp [bind, Except.bind, Except.mapError]
  | ok loaded =>
    simp only [bind, Except.bind, Except.mapError]
    cases hfound : resolveFiles disk loaded.settings (root.getD ⟨"."⟩) paths with
    | error message => simp [hfound]
    | ok found =>
      constructor
      · intro h
        obtain rfl := Except.ok.inj h
        exact ⟨loaded, found, rfl, hfound, rfl⟩
      · rintro ⟨loaded', found', hload', hfound', rfl⟩
        obtain rfl := Except.ok.inj hload'
        obtain rfl := Except.ok.inj (hfound.symm.trans hfound')
        rfl

/-- Where a command that is given no directory finds its settings. -/
structure SettingsFromHere (disk : Disk) : Prop where
  /-- A settings file in the working directory is loaded. -/
  here : ∀ content,
    disk.sight (disk.workingDirectory ++ [Settings.fileName]) = .file content →
    disk.loadSettings ⟨"."⟩ = content.loadAs ⟨"./.ptmetarc.json"⟩
  /-- Without one it is the defaults, whatever there is in the directories above. -/
  defaults : disk.hasSettings disk.workingDirectory = false →
    disk.loadSettings ⟨"."⟩ = .ok ⟨{}, none⟩
  /-- These are the settings that the command has. -/
  command : ∀ paths verbose sources, findSources disk paths none verbose = .ok sources ↔
    ∃ loaded found, disk.loadSettings ⟨"."⟩ = .ok loaded ∧
      resolveFiles disk loaded.settings ⟨"."⟩ paths = .ok found ∧
      sources = ⟨loaded.settings, found,
        if verbose && loaded.path.isNone then defaultsNote else ""⟩
  /-- So the nearest settings file is missed if it is further up. -/
  missed : ∀ place, disk.NearestSettings disk.workingDirectory place →
    place ≠ disk.workingDirectory →
    ∀ paths verbose sources, findSources disk paths none verbose = .ok sources →
      sources.settings = {}
  /-- A command that is given the absolute path of the working directory finds it. -/
  absolute : ∀ place content, disk.NearestSettings disk.workingDirectory place →
    disk.sight (place ++ [Settings.fileName]) = .file content →
    disk.loadSettings (.absolute disk.workingDirectory) =
      content.loadAs ((Path.absolute place).child Settings.fileName)
  /-- It has the defaults only if no directory on the way has a settings file. -/
  absolute_defaults : (∀ place, ¬ disk.NearestSettings disk.workingDirectory place) →
    disk.loadSettings (.absolute disk.workingDirectory) = .ok ⟨{}, none⟩

/-- A command that is given no directory uses the settings file in its working directory, or else the
defaults: the directories above are not looked in, as they are for the absolute path of the working
directory. -/
theorem settings_workingDirectory (disk : Disk)
    (hnames : ∀ name ∈ disk.workingDirectory, Path.IsEntryName name)
    (hdirectory : disk.sight disk.workingDirectory = .directory) : SettingsFromHere disk := by
  have hfound := Disk.settingsFile?_here hdirectory
  have hdefaults (hnone : disk.hasSettings disk.workingDirectory = false) :
      disk.loadSettings ⟨"."⟩ = .ok ⟨{}, none⟩ := by
    rw [Disk.loadSettings, hfound, hnone]
    rfl
  refine ⟨?_, hdefaults, fun _ _ _ => findSources_eq_ok, ?_, ?_, ?_⟩
  · intro content hcontent
    rw [Disk.hasSettings_eq_true.mpr ⟨content, hcontent⟩] at hfound
    exact Disk.loadSettings_of_entriesAt hfound
      (Disk.entriesAt_of_locate (by decide) (Disk.follow_cons_eq_ok.mpr ⟨hdirectory, rfl⟩)) hcontent
  · intro place hnearest hne paths verbose sources hsources
    have hnone := (hnearest.first _ hnearest.above List.prefix_rfl (Ne.symm hne)).1
    obtain ⟨loaded, found, hload, _, rfl⟩ := findSources_eq_ok.mp hsources
    obtain rfl := Except.ok.inj ((hdefaults hnone).symm.trans hload)
    rfl
  · intro place content
    exact Disk.loadSettings_absolute hnames hdirectory
  · exact Disk.loadSettings_absolute_of_none hnames hdirectory

/-- Settings that name another metadata field. -/
def otherField : Content := .text "\x7b\"transform\":\x7b\"metadataField\":\"meta\"\x7d\x7d"

/-- A disk with a settings file above the working directory. -/
def settingsAbove : Disk :=
  ⟨.directory [(".ptmetarc.json", .file otherField),
    ("app", .directory [("A.jsx", .file (.text "a"))])], ["app"]⟩

theorem nearestSettings_settingsAbove : settingsAbove.NearestSettings ["app"] [] := by
  refine ⟨by decide, by decide, fun between _ hstart hne => ?_⟩
  rcases List.prefix_concat_iff.mp (show between <+: [] ++ ["app"] from hstart) with rfl | hnil
  · decide
  · exact absurd (List.prefix_nil.mp hnil) hne

/-- The settings are found from the absolute path of the working directory, and not without it. -/
theorem settings_workingDirectory_settingsAbove :
    settingsAbove.loadSettings ⟨"."⟩ = .ok ⟨{}, none⟩ ∧
    settingsAbove.loadSettings ⟨"/app"⟩ = otherField.loadAs ⟨"/.ptmetarc.json"⟩ := by
  have hsettings := settings_workingDirectory settingsAbove (by decide) (by decide)
  exact ⟨hsettings.defaults (by decide),
    hsettings.absolute [] otherField nearestSettings_settingsAbove (by decide)⟩

/-- The nearest settings file names one metadata field, and the command uses another. -/
theorem findSources_settingsAbove :
    settingsAbove.NearestSettings settingsAbove.workingDirectory [] ∧
    settingsAbove.sight ([] ++ [Settings.fileName]) = .file otherField ∧
    (otherField.loadAs ⟨"/.ptmetarc.json"⟩).toOption.map (·.settings.options.metadataField) =
      some "meta" ∧
    (findSources settingsAbove [⟨"A.jsx"⟩] none false).toOption.map
      (·.settings.options.metadataField) = some "__metadata" := by
  exact ⟨nearestSettings_settingsAbove, by decide, by decide +kernel, by decide +kernel⟩

end Command

end PropCatalog
