import PropCatalog.Files.Scan
import PropCatalog.Proofs.Places
import PropCatalog.Proofs.Properties

/-!
# What a scan finds

A scan walks its roots and keeps what is source text and not left out.  This file describes the
result without the walk: a path is found if it names a file, if it goes down from a root by names of
entries none of which but the last is skipped, and if no ignore entry speaks against it
(`Disk.scan_files`).

The walk goes through the entries of directories as they are listed, and a path is looked up by
names.  The two agree on a tree of files, in which the entries of a directory have different names
that can stand in a path (`Node.WellFormed`).
-/

namespace PropCatalog

namespace Node

/-- Whether the entries of every directory have different names that can stand in a path. -/
inductive WellFormed : Node → Prop
  | file (c : Content) : WellFormed (.file c)
  | directory {es : List (String × Node)} (nodup : (es.map Prod.fst).Nodup)
      (names : ∀ e ∈ es, Path.IsEntryName e.1) (nodes : ∀ e ∈ es, WellFormed e.2) :
      WellFormed (.directory es)

/-- In a directory of different names an entry is found under its name. -/
theorem lookup_eq_some_iff {es : List (String × Node)} (hnodup : (es.map Prod.fst).Nodup)
    {name : String} {n : Node} : es.lookup name = some n ↔ (name, n) ∈ es :=
  ⟨Component.Record.mem_of_lookup, Component.Record.lookup_of_mem hnodup⟩

/-! ## Walking -/

/-- Names lead down to a file through directories that a walk enters. -/
inductive Leads : Node → List String → Prop
  | file (c : Content) : Leads (.file c) []
  | entry {es : List (String × Node)} {name : String} {n : Node} {names : List String}
      (hentry : (name, n) ∈ es) (hentered : (n.isDirectory && isSkippedName name) = false)
      (hnames : Leads n names) : Leads (.directory es) (name :: names)

theorem walkEntries_eq_flatMap (path : Path) (es : List (String × Node)) :
    walkEntries path es = es.flatMap fun e =>
      if e.2.isDirectory && isSkippedName e.1 then [] else e.2.walk (path.child e.1) := by
  induction es with
  | nil => rfl
  | cons e es ih =>
    obtain ⟨name, n⟩ := e
    rw [walkEntries, ih, List.flatMap_cons]

end Node

/-- A path that goes down from another one by names. -/
def Path.descend (p : Path) (names : List String) : Path := names.foldl Path.child p

namespace Node

/-- A walk finds the files that names lead to, each under the path that goes down by the names. -/
theorem mem_walk {n : Node} {path p : Path} :
    p ∈ n.walk path ↔ ∃ names, n.Leads names ∧ p = path.descend names := by
  -- Every directory on the way adds its name to the path, so the path is any path.
  induction n using Node.induction generalizing path with
  | file c =>
    rw [walk, List.mem_singleton]
    constructor
    · rintro rfl
      exact ⟨[], .file c, rfl⟩
    · rintro ⟨names, hleads, rfl⟩
      cases hleads
      rfl
  | directory es ih =>
    rw [walk, walkEntries_eq_flatMap, List.mem_flatMap]
    constructor
    · rintro ⟨⟨name, n⟩, hentry, hp⟩
      dsimp only at hp
      split at hp
      · cases hp
      · next hentered =>
        obtain ⟨names, hleads, rfl⟩ := (ih _ hentry).mp hp
        exact ⟨name :: names, .entry hentry (by simpa using hentered) hleads, rfl⟩
    · rintro ⟨names, hleads, rfl⟩
      cases hleads with
      | entry hentry hentered hnames =>
        refine ⟨_, hentry, ?_⟩
        dsimp only
        rw [hentered, if_neg (by simp)]
        exact (ih _ hentry).mpr ⟨_, hnames, rfl⟩

/-- In a well-formed tree names lead to a file through directories that are entered exactly if they
lead to a file and none of them but the last is skipped. -/
theorem leads_iff {n : Node} (hn : n.WellFormed) {names : List String} :
    n.Leads names ↔
      (∀ name ∈ names, Path.IsEntryName name) ∧ (∃ c, n.get? names = some (.file c)) ∧
      ∀ name ∈ names.dropLast, isSkippedName name = false := by
  induction n using Node.induction generalizing names with
  | file c =>
    constructor
    · intro hleads
      cases hleads
      exact ⟨by simp, ⟨c, rfl⟩, by simp⟩
    · rintro ⟨_, ⟨content, hfile⟩, _⟩
      cases names with
      | nil => exact .file c
      | cons name names => simp [get?, entries] at hfile
  | directory es ih =>
    cases hn with
    | directory hnodup hnames hnodes =>
      constructor
      · intro hleads
        cases hleads with
        | @entry _ name n names hentry hentered hrest =>
          obtain ⟨hproper, hfile, hskip⟩ := (ih _ hentry (hnodes _ hentry)).mp hrest
          refine ⟨List.forall_mem_cons.mpr ⟨hnames _ hentry, hproper⟩, ?_, ?_⟩
          · rw [get?, entries, (lookup_eq_some_iff hnodup).mpr hentry]
            exact hfile
          · cases names with
            | nil => simp
            | cons second others =>
              -- More names follow, so this one is that of a directory.
              have hdirectory : n.isDirectory = true := by
                cases hrest
                rfl
              rw [List.dropLast_cons_cons]
              refine List.forall_mem_cons.mpr ⟨?_, hskip⟩
              simpa [hdirectory] using hentered
      · rintro ⟨hproper, ⟨c, hfile⟩, hskip⟩
        cases names with
        | nil => cases hfile
        | cons name names =>
          obtain ⟨n, hlookup, hrest⟩ := Option.bind_eq_some_iff.mp hfile
          have hentry : (name, n) ∈ es := (lookup_eq_some_iff hnodup).mp hlookup
          -- A last name may be a skipped one, since it is that of a file.
          have hentered : (n.isDirectory && isSkippedName name) = false := by
            cases names with
            | nil =>
              obtain rfl : n = .file c := Option.some.inj hrest
              rfl
            | cons second others =>
              rw [hskip name (by simp), Bool.and_false]
          refine .entry hentry hentered ((ih _ hentry (hnodes _ hentry)).mpr ⟨?_, ⟨c, hrest⟩, ?_⟩)
          · exact fun x hx => hproper x (List.mem_cons_of_mem _ hx)
          · intro x hx
            cases names with
            | nil => cases hx
            | cons second others =>
              rw [List.dropLast_cons_cons] at hskip
              exact hskip x (List.mem_cons_of_mem _ hx)

/-- Everything in a well-formed tree is well-formed. -/
theorem WellFormed.get? {n m : Node} (hn : n.WellFormed) {place : List String}
    (hm : n.get? place = some m) : m.WellFormed := by
  induction place generalizing n with
  | nil =>
    obtain rfl : n = m := Option.some.inj hm
    exact hn
  | cons name place ih =>
    obtain ⟨child, hchild, hrest⟩ := Option.bind_eq_some_iff.mp hm
    cases hn with
    | file c => cases hchild
    | directory hnodup _ hnodes =>
      exact ih (hnodes _ (Component.Record.mem_of_lookup hchild)) hrest

end Node

namespace Disk

/-- What a path that goes down by names of entries leads to is what the names lead to from where the
path leads. -/
theorem get?_descend (disk : Disk) {p : Path} (hp : p.text ≠ "") {names : List String}
    (hnames : ∀ name ∈ names, Path.IsEntryName name) :
    disk.get? (p.descend names) = (disk.get? p).bind (Node.get? names) := by
  induction names generalizing p with
  | nil =>
    rw [Path.descend, List.foldl_nil]
    cases disk.get? p <;> rfl
  | cons name names ih =>
    obtain ⟨hname, hrest⟩ := List.forall_mem_cons.mp hnames
    rw [Path.descend, List.foldl_cons]
    change disk.get? ((p.child name).descend names) = _
    rw [ih (Path.child_text_ne hname) hrest, get?_child disk hp hname]
    cases disk.get? p <;> rfl

theorem text_ne_of_get? {disk : Disk} {p : Path} {n : Node} (h : disk.get? p = some n) :
    p.text ≠ "" := by
  intro hempty
  rw [get?_eq_bind, locate, if_pos hempty] at h
  cases h

theorem wellFormed_of_get? {disk : Disk} (hdisk : disk.root.WellFormed) {p : Path} {n : Node}
    (h : disk.get? p = some n) : n.WellFormed := by
  rw [get?_eq_bind] at h
  obtain ⟨place, _, hplace⟩ := Option.bind_eq_some_iff.mp h
  exact hdisk.get? hplace

/-- The paths that are found by walking a root. -/
theorem mem_walk_root {disk : Disk} (hdisk : disk.root.WellFormed) {root p : Path} :
    p ∈ ((disk.get? root).map (Node.walk root)).getD [] ↔
      disk.exists? root = true ∧ disk.isFile p = true ∧
      ∃ names, (∀ name ∈ names, Path.IsEntryName name) ∧ p = root.descend names ∧
        ∀ name ∈ names.dropLast, isSkippedName name = false := by
  cases hroot : disk.get? root with
  | none => simp [exists?, hroot]
  | some n =>
    have hisFile {names : List String} (hnames : ∀ name ∈ names, Path.IsEntryName name) :
        disk.isFile (root.descend names) = true ↔ ∃ c, n.get? names = some (.file c) := by
      rw [isFile, get?_descend disk (text_ne_of_get? hroot) hnames, hroot, Option.bind_some]
      cases n.get? names with
      | none => simp
      | some m => cases m <;> simp
    rw [Option.map_some, Option.getD_some, Node.mem_walk]
    simp only [exists?, hroot, Option.isSome_some, true_and]
    constructor
    · rintro ⟨names, hleads, rfl⟩
      obtain ⟨hnames, hfile, hskip⟩ := (Node.leads_iff (wellFormed_of_get? hdisk hroot)).mp hleads
      exact ⟨(hisFile hnames).mpr hfile, names, hnames, rfl, hskip⟩
    · rintro ⟨hfile, names, hnames, rfl, hskip⟩
      exact ⟨names, (Node.leads_iff (wellFormed_of_get? hdisk hroot)).mpr
        ⟨hnames, (hisFile hnames).mp hfile, hskip⟩, rfl⟩

/-! ## Roots and ignores -/

/-- A root of a scan: the base if there are no includes, and otherwise what a literal include names
below the base, or a directory that a pattern among the includes names there. -/
def IsScanRoot (disk : Disk) (request : ScanRequest) (root : Path) : Prop :=
  (request.includes = [] ∧ root = request.base) ∨
  ∃ entry ∈ request.includes,
    (Glob.hasWildcard entry = false ∧ root = request.base.join ⟨entry⟩) ∨
    (Glob.hasWildcard entry = true ∧ disk.isDirectory root = true ∧
      ∃ found, disk.glob? (request.base.join ⟨entry⟩) = some found ∧ root ∈ found)

theorem isDirectory_of_mem_glob? {disk : Disk} {pattern root : Path} {found : List Path}
    (hglob : disk.glob? pattern = some found) (hroot : root ∈ found) :
    disk.isDirectory root = true := by
  unfold glob? at hglob
  obtain ⟨_, _, hglob⟩ := Option.bind_eq_some_iff.mp hglob
  obtain ⟨components, _, hglob⟩ := Option.bind_eq_some_iff.mp hglob
  split at hglob
  · obtain rfl := Option.some.inj hglob
    cases hroot
  · obtain rfl := Option.some.inj hglob
    exact (List.mem_filter.mp hroot).2

/-- The roots that are walked are the roots of the scan that exist. -/
theorem mem_scanRoots {disk : Disk} {request : ScanRequest} {root : Path} :
    (root ∈ disk.scanRoots request ∧ disk.exists? root = true) ↔
      disk.IsScanRoot request root ∧ disk.exists? root = true := by
  rw [and_congr_left_iff]
  intro hexists
  unfold scanRoots IsScanRoot
  by_cases hincludes : request.includes = []
  · simp [hincludes]
  · simp only [List.isEmpty_iff, hincludes, if_false, false_and, false_or, List.mem_flatMap]
    refine exists_congr fun entry => and_congr_right fun _ => ?_
    unfold includeRoots
    cases hwild : Glob.hasWildcard entry with
    | true =>
      simp only [if_true, Bool.true_eq_false, false_and, true_and, false_or]
      cases hglob : disk.glob? (request.base.join ⟨entry⟩) with
      | none => simp
      | some found => simpa using isDirectory_of_mem_glob? hglob
    | false =>
      simp only [Bool.false_eq_true, if_false, true_and, false_and, or_false]
      by_cases hroot : root = request.base.join ⟨entry⟩
      · subst hroot
        simp [hexists]
      · simp only [hroot, iff_false]
        split <;> simp [hroot]

end Disk

/-- No ignore entry speaks against a path, and no pattern for tests does if these are left out. -/
structure Ignores.Spares (request : ScanRequest) (p : Path) : Prop where
  /-- No literal entry, taken below the base, begins the path. -/
  literals : ∀ entry ∈ request.ignores, Glob.hasWildcard entry = false →
    ¬ (request.base.join ⟨entry⟩).components <+: p.components
  /-- No pattern matches the path. -/
  patterns : ∀ entry ∈ request.ignores, Glob.hasWildcard entry = true →
    ∀ g, Glob.compile entry = .ok g → g.isMatch p.text = false
  /-- If tests are left out, no pattern for them matches the path. -/
  tests : request.ignoreTestFiles = true → ∀ pattern ∈ testPatterns,
    ∀ g, Glob.compile pattern = .ok g → g.isMatch p.text = false

theorem Glob.compile?_eq_some {text : String} {g : Glob} :
    Glob.compile? text = some g ↔ Glob.compile text = .ok g := by
  unfold Glob.compile?
  cases Glob.compile text <;> simp [Except.toOption]

theorem Ignores.excludes_eq_false {request : ScanRequest} {p : Path} :
    (Ignores.ofEntries request.base request.ignores request.ignoreTestFiles).excludes p = false ↔
      Ignores.Spares request p := by
  have hplaces : (Ignores.ofEntries request.base request.ignores
        request.ignoreTestFiles).places.any p.startsWith = false ↔
      ∀ entry ∈ request.ignores, Glob.hasWildcard entry = false →
        ¬ (request.base.join ⟨entry⟩).components <+: p.components := by
    simp [Ignores.ofEntries, Path.startsWith, List.any_eq_false]
  have hpatterns : ((Ignores.ofEntries request.base request.ignores
        request.ignoreTestFiles).patterns.any fun g => g.isMatch p.text) = false ↔
      (∀ entry ∈ request.ignores, Glob.hasWildcard entry = true →
        ∀ g, Glob.compile entry = .ok g → g.isMatch p.text = false) ∧
      (request.ignoreTestFiles = true → ∀ pattern ∈ testPatterns,
        ∀ g, Glob.compile pattern = .ok g → g.isMatch p.text = false) := by
    simp only [Ignores.ofEntries, List.any_eq_false, List.mem_filterMap, List.mem_append,
      List.mem_filter, Glob.compile?_eq_some, Bool.not_eq_true]
    constructor
    · intro h
      refine ⟨fun entry hentry hwild g hg => h g ⟨entry, Or.inl ⟨hentry, hwild⟩, hg⟩, ?_⟩
      intro htests pattern hpattern g hg
      exact h g ⟨pattern, Or.inr (by rwa [htests, if_pos rfl]), hg⟩
    · rintro ⟨hentries, htests⟩ g ⟨entry, hentry | hentry, hg⟩
      · exact hentries entry hentry.1 hentry.2 g hg
      · split at hentry
        · next hflag => exact htests hflag entry hentry g hg
        · cases hentry
  rw [Ignores.excludes, Bool.or_eq_false_iff, hplaces, hpatterns]
  exact ⟨fun h => ⟨h.1, h.2.1, h.2.2⟩, fun h => ⟨h.literals, h.patterns, h.tests⟩⟩

namespace Disk

/-- What a scan of a tree of files finds, in strictly ascending order: the paths that name a file of
source text, that go down from an existing root of the scan by names of which none but the last is
skipped, and that the ignore entries spare. -/
theorem scan_files {disk : Disk} (hdisk : disk.root.WellFormed) (request : ScanRequest) :
    (disk.scan request).files.Pairwise (· < ·) ∧
    ∀ text : String, text ∈ (disk.scan request).files ↔
      disk.isFile ⟨text⟩ = true ∧
      Source.isSource ⟨text⟩ = true ∧
      (∃ root names, disk.IsScanRoot request root ∧ disk.exists? root = true ∧
        (∀ name ∈ names, Path.IsEntryName name) ∧ ⟨text⟩ = root.descend names ∧
        ∀ name ∈ names.dropLast, isSkippedName name = false) ∧
      Ignores.Spares request ⟨text⟩ := by
  refine ⟨Text.pairwise_ascending _, fun text => ?_⟩
  rw [scan]
  dsimp only
  rw [Text.mem_ascending, List.mem_map]
  simp only [List.mem_filter, List.mem_flatMap, mem_walk_root hdisk, Bool.and_eq_true,
    Bool.not_eq_true', Ignores.excludes_eq_false]
  constructor
  · rintro ⟨p, ⟨⟨root, hroot, hexists, hfile, names, hnames, hp, hskip⟩, hsource, hspared⟩, rfl⟩
    exact ⟨hfile, hsource, ⟨root, names, (mem_scanRoots.mp ⟨hroot, hexists⟩).1, hexists, hnames, hp,
      hskip⟩, hspared⟩
  · rintro ⟨hfile, hsource, ⟨root, names, hroot, hexists, hnames, hp, hskip⟩, hspared⟩
    exact ⟨⟨text⟩, ⟨⟨root, (mem_scanRoots.mpr ⟨hroot, hexists⟩).1, hexists, hfile, names, hnames, hp,
      hskip⟩, hsource, hspared⟩, rfl⟩

/-- A scan of a directory with a component, its test, and a package finds the component. -/
theorem scan_files_panel :
    let panel : Node := .file (.text "function Panel() {}")
    let disk : Disk := ⟨.directory [("src", .directory [("Panel.jsx", panel),
      ("Panel.test.jsx", panel), ("node_modules", .directory [("Panel.jsx", panel)])])], []⟩
    let files := (disk.scan { base := ⟨"src"⟩ }).files
    disk.root.WellFormed ∧ "src/Panel.jsx" ∈ files ∧ "src/Panel.test.jsx" ∉ files := by
  intro panel disk files
  have hpackages : (Node.directory [("Panel.jsx", panel)]).WellFormed :=
    .directory (by decide) (by decide) (by simpa using .file _)
  have hsources : (Node.directory [("Panel.jsx", panel), ("Panel.test.jsx", panel),
      ("node_modules", .directory [("Panel.jsx", panel)])]).WellFormed :=
    .directory (by decide) (by decide) (by simpa using ⟨.file _, hpackages⟩)
  have hdisk : disk.root.WellFormed :=
    .directory (by decide) (by decide) (by simpa using hsources)
  have hfiles := (scan_files hdisk { base := ⟨"src"⟩ }).2
  refine ⟨hdisk, (hfiles _).mpr ⟨by decide, by decide, ?_, Ignores.excludes_eq_false.mp (by decide)⟩,
    fun htest => ?_⟩
  · exact ⟨⟨"src"⟩, ["Panel.jsx"], Or.inl ⟨rfl, rfl⟩, by decide, by decide, by decide, by decide⟩
  · have hmatch := ((hfiles _).mp htest).2.2.2.tests rfl "**/*.test.jsx" (by decide) _ rfl
    exact absurd hmatch (by decide)

end Disk

end PropCatalog
