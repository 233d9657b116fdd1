import PropCatalog.Proofs.Places

/-!
# What writing does to a disk

Writing a text puts a file at one place and changes nothing else (`Disk.Puts`), and making
directories adds directories and leaves everything that was there as it was (`Disk.Extends`).  Either
way the disk grows, so that paths lead where they led before.

`Disk.writeText_of_locate` says that a text can always be written to a file that is there, and
`Disk.puts_of_writeText` says at which place a text has been written.
-/

namespace PropCatalog.Disk

/-- Another disk has a text in the file at a place and is otherwise the same. -/
structure Puts (disk : Disk) (place : List String) (text : String) (later : Disk) : Prop where
  workingDirectory : later.workingDirectory = disk.workingDirectory
  /-- There was no directory at the place. -/
  free : disk.sight place ≠ .directory
  here : later.sight place = .file (.text text)
  elsewhere {r : List String} : r ≠ place → later.sight r = disk.sight r

/-- Another disk shows whatever a disk shows, and perhaps more directories. -/
structure Extends (disk later : Disk) : Prop where
  workingDirectory : later.workingDirectory = disk.workingDirectory
  shows (r : List String) : later.sight r = disk.sight r ∨
    disk.sight r = .nothing ∧ later.sight r = .directory

variable {disk later latest : Disk}

theorem Puts.grows {place : List String} {text : String} (h : disk.Puts place text later) :
    disk.Grows later where
  workingDirectory := h.workingDirectory
  directory {r} hr := by
    have hne : r ≠ place := by
      rintro rfl
      exact h.free hr
    rw [h.elsewhere hne, hr]
  file {r c} hr := by
    by_cases hplace : r = place
    · exact ⟨_, hplace ▸ h.here⟩
    · exact ⟨c, by rw [h.elsewhere hplace, hr]⟩

theorem Extends.keeps (h : disk.Extends later) {r : List String} (hr : disk.sight r ≠ .nothing) :
    later.sight r = disk.sight r := by
  rcases h.shows r with hsame | ⟨hnothing, _⟩
  · exact hsame
  · exact absurd hnothing hr

theorem Extends.refl (disk : Disk) : disk.Extends disk := ⟨rfl, fun _ => Or.inl rfl⟩

theorem Extends.trans (h : disk.Extends later) (h' : later.Extends latest) :
    disk.Extends latest where
  workingDirectory := h'.workingDirectory.trans h.workingDirectory
  shows r := by
    rcases h.shows r with hsame | ⟨hnothing, hmade⟩
    · rw [← hsame]
      exact h'.shows r
    · have hstays : latest.sight r = .directory := by
        rw [h'.keeps (by simp [hmade]), hmade]
      exact Or.inr ⟨hnothing, hstays⟩

theorem Extends.grows (h : disk.Extends later) : disk.Grows later where
  workingDirectory := h.workingDirectory
  directory {r} hr := by
    rw [h.keeps (by simp [hr]), hr]
  file {r c} hr := ⟨c, by rw [h.keeps (by simp [hr]), hr]⟩

/-! ## Slots -/

/-- A slot is in a directory. -/
theorem sight_of_slot {p : Path} {place : List String} {name : String}
    (h : disk.slot p = .ok (place, name)) : disk.sight place = .directory := by
  unfold slot at h
  split at h
  · cases h
  · next last before _ =>
    cases hfollow : disk.follow (disk.origin p) before.reverse with
    | error fault =>
      rw [hfollow] at h
      cases h
    | ok r =>
      simp only [hfollow, bind, Except.bind] at h
      split at h
      · next es hes =>
        cases h
        exact Node.sight_eq_directory.mpr ⟨es, hes⟩
      · cases h
      · cases h

/-- The slot of a path that ends in a name is under that name in the directory that the pieces before
it lead to. -/
theorem slot_eq_ok {p : Path} {front : List String} {name : String}
    (hp : p.pieces = front ++ [name]) (hname : name ≠ "") {place : List String} {last : String} :
    disk.slot p = .ok (place, last) ↔
      last = name ∧ disk.follow (disk.origin p) front = .ok place ∧
        disk.sight place = .directory := by
  have hreverse : p.pieces.reverse.dropWhile (· = "") = name :: front.reverse := by
    simp [hp, hname]
  constructor
  · intro h
    refine ⟨?_, ?_, sight_of_slot h⟩
    all_goals
      rw [slot, hreverse] at h
      simp only [List.reverse_reverse] at h
      cases hfollow : disk.follow (disk.origin p) front with
      | error fault =>
        rw [hfollow] at h
        cases h
      | ok r =>
        simp only [hfollow, bind, Except.bind] at h
        split at h
        · cases h
          rfl
        · cases h
        · cases h
  · rintro ⟨rfl, hfollow, hdirectory⟩
    obtain ⟨es, hes⟩ := Node.sight_eq_directory.mp hdirectory
    rw [slot, hreverse]
    simp only [List.reverse_reverse, hfollow, bind, Except.bind, hes]

/-! ## Files -/

/-- A text is written in the slot of its path. -/
theorem puts_of_writeText {p : Path} {text : String} (h : disk.writeText p text = .ok later) :
    ∃ place name, disk.slot p = .ok (place, name) ∧ disk.Puts (place ++ [name]) text later := by
  unfold writeText at h
  cases hslot : disk.slot p with
  | error fault =>
    rw [hslot] at h
    cases h
  | ok slot =>
    obtain ⟨place, name⟩ := slot
    refine ⟨place, name, rfl, ?_⟩
    have hplace := sight_of_slot hslot
    simp only [hslot, bind, Except.bind] at h
    split at h
    · cases h
    · split at h
      · cases h
      · next hfree =>
        obtain rfl := Except.ok.inj h
        have hsight : disk.root.sight (place ++ [name]) ≠ .directory := by
          intro hdirectory
          obtain ⟨es, hes⟩ := Node.sight_eq_directory.mp hdirectory
          exact hfree es hes
        have hinsert := Node.sight_insert_file (.text text) hplace hsight
        exact ⟨rfl, hsight, (hinsert _).trans (if_pos rfl), fun hr => (hinsert _).trans (if_neg hr)⟩

/-- What has been written under a path that ends in a name is found under the path. -/
theorem locate_of_writeText {p : Path} {front : List String} {name text : String}
    (hp : p.pieces = front ++ [name]) (hname : Path.IsEntryName name)
    (h : disk.writeText p text = .ok later) :
    ∃ place, disk.follow (disk.origin p) front = .ok place ∧ disk.Puts (place ++ [name]) text later ∧
      later.locate p = .ok (place ++ [name]) := by
  obtain ⟨place, last, hslot, hputs⟩ := puts_of_writeText h
  obtain ⟨rfl, hfollow, hdirectory⟩ := (slot_eq_ok hp hname.1).mp hslot
  refine ⟨place, hfollow, hputs, ?_⟩
  have hgrows := hputs.grows
  have hthere : later.sight (place ++ [last]) ≠ .nothing := by simp [hputs.here]
  rw [locate_of_ne (Path.text_ne_of_pieces hp hname), hp, follow_append, hgrows.origin,
    hgrows.follow hfollow]
  exact (follow_entryName hname (hgrows.directory hdirectory)).trans (if_neg hthere)

/-- A text can be written to a file that is there. -/
theorem writeText_of_locate {p : Path} {place : List String} {c : Content} (text : String)
    (hlocate : disk.locate p = .ok place) (hfile : disk.sight place = .file c) :
    ∃ later, disk.writeText p text = .ok later ∧ disk.Puts place text later := by
  obtain ⟨front, name, r, hp, hname, hfollow, hdirectory, rfl⟩ :=
    pieces_of_locate_file hlocate hfile
  have hslot : disk.slot p = .ok (r, name) :=
    (slot_eq_ok hp hname.1).mpr ⟨rfl, hfollow, hdirectory⟩
  have hwrite : disk.writeText p text =
      .ok { disk with root := disk.root.insert (r ++ [name]) (.file (.text text)) } := by
    rw [writeText, hslot]
    simp [bind, Except.bind, hname.2.1, hname.2.2.1, Node.sight_eq_file.mp hfile]
  obtain ⟨place, last, hslot', hputs⟩ := puts_of_writeText hwrite
  obtain ⟨rfl, rfl⟩ := Prod.mk.inj (Except.ok.inj (hslot.symm.trans hslot'))
  exact ⟨_, hwrite, hputs⟩

/-! ## Directories -/

theorem extends_of_makeDirectory {p : Path} (h : disk.makeDirectory p = .ok later) :
    disk.Extends later := by
  unfold makeDirectory at h
  cases hslot : disk.slot p with
  | error fault =>
    rw [hslot] at h
    cases h
  | ok slot =>
    obtain ⟨place, name⟩ := slot
    have hplace := sight_of_slot hslot
    simp only [hslot, bind, Except.bind] at h
    split at h
    · cases h
    · split at h
      · cases h
      · next hfree =>
        obtain rfl := Except.ok.inj h
        have hsight : disk.root.sight (place ++ [name]) = .nothing := by
          simpa [Node.sight_eq_nothing] using hfree
        have hinsert := Node.sight_insert_directory hplace hsight
        refine ⟨rfl, fun r => ?_⟩
        by_cases hr : r = place ++ [name]
        · subst hr
          exact Or.inr ⟨hsight, (hinsert _).trans (if_pos rfl)⟩
        · exact Or.inl ((hinsert r).trans (if_neg hr))

/-- The disk that is left, whether there was a fault or not. -/
def left {ε : Type} : Except (ε × Disk) Disk → Disk
  | .ok later => later
  | .error e => e.2

/-- Making the directories that a path lies in adds directories only, however far it gets. -/
theorem extends_left_makeChain (disk : Disk) (ps : List Path) :
    disk.Extends (left (disk.makeChain ps)) := by
  induction ps with
  | nil => exact .refl disk
  | cons p ancestors ih =>
    rw [makeChain]
    split
    · exact .refl disk
    · split
      · next made hmade => exact extends_of_makeDirectory hmade
      · cases hbase : disk.makeChain ancestors with
        | error e =>
          rw [hbase] at ih
          exact ih
        | ok base =>
          rw [hbase] at ih
          have hready : disk.Extends base := ih
          simp only [bind, Except.bind]
          split
          · next made hmade => exact hready.trans (extends_of_makeDirectory hmade)
          · split <;> exact hready
      · split <;> exact .refl disk

end PropCatalog.Disk
