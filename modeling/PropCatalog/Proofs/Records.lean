import Mathlib.Data.List.Pairwise
import Mathlib.Data.List.Perm.Basic
import Mathlib.Logic.Relation
import PropCatalog.Proofs.Printing
import PropCatalog.Settings.Decode

/-!
# Settings that are written and decoded

The members of an object are taken into a draft one after the other, each by the field of its name.
Fields of a record do not interfere (`Independent`), so the members can be taken in any order
(`foldlM_takeMember_perm`), a member that no field takes can be put anywhere, and one that only says
the default can be left out (`foldlM_takeMember_edit`).

Settings that are written out are decoded again (`ofJson_toJson`).
-/

namespace PropCatalog.Settings

open Json

variable {σ ρ : Type} {fields : List (Field σ)}

/-! ## Taking one member -/

theorem foldlM_cons_eq_ok {α ε : Type} {f : σ → α → Except ε σ} {x : α} {xs : List α} {d e : σ} :
    (x :: xs).foldlM f d = .ok e ↔ ∃ d', f d x = .ok d' ∧ xs.foldlM f d' = .ok e := by
  rw [List.foldlM_cons]
  cases f d x with
  | error fault => simp [bind, Except.bind]
  | ok d' => simp [bind, Except.bind]

theorem foldlM_append_eq_ok {α ε : Type} {f : σ → α → Except ε σ} {xs ys : List α} {d e : σ} :
    (xs ++ ys).foldlM f d = .ok e ↔ ∃ d', xs.foldlM f d = .ok d' ∧ ys.foldlM f d' = .ok e := by
  rw [List.foldlM_append]
  cases xs.foldlM f d with
  | error fault => simp [bind, Except.bind]
  | ok d' => simp [bind, Except.bind]

theorem map_eq_ok {α β ε : Type} {f : α → β} {x : Except ε α} {b : β} :
    x.map f = .ok b ↔ ∃ a, x = .ok a ∧ f a = b := by
  cases x <;> simp [Except.map]

/-- A member is taken by the field of its name, if that is not set yet, and otherwise skipped. -/
theorem takeMember_eq_ok {d e : σ} {member : Except Fault String × Reading} :
    takeMember fields d member = .ok e ↔
      ∃ key, member.1 = .ok key ∧
        ((∃ f, fields.find? (fun f => f.name == key) = some f ∧ f.isSet d = false ∧
            f.put d member.2 = .ok e) ∨
          (fields.find? (fun f => f.name == key) = none ∧ skipFault? member.2 = none ∧ e = d)) := by
  obtain ⟨name, value⟩ := member
  cases name with
  | error fault => simp [takeMember]
  | ok key =>
    simp only [takeMember, Except.ok.injEq, exists_eq_left']
    cases hfind : fields.find? (fun f => f.name == key) with
    | none =>
      cases skipFault? value with
      | none => simpa using eq_comm
      | some fault => simp
    | some f => cases hset : f.isSet d <;> simp [hset]

/-- Two fields do not interfere: putting one leaves the other as it was, and they can be put in
either order. -/
structure Separate (f g : Field σ) : Prop where
  name_ne : f.name ≠ g.name
  isSet_left {d e : σ} {r : Reading} : f.put d r = .ok e → g.isSet e = g.isSet d
  isSet_right {d e : σ} {r : Reading} : g.put d r = .ok e → f.isSet e = f.isSet d
  put_comm {d e : σ} {r s : Reading} :
    (∃ d', f.put d r = .ok d' ∧ g.put d' s = .ok e) ↔ ∃ d', g.put d s = .ok d' ∧ f.put d' r = .ok e

instance : Std.Symm (@Separate σ) where
  symm _ _ h := ⟨h.name_ne.symm, h.isSet_right, h.isSet_left, h.put_comm.symm⟩

/-- Fields that keep what is read in different slots of the draft do not interfere. -/
theorem Separate.of_fill {α β : Type} {nameF nameG : String} {isSetF isSetG : σ → Bool}
    {readF : Reading → Decoded α} {readG : Reading → Decoded β} {fillF : σ → α → σ}
    {fillG : σ → β → σ} (hname : nameF ≠ nameG) (hF : ∀ d b, isSetF (fillG d b) = isSetF d)
    (hG : ∀ d a, isSetG (fillF d a) = isSetG d)
    (hcomm : ∀ d a b, fillG (fillF d a) b = fillF (fillG d b) a) :
    Separate ⟨nameF, isSetF, fun d r => (readF r).map (fillF d)⟩
      ⟨nameG, isSetG, fun d r => (readG r).map (fillG d)⟩ where
  name_ne := hname
  isSet_left {d e r} h := by
    obtain ⟨a, _, rfl⟩ := map_eq_ok.mp h
    exact hG d a
  isSet_right {d e r} h := by
    obtain ⟨b, _, rfl⟩ := map_eq_ok.mp h
    exact hF d b
  put_comm {d e r s} := by
    simp only [map_eq_ok]
    constructor
    · rintro ⟨_, ⟨a, ha, rfl⟩, b, hb, rfl⟩
      exact ⟨fillG d b, ⟨b, hb, rfl⟩, a, ha, (hcomm d a b).symm⟩
    · rintro ⟨_, ⟨b, hb, rfl⟩, a, ha, rfl⟩
      exact ⟨fillF d a, ⟨a, ha, rfl⟩, b, hb, hcomm d a b⟩

/-- The fields of a record are set when they are put, and do not interfere with each other. -/
structure Independent (fields : List (Field σ)) : Prop where
  isSet_put : ∀ f ∈ fields, ∀ {d e : σ} {r : Reading}, f.put d r = .ok e → f.isSet e = true
  separate : fields.Pairwise Separate

namespace Independent

/-- Two members can be taken in either order. -/
theorem takeMember_comm (h : Independent fields) {a b : Except Fault String × Reading}
    {d e e' : σ} (ha : takeMember fields d a = .ok e) (hb : takeMember fields e b = .ok e') :
    ∃ e'', takeMember fields d b = .ok e'' ∧ takeMember fields e'' a = .ok e' := by
  obtain ⟨keyA, hkeyA, hcaseA⟩ := takeMember_eq_ok.mp ha
  obtain ⟨keyB, hkeyB, hcaseB⟩ := takeMember_eq_ok.mp hb
  rcases hcaseA with ⟨f, hf, hfset, hfput⟩ | ⟨hnone, hskip, rfl⟩
  · rcases hcaseB with ⟨g, hg, hgset, hgput⟩ | ⟨hnone, hskip, rfl⟩
    · have hfmem := List.mem_of_find?_eq_some hf
      have hgmem := List.mem_of_find?_eq_some hg
      -- A field that is set does not take a second member.
      have hne : f ≠ g := by
        rintro rfl
        rw [h.isSet_put f hfmem hfput] at hgset
        cases hgset
      have hsep : Separate f g := h.separate.forall hfmem hgmem hne
      obtain ⟨e'', hgput', hfput'⟩ := hsep.put_comm.mp ⟨e, hfput, hgput⟩
      rw [hsep.isSet_left hfput] at hgset
      rw [← hsep.isSet_right hgput'] at hfset
      exact ⟨e'', takeMember_eq_ok.mpr ⟨keyB, hkeyB, Or.inl ⟨g, hg, hgset, hgput'⟩⟩,
        takeMember_eq_ok.mpr ⟨keyA, hkeyA, Or.inl ⟨f, hf, hfset, hfput'⟩⟩⟩
    · exact ⟨d, takeMember_eq_ok.mpr ⟨keyB, hkeyB, Or.inr ⟨hnone, hskip, rfl⟩⟩, ha⟩
  · exact ⟨e', hb, takeMember_eq_ok.mpr ⟨keyA, hkeyA, Or.inr ⟨hnone, hskip, rfl⟩⟩⟩

/-- The members of an object can be taken in any order. -/
theorem foldlM_takeMember_perm (h : Independent fields)
    {members members' : List (Except Fault String × Reading)} (hperm : members.Perm members')
    {d e : σ} (htaken : members.foldlM (takeMember fields) d = .ok e) :
    members'.foldlM (takeMember fields) d = .ok e := by
  induction hperm generalizing d with
  | nil => exact htaken
  | cons x _ ih =>
    obtain ⟨d', hx, hrest⟩ := foldlM_cons_eq_ok.mp htaken
    exact foldlM_cons_eq_ok.mpr ⟨d', hx, ih hrest⟩
  | swap x y xs =>
    obtain ⟨d₁, hy, htaken⟩ := foldlM_cons_eq_ok.mp htaken
    obtain ⟨d₂, hx, hrest⟩ := foldlM_cons_eq_ok.mp htaken
    obtain ⟨d₃, hx', hy'⟩ := h.takeMember_comm hy hx
    exact foldlM_cons_eq_ok.mpr ⟨d₃, hx', foldlM_cons_eq_ok.mpr ⟨d₂, hy', hrest⟩⟩
  | trans _ _ ih₁ ih₂ => exact ih₂ (ih₁ htaken)

end Independent

/-! ## Editing objects -/

theorem ofItems_eq_map (items : List Json) : Reading.ofItems items = items.map Reading.ofJson := by
  induction items with
  | nil => rfl
  | cons j js ih => rw [Reading.ofItems, ih, List.map_cons]

theorem ofMembers_eq_map (members : List (String × Json)) :
    Reading.ofMembers members = members.map fun m => (.ok m.1, Reading.ofJson m.2) := by
  induction members with
  | nil => rfl
  | cons m ms ih =>
    obtain ⟨key, value⟩ := m
    rw [Reading.ofMembers, ih, List.map_cons]

/-- An object is decoded by taking its members. -/
theorem record_object_eq_ok {wanted : String} {d e : σ} {members : List (String × Json)} :
    record wanted fields d (.ofJson (.object members)) = .ok e ↔
      (Reading.ofMembers members).foldlM (takeMember fields) d = .ok e := by
  rw [Reading.ofJson, record]
  cases (Reading.ofMembers members).foldlM (takeMember fields) d with
  | error fault => simp [bind, Except.bind]
  | ok e' => simp [bind, Except.bind, ended, pure, Except.pure]

mutual

/-- A JSON value can be skipped. -/
theorem skipFault?_ofJson (j : Json) : skipFault? (.ofJson j) = none := by
  cases j with
  | array items => simp [Reading.ofJson, skipFault?, skipItems?_ofItems items]
  | object members => simp [Reading.ofJson, skipFault?, skipMembers?_ofMembers members]
  | _ => rfl

theorem skipItems?_ofItems (items : List Json) : skipItems? (Reading.ofItems items) = none := by
  cases items with
  | nil => rfl
  | cons j js => simp [Reading.ofItems, skipItems?, skipFault?_ofJson j, skipItems?_ofItems js]

theorem skipMembers?_ofMembers (members : List (String × Json)) :
    skipMembers? (Reading.ofMembers members) = none := by
  match members with
  | [] => rfl
  | (key, j) :: ms =>
    simp [Reading.ofMembers, skipMembers?, skipFault?_ofJson j, skipMembers?_ofMembers ms]

end

/-- A change to the members of an object that a record with these defaults does not notice. -/
inductive Edit (defaults : Json) : List (String × Json) → List (String × Json) → Prop
  /-- The members are put in another order. -/
  | reorder {members members' : List (String × Json)} (hperm : members.Perm members') :
      Edit defaults members members'
  /-- A member with the default of its field is left out. -/
  | remove (front back : List (String × Json)) {key : String} {value : Json}
      (hdefault : defaults.get? key = some value) :
      Edit defaults (front ++ (key, value) :: back) (front ++ back)
  /-- A member that is no field is put in. -/
  | add (front back : List (String × Json)) {key : String} (value : Json)
      (hunknown : defaults.get? key = none) :
      Edit defaults (front ++ back) (front ++ (key, value) :: back)

/-- The defaults that are written out are those that a record has for fields which are missing. -/
structure Defaults (fields : List (Field σ)) (finish : σ → ρ) (defaults : Json) : Prop where
  /-- What is no member of the defaults is no field. -/
  unknown {key : String} : defaults.get? key = none → fields.find? (fun f => f.name == key) = none
  /-- A field that is put with its default comes out as if it were missing. -/
  finish_put {key : String} {value : Json} {f : Field σ} {d e : σ} :
    defaults.get? key = some value → fields.find? (fun f => f.name == key) = some f →
      f.isSet d = false → f.put d (.ofJson value) = .ok e → finish e = finish d

variable {finish : σ → ρ} {defaults : Json}

/-- A member that changes nothing in what comes out can be left out. -/
theorem foldlM_takeMember_remove (hfields : Independent fields) {key : String} {value : Json}
    (hsilent : ∀ {d e}, takeMember fields d (.ok key, .ofJson value) = .ok e → finish e = finish d)
    (front back : List (String × Json)) {d e : σ}
    (htaken : (Reading.ofMembers (front ++ (key, value) :: back)).foldlM (takeMember fields) d =
      .ok e) :
    ∃ e', (Reading.ofMembers (front ++ back)).foldlM (takeMember fields) d = .ok e' ∧
      finish e' = finish e := by
  rw [ofMembers_eq_map] at htaken ⊢
  -- The member is taken last, when all the others have been.
  have hlast := hfields.foldlM_takeMember_perm
    ((List.perm_middle.trans (List.perm_append_singleton _ _).symm).map _) htaken
  rw [List.map_append] at hlast
  obtain ⟨d', hothers, htail⟩ := foldlM_append_eq_ok.mp hlast
  obtain ⟨e', hmember, hnone⟩ := foldlM_cons_eq_ok.mp htail
  obtain rfl : e' = e := Except.ok.inj hnone
  exact ⟨d', hothers, (hsilent hmember).symm⟩

/-- An edit of an object changes nothing in what is decoded from it. -/
theorem foldlM_takeMember_edit (hfields : Independent fields)
    (hdefaults : Defaults fields finish defaults) {members members' : List (String × Json)}
    (hedit : Edit defaults members members') {d e : σ}
    (htaken : (Reading.ofMembers members).foldlM (takeMember fields) d = .ok e) :
    ∃ e', (Reading.ofMembers members').foldlM (takeMember fields) d = .ok e' ∧
      finish e' = finish e := by
  cases hedit with
  | reorder hperm =>
    rw [ofMembers_eq_map] at htaken ⊢
    exact ⟨e, hfields.foldlM_takeMember_perm (hperm.map _) htaken, rfl⟩
  | @remove front back key value hdefault =>
    refine foldlM_takeMember_remove hfields (fun {d e} hmember => ?_) front back htaken
    obtain ⟨_, hkey, ⟨f, hfind, hfree, hput⟩ | ⟨_, _, rfl⟩⟩ := takeMember_eq_ok.mp hmember
    · obtain rfl := Except.ok.inj hkey
      exact hdefaults.finish_put hdefault hfind hfree hput
    · rfl
  | @add front back key value hunknown =>
    rw [ofMembers_eq_map, List.map_append] at htaken ⊢
    obtain ⟨d', hfront, hback⟩ := foldlM_append_eq_ok.mp htaken
    have hskipped : takeMember fields d' (.ok key, .ofJson value) = .ok d' :=
      takeMember_eq_ok.mpr
        ⟨key, rfl, Or.inr ⟨hdefaults.unknown hunknown, skipFault?_ofJson value, rfl⟩⟩
    have hrest := foldlM_cons_eq_ok.mpr ⟨d', hskipped, hback⟩
    exact ⟨e, foldlM_append_eq_ok.mpr ⟨d', hfront, hrest⟩, rfl⟩

/-- What comes out of a record that was written as an object. -/
theorem map_record_object_eq_ok {wanted : String} {d : σ} {members : List (String × Json)} {r : ρ} :
    (record wanted fields d (.ofJson (.object members))).map finish = .ok r ↔
      ∃ e, (Reading.ofMembers members).foldlM (takeMember fields) d = .ok e ∧ finish e = r := by
  simp only [map_eq_ok, record_object_eq_ok]

/-! ## Names and settings -/

theorem optionsFields_independent : Independent optionsFields where
  isSet_put := by
    simp only [optionsFields, List.forall_mem_cons, List.not_mem_nil, false_implies, implies_true,
      and_true, map_eq_ok]
    and_intros
    all_goals
      rintro d e r ⟨_, _, rfl⟩
      rfl
  separate := by
    simp only [optionsFields, List.pairwise_cons, List.forall_mem_cons, List.not_mem_nil,
      false_implies, implies_true, List.Pairwise.nil, and_true]
    and_intros
    all_goals exact .of_fill (by decide) (fun _ _ => rfl) (fun _ _ => rfl) (fun _ _ _ => rfl)

theorem fields_independent : Independent Settings.fields where
  isSet_put := by
    simp only [Settings.fields, List.forall_mem_cons, List.not_mem_nil, false_implies, implies_true,
      and_true, map_eq_ok]
    and_intros
    all_goals
      rintro d e r ⟨_, _, rfl⟩
      rfl
  separate := by
    simp only [Settings.fields, List.pairwise_cons, List.forall_mem_cons, List.not_mem_nil,
      false_implies, implies_true, List.Pairwise.nil, and_true]
    and_intros
    all_goals exact .of_fill (by decide) (fun _ _ => rfl) (fun _ _ => rfl) (fun _ _ _ => rfl)

/-- Defaults that are written out field by field, each of which changes nothing. -/
theorem Defaults.of_forall₂ {members : List (String × Json)}
    (h : List.Forall₂ (fun m f => m.1 = f.name ∧ ∀ d e, f.isSet d = false →
      f.put d (.ofJson m.2) = .ok e → finish e = finish d) members fields) :
    Defaults fields finish (.object members) := by
  induction h with
  | nil => exact ⟨fun _ => rfl, fun hdefault => by cases hdefault⟩
  | @cons m f members fields hhead _ ih =>
    obtain ⟨hname, hput⟩ := hhead
    obtain ⟨name, value⟩ := m
    obtain rfl : name = f.name := hname
    constructor
    · intro key hunknown
      obtain rfl | hkey := eq_or_ne key f.name
      · simp [Json.get?] at hunknown
      · rw [Json.get?, List.lookup_cons, beq_false_of_ne hkey] at hunknown
        rw [List.find?_cons_of_neg (by simpa using hkey.symm)]
        exact ih.unknown hunknown
    · intro key default g d e hdefault hfind
      obtain rfl | hkey := eq_or_ne key f.name
      · obtain rfl : value = default := by simpa [Json.get?] using hdefault
        rw [List.find?_cons_of_pos (by simp)] at hfind
        obtain rfl := Option.some.inj hfind
        exact hput d e
      · rw [Json.get?, List.lookup_cons, beq_false_of_ne hkey] at hdefault
        rw [List.find?_cons_of_neg (by simpa using hkey.symm)] at hfind
        exact ih.finish_put hdefault hfind

theorem optionsFields_defaults :
    Defaults optionsFields OptionsDraft.finish ({} : Options).toJson := by
  refine .of_forall₂ (.cons ⟨rfl, ?_⟩ (.cons ⟨rfl, ?_⟩ (.cons ⟨rfl, ?_⟩ (.cons ⟨rfl, ?_⟩ .nil))))
  all_goals
    intro d e hfree hput
    obtain rfl := Except.ok.inj hput
    simp_all [OptionsDraft.finish]

/-- Names that are given and are the default come out as if they were missing. -/
theorem Draft.finish_options {d : Draft} (hfree : d.options.isSome = false) :
    ({ d with options := some {} } : Draft).finish = d.finish := by
  simp_all [Draft.finish]

theorem fields_defaults : Defaults Settings.fields Draft.finish ({} : Settings).toJson := by
  refine .of_forall₂ (.cons ⟨rfl, ?_⟩ (.cons ⟨rfl, ?_⟩ (.cons ⟨rfl, ?_⟩ (.cons ⟨rfl, ?_⟩
    (.cons ⟨rfl, fun d e hfree hput => ?_⟩ .nil)))))
  case refine_5 =>
    obtain rfl := Except.ok.inj hput
    exact Draft.finish_options hfree
  all_goals
    intro d e hfree hput
    obtain rfl := Except.ok.inj hput
    simp_all [Draft.finish]

/-! ## Decoding what is written -/

theorem texts_ofJson (items : List String) : texts (.ofJson (.texts items)) = .ok items := by
  have hitems : (Reading.ofItems (items.map .text)).mapM text = .ok items := by
    rw [ofItems_eq_map]
    induction items with
    | nil => rfl
    | cons item items ih =>
      rw [List.map_cons, List.map_cons, List.mapM_cons, ih]
      rfl
  rw [Json.texts, Reading.ofJson, texts, hitems]
  rfl

theorem decodeOptions_toJson (o : Options) : decodeOptions (.ofJson o.toJson) = .ok o := rfl

/-- Settings that are written as a JSON value are decoded again. -/
theorem ofJson_toJson (s : Settings) : ofJson s.toJson = .ok s := by
  refine map_record_object_eq_ok.mpr
    ⟨⟨some s.ignores, some s.includes, some s.sourceRoot, some s.ignoreTestFiles,
      some s.options⟩, ?_, rfl⟩
  simp [Reading.ofMembers, takeMember, Settings.fields, texts_ofJson, decodeOptions_toJson,
    Reading.ofJson, text, truth, Except.map, bind, Except.bind, pure, Except.pure]

theorem numberFree_texts (items : List String) : Reading.NumberFree (.texts items) := by
  refine .array fun j hj => ?_
  obtain ⟨item, _, rfl⟩ := List.mem_map.mp hj
  exact .text item

theorem numberFree_toJson (s : Settings) : Reading.NumberFree s.toJson := by
  have hoptions : Reading.NumberFree s.options.toJson := .object (by simp [Reading.NumberFree.text])
  refine .object ?_
  simp only [List.forall_mem_cons, List.not_mem_nil, false_implies, implies_true, and_true]
  exact ⟨numberFree_texts _, numberFree_texts _, .text _, .bool _, hoptions⟩

/-- The text of a settings file is parsed again. -/
theorem parse_render (s : Settings) : parse s.render = .ok s := by
  have hread : Reading.ofText s.render = (.ofJson s.toJson, some []) :=
    Reading.ofText_pretty (numberFree_toJson s)
  have hdecoded : ofReading (.ofJson s.toJson) = .ok s := ofJson_toJson s
  rw [parse, hread]
  dsimp only
  rw [hdecoded]
  rfl

/-! ## Revisions -/

/-- A change to the members of a settings object that leaves the settings as they are: an edit of
the members themselves or of those of the names, and leaving out names that are the default, however
they are written. -/
inductive Revision : List (String × Json) → List (String × Json) → Prop
  | fields {members members' : List (String × Json)}
      (hedit : Edit ({} : Settings).toJson members members') : Revision members members'
  | names (front back : List (String × Json)) {members members' : List (String × Json)}
      (hedit : Edit ({} : Options).toJson members members') :
      Revision (front ++ ("transform", .object members) :: back)
        (front ++ ("transform", .object members') :: back)
  | defaultNames (front back : List (String × Json)) {value : Json}
      (hdefault : decodeOptions (.ofJson value) = .ok {}) :
      Revision (front ++ ("transform", value) :: back) (front ++ back)

/-- The names are decoded the same from an object and from an edited one. -/
theorem decodeOptions_edit {members members' : List (String × Json)}
    (hedit : Edit ({} : Options).toJson members members') {o : Options}
    (hdecoded : decodeOptions (.ofJson (.object members)) = .ok o) :
    decodeOptions (.ofJson (.object members')) = .ok o := by
  obtain ⟨e, htaken, rfl⟩ := map_record_object_eq_ok.mp hdecoded
  exact map_record_object_eq_ok.mpr
    (foldlM_takeMember_edit optionsFields_independent optionsFields_defaults hedit htaken)

/-- The member of the names is taken once, and gives what is decoded from its value. -/
theorem takeMember_transform {d e : Draft} {r : Reading} :
    takeMember Settings.fields d (.ok "transform", r) = .ok e ↔
      d.options.isSome = false ∧ ∃ o, decodeOptions r = .ok o ∧ e = { d with options := some o } := by
  have htake : takeMember Settings.fields d (.ok "transform", r) =
      if d.options.isSome then .error (.duplicateField "transform")
      else (decodeOptions r).map fun o => { d with options := some o } := rfl
  rw [htake]
  cases d.options.isSome with
  | true => simp
  | false => simp only [Bool.false_eq_true, if_false, true_and, map_eq_ok, eq_comm (a := e)]

/-- The settings are decoded the same from an object and from a revised one. -/
theorem ofJson_revision {members members' : List (String × Json)}
    (hrevision : Revision members members') {s : Settings} (hdecoded : ofJson (.object members) = .ok s) :
    ofJson (.object members') = .ok s := by
  obtain ⟨e, htaken, rfl⟩ := map_record_object_eq_ok.mp hdecoded
  refine map_record_object_eq_ok.mpr ?_
  cases hrevision with
  | fields hedit => exact foldlM_takeMember_edit fields_independent fields_defaults hedit htaken
  | @names front back inner inner' hedit =>
    refine ⟨e, ?_, rfl⟩
    rw [ofMembers_eq_map, List.map_append] at htaken ⊢
    obtain ⟨d₁, hfront, htaken⟩ := foldlM_append_eq_ok.mp htaken
    obtain ⟨d₂, hnames, hback⟩ := foldlM_cons_eq_ok.mp htaken
    obtain ⟨hfree, o, ho, rfl⟩ := takeMember_transform.mp hnames
    have hnames' := takeMember_transform.mpr ⟨hfree, o, decodeOptions_edit hedit ho, rfl⟩
    exact foldlM_append_eq_ok.mpr ⟨d₁, hfront, foldlM_cons_eq_ok.mpr ⟨_, hnames', hback⟩⟩
  | @defaultNames front back value hdefault =>
    refine foldlM_takeMember_remove fields_independent (fun {d e} hmember => ?_) front back htaken
    obtain ⟨hfree, o, ho, rfl⟩ := takeMember_transform.mp hmember
    rw [hdefault] at ho
    obtain rfl := Except.ok.inj ho
    exact Draft.finish_options hfree

/-- Settings that are written out, as a text or as a JSON value, are decoded again.  From every
object that is decoded to settings, any number of revisions leads to an object that is decoded to the
same settings: its members and those of the names are reordered, lose members that have their
default, and gain members that are no field. -/
theorem parse_render_and_ofJson_revised :
    (∀ s : Settings, parse s.render = .ok s ∧ ofJson s.toJson = .ok s) ∧
    ∀ {members members' : List (String × Json)} {s : Settings},
      ofJson (.object members) = .ok s → Relation.ReflTransGen Revision members members' →
        ofJson (.object members') = .ok s := by
  refine ⟨fun s => ⟨parse_render s, ofJson_toJson s⟩, ?_⟩
  intro members members' s hdecoded hrevised
  induction hrevised with
  | refl => exact hdecoded
  | tail _ hrevision ih => exact ofJson_revision hrevision ih

/-- Settings with an alias of their own, from which the default that they also spell out is dropped,
and which get a comment. -/
theorem ofJson_revised_types :
    let names := [("metadataField", Json.text "__metadata"), ("defaultAlias", .text "Types")]
    let members := [("ignoreTestFiles", Json.bool false), ("transform", .object names)]
    let members' := [("transform", Json.object [("defaultAlias", .text "Types")]),
      ("comment", .number "1"), ("ignoreTestFiles", .bool false)]
    let settings : Settings := { ignoreTestFiles := false, options := { defaultAlias := "Types" } }
    ofJson (.object members) = .ok settings ∧ Relation.ReflTransGen Revision members members' ∧
      ofJson (.object members') = .ok settings := by
  intro names members members' settings
  have hdecoded : ofJson (.object members) = .ok settings := rfl
  have hrevised : Relation.ReflTransGen Revision members members' := by
    refine .head (.names [("ignoreTestFiles", .bool false)] [] (.remove [] _ rfl)) ?_
    refine .head (.fields (.reorder (.swap _ _ _))) ?_
    exact .single (.fields (.add [_] [_] (.number "1") rfl))
  exact ⟨hdecoded, hrevised, parse_render_and_ofJson_revised.2 hdecoded hrevised⟩

end PropCatalog.Settings
