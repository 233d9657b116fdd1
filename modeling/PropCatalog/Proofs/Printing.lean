import Mathlib.Data.List.Forall2
import PropCatalog.Json.Reading

/-!
# JSON text that is printed and read

A value that is laid out over several lines is read again as it was (`Reading.ofText_pretty`).  A
text spells a reading if the reader takes that text and nothing of what follows (`Spells`); texts
with commas and blanks between them spell the items of an array, and with keys the members of an
object.

Numbers are left out: how a number is spelled is up to the one who made the value.
-/

namespace PropCatalog.Json

/-! ## Strings -/

/-- A character is written as a one-letter escape, as a hexadecimal one, or as itself. -/
theorem escapeChar_cases (c : Char) :
    (∃ e, e ≠ 'u' ∧ escaped? e = some c ∧ escapeChar c = ['\\', e]) ∨
    (c.toNat < 32 ∧
      escapeChar c = ['\\', 'u', '0', '0', hexDigit (c.toNat / 16), hexDigit (c.toNat % 16)]) ∨
    (c ≠ '"' ∧ c ≠ '\\' ∧ isControl c = false ∧ escapeChar c = [c]) := by
  by_cases hletter : c ∈ ['"', '\\', '\x08', '\t', '\n', '\x0c', '\r']
  · left
    simp only [List.mem_cons, List.not_mem_nil, or_false] at hletter
    rcases hletter with rfl | rfl | rfl | rfl | rfl | rfl | rfl
    all_goals exact ⟨_, by decide, rfl, rfl⟩
  · right
    simp only [List.mem_cons, List.not_mem_nil, or_false, not_or] at hletter
    by_cases hcontrol : c.toNat < 32
    · left
      simp [escapeChar, hletter, hcontrol]
    · right
      simp [escapeChar, hletter, hcontrol, isControl]

theorem hexUnit?_hexDigit :
    ∀ n < 32, hexUnit? '0' '0' (hexDigit (n / 16)) (hexDigit (n % 16)) = some n := by
  decide

/-- A character that is written is read again. -/
theorem readString_escapeChar (c : Char) (cs : List Char) :
    readString (escapeChar c ++ cs) = prepend c (readString cs) := by
  rcases escapeChar_cases c with ⟨e, hu, he, hc⟩ | ⟨hcontrol, hc⟩ | ⟨hquote, hescape, hcontrol, hc⟩
  · simp [hc, readString, hu, he]
  · have hunit := hexUnit?_hexDigit c.toNat hcontrol
    have hleading : isLeading c.toNat = false := by simp [isLeading]; omega
    have htrailing : isTrailing c.toNat = false := by simp [isTrailing]; omega
    simp [hc, readString, hunit, hleading, htrailing]
  · simp [hc, readString, hescape, hcontrol]

theorem skipString_escapeChar (c : Char) (cs : List Char) :
    skipString (escapeChar c ++ cs) = skipString cs := by
  rcases escapeChar_cases c with ⟨e, hu, he, hc⟩ | ⟨hcontrol, hc⟩ | ⟨hquote, hescape, hcontrol, hc⟩
  · simp [hc, skipString, hu, he]
  · simp [hc, skipString, hexUnit?_hexDigit c.toNat hcontrol]
  · simp [hc, skipString, hescape, hcontrol]

/-- A text that is written between quotes is read again. -/
theorem readText_quote (s : String) (rest : List Char) :
    Reading.readText (s.toList.flatMap escapeChar ++ '"' :: rest) = .ok (.ok s, rest) := by
  have hread (cs : List Char) :
      readString (cs.flatMap escapeChar ++ '"' :: rest) = .ok (cs, rest) := by
    induction cs with
    | nil => rfl
    | cons c cs ih =>
      rw [List.flatMap_cons, List.append_assoc, readString_escapeChar, ih]
      rfl
  have hskip (cs : List Char) :
      skipString (cs.flatMap escapeChar ++ '"' :: rest) = .ok rest := by
    induction cs with
    | nil => rfl
    | cons c cs ih => rw [List.flatMap_cons, List.append_assoc, skipString_escapeChar, ih]
  rw [Reading.readText, hread, hskip]
  simp

namespace Reading

/-! ## Blanks -/

theorem skipBlank_append {blanks : List Char} (hblanks : blanks.all isBlank = true)
    (cs : List Char) : skipBlank (blanks ++ cs) = skipBlank cs := by
  induction blanks with
  | nil => rfl
  | cons b blanks ih =>
    rw [List.all_cons, Bool.and_eq_true] at hblanks
    rw [List.cons_append, skipBlank, List.dropWhile_cons_of_pos hblanks.1]
    exact ih hblanks.2

theorem skipBlank_cons {c : Char} (hc : isBlank c = false) (cs : List Char) :
    skipBlank (c :: cs) = c :: cs := by
  rw [skipBlank, List.dropWhile_cons_of_neg (by simp [hc])]

theorem all_isBlank_newline (level : Nat) : (newline level).toList.all isBlank = true := by
  simp [newline, isBlank]

/-! ## Texts that spell readings -/

/-- A text spells a reading: it begins with a character that is neither blank nor a closing bracket,
and the reader takes this text and nothing else, if its depth may be twice the length. -/
structure Spells (text : List Char) (r : Reading) : Prop where
  head : ∃ c cs, text = c :: cs ∧ isBlank c = false ∧ c ≠ ']'
  read : ∀ (fuel : Nat) (rest : List Char), 2 * text.length ≤ fuel →
    readValue fuel (text ++ rest) = (r, some rest)

/-- Blanks before a value make no difference. -/
theorem readValue_append (blanks : List Char) (hblanks : blanks.all isBlank = true) (fuel : Nat)
    (cs : List Char) : readValue fuel (blanks ++ cs) = readValue fuel cs := by
  cases fuel with
  | zero => rw [readValue, readValue]
  | succ fuel => rw [readValue, readValue, skipBlank_append hblanks]

/-! ## Lists of items -/

/-- A value in front of a list that was read. -/
def consResult {α : Type} (value : α) (result : Result (List α × Option Break)) :
    Result (List α × Option Break) :=
  ((value :: result.1.1, result.1.2), result.2)

/-- A reader takes items, which certain texts spell, up to a closing bracket.  The first item and
those after a comma may have blanks before them. -/
structure ReadsList {α : Type} (read : Nat → Bool → List Char → Result (List α × Option Break))
    (closing : Char) (Item : List Char → α → Prop) : Prop where
  close : ∀ (fuel : Nat) (first : Bool) (blanks : List Char), blanks.all isBlank = true →
    ∀ rest, read (fuel + 1) first (blanks ++ closing :: rest) = (([], none), some rest)
  first : ∀ {fuel : Nat} {blanks text : List Char} {value : α}, blanks.all isBlank = true →
    Item text value → 2 * text.length ≤ fuel → ∀ rest,
      read (fuel + 2) true (blanks ++ (text ++ rest)) = consResult value (read fuel false rest)
  next : ∀ {fuel : Nat} {blanks text : List Char} {value : α}, blanks.all isBlank = true →
    Item text value → 2 * text.length ≤ fuel → ∀ rest,
      read (fuel + 2) false (',' :: (blanks ++ (text ++ rest))) =
        consResult value (read fuel false rest)

/-- What follows the first of some items: each of the others after a comma and blanks, and at last
blanks and the closing bracket. -/
def trailing (blanks last : List Char) (closing : Char) (texts : List (List Char)) : List Char :=
  texts.flatMap (fun text => ',' :: (blanks ++ text)) ++ (last ++ [closing])

theorem trailing_cons (blanks last : List Char) (closing : Char) (text : List Char)
    (texts : List (List Char)) :
    trailing blanks last closing (text :: texts) =
      ',' :: (blanks ++ (text ++ trailing blanks last closing texts)) := by
  simp [trailing]

namespace ReadsList

variable {α : Type} {read : Nat → Bool → List Char → Result (List α × Option Break)} {closing : Char}
  {Item : List Char → α → Prop} {blanks last : List Char}

/-- The items after the first are read one after the other. -/
theorem read_trailing (h : ReadsList read closing Item) (hblanks : blanks.all isBlank = true)
    (hlast : last.all isBlank = true) {texts : List (List Char)} {values : List α}
    (hitems : List.Forall₂ Item texts values) {fuel : Nat} (rest : List Char)
    (hfuel : 2 * (trailing blanks last closing texts).length ≤ fuel) :
    read fuel false (trailing blanks last closing texts ++ rest) = ((values, none), some rest) := by
  induction hitems generalizing fuel with
  | nil =>
    obtain ⟨n, rfl⟩ : ∃ n, fuel = n + 1 := ⟨fuel - 1, by simp [trailing] at hfuel; omega⟩
    rw [trailing, List.flatMap_nil, List.nil_append, List.append_assoc]
    exact h.close n false last hlast rest
  | @cons text value texts values hitem _ ih =>
    rw [trailing_cons] at hfuel ⊢
    simp only [List.length_cons, List.length_append] at hfuel
    obtain ⟨n, rfl⟩ : ∃ n, fuel = n + 2 := ⟨fuel - 2, by omega⟩
    simp only [List.cons_append, List.append_assoc]
    rw [h.next hblanks hitem (by omega), ih (by omega)]
    rfl

/-- All items are read, from the opening bracket on. -/
theorem read_first (h : ReadsList read closing Item) (hblanks : blanks.all isBlank = true)
    (hlast : last.all isBlank = true) {text : List Char} {texts : List (List Char)} {value : α}
    {values : List α} (hitem : Item text value) (hitems : List.Forall₂ Item texts values)
    (fuel : Nat) (rest : List Char)
    (hfuel : 2 * (text ++ trailing blanks last closing texts).length + 2 ≤ fuel) :
    read fuel true (blanks ++ (text ++ trailing blanks last closing texts) ++ rest) =
      ((value :: values, none), some rest) := by
  rw [List.length_append] at hfuel
  obtain ⟨n, rfl⟩ : ∃ n, fuel = n + 2 := ⟨fuel - 2, by omega⟩
  rw [List.append_assoc, List.append_assoc, h.first hblanks hitem (by omega),
    h.read_trailing hblanks hlast hitems rest (by omega)]
  rfl

end ReadsList

/-- The items of an array are read as a list. -/
theorem readsList_readItems : ReadsList readItems ']' Spells where
  close fuel first blanks hblanks rest := by
    rw [readItems, skipBlank_append hblanks, skipBlank_cons (by decide)]
    rfl
  first {fuel blanks text value} hblanks hitem hfuel rest := by
    obtain ⟨c, cs, rfl, hc, hclose⟩ := hitem.head
    rw [readItems, skipBlank_append hblanks, List.cons_append, skipBlank_cons hc]
    simp only [hclose, if_false, if_true]
    rw [← List.cons_append, readItem, hitem.read fuel rest hfuel]
    rfl
  next {fuel blanks text value} hblanks hitem hfuel rest := by
    obtain ⟨c, cs, rfl, hc, hclose⟩ := hitem.head
    rw [readItems, skipBlank_cons (by decide)]
    simp only [skipBlank_append hblanks, List.cons_append, skipBlank_cons hc, hclose]
    simp only [if_false, if_true, Bool.false_eq_true, Char.reduceEq]
    rw [← List.cons_append, readItem, hitem.read fuel rest hfuel]
    rfl

/-- A text spells a member of an object: its key between quotes, a colon, a blank and its value. -/
inductive SpellsMember : List Char → Except Fault String × Reading → Prop
  | intro (key : String) {text : List Char} {r : Reading} (hvalue : Spells text r) :
      SpellsMember ('"' :: (key.toList.flatMap escapeChar ++ '"' :: ':' :: ' ' :: text)) (.ok key, r)

theorem readMember_spells {text : List Char} {member : Except Fault String × Reading}
    (hmember : SpellsMember text member) {fuel : Nat} (hfuel : 2 * text.length ≤ fuel)
    (rest : List Char) :
    readMember (fuel + 1) (text ++ rest) = consResult member (readMembers fuel false rest) := by
  obtain ⟨key, hvalue⟩ := hmember
  next text r =>
    simp only [List.length_cons, List.length_append] at hfuel
    simp only [List.cons_append, List.append_assoc]
    rw [readMember, if_pos rfl, readText_quote]
    dsimp only
    rw [skipBlank_cons (by decide)]
    dsimp only
    have hblank := readValue_append [' '] (by decide) fuel (text ++ rest)
    rw [List.singleton_append] at hblank
    rw [if_pos rfl, hblank, hvalue.read fuel rest (by omega)]
    rfl

/-- The members of an object are read as a list. -/
theorem readsList_readMembers : ReadsList readMembers '\x7d' SpellsMember where
  close fuel first blanks hblanks rest := by
    rw [readMembers, skipBlank_append hblanks, skipBlank_cons (by decide)]
    rfl
  first {fuel blanks text value} hblanks hitem hfuel rest := by
    rw [← readMember_spells hitem hfuel rest]
    obtain ⟨key, hvalue⟩ := hitem
    rw [readMembers, skipBlank_append hblanks, List.cons_append, skipBlank_cons (by decide)]
    rfl
  next {fuel blanks text value} hblanks hitem hfuel rest := by
    rw [← readMember_spells hitem hfuel rest]
    obtain ⟨key, hvalue⟩ := hitem
    rw [readMembers, skipBlank_cons (by decide)]
    simp only [skipBlank_append hblanks, List.cons_append, skipBlank_cons (c := '"') (by decide)]
    rfl

/-! ## Values -/

theorem toList_intercalate_cons (sep first : String) (rest : List String) :
    (sep.intercalate (first :: rest)).toList =
      first.toList ++ rest.flatMap fun t => sep.toList ++ t.toList := by
  induction rest generalizing first with
  | nil => simp
  | cons second rest ih => simp [String.intercalate_cons_cons, ih, -String.toList_intercalate]

/-- Items between brackets, the first of them and the others. -/
theorem toList_bracketed_cons (opening closing : Char) (level : Nat) (first : String)
    (rest : List String) :
    (bracketed (String.singleton opening) (String.singleton closing) level (first :: rest)).toList =
      opening :: ((newline (level + 1)).toList ++ (first.toList ++
        trailing (newline (level + 1)).toList (newline level).toList closing
          (rest.map String.toList))) := by
  simp [bracketed, toList_intercalate_cons, trailing, List.flatMap_map, -String.toList_intercalate]

/-- Items between brackets spell the value that is read from the opening bracket on. -/
theorem spells_bracketed {α : Type} {read : Nat → Bool → List Char → Result (List α × Option Break)}
    (opening : Char) {closing : Char} {Item : List Char → α → Prop} (h : ReadsList read closing Item)
    (hblank : isBlank opening = false) (hclose : opening ≠ ']')
    {make : List α → Option Break → Reading}
    (hvalue : ∀ fuel cs, readValue (fuel + 1) (opening :: cs) =
      (make (read fuel true cs).1.1 (read fuel true cs).1.2, (read fuel true cs).2))
    {items : List String} {values : List α}
    (hitems : List.Forall₂ (fun item value => Item item.toList value) items values) (level : Nat) :
    Spells (bracketed (String.singleton opening) (String.singleton closing) level items).toList
      (make values none) := by
  cases hitems with
  | nil =>
    refine ⟨⟨opening, [closing], by simp [bracketed], hblank, hclose⟩, fun fuel rest hfuel => ?_⟩
    obtain ⟨n, rfl⟩ : ∃ n, fuel = n + 2 := ⟨fuel - 2, by simp [bracketed] at hfuel; omega⟩
    have hempty := h.close n true [] rfl rest
    simp only [List.nil_append] at hempty
    simp [bracketed, hvalue, hempty]
  | @cons first value rest values hfirst hrest =>
    rw [toList_bracketed_cons]
    refine ⟨⟨opening, _, rfl, hblank, hclose⟩, fun fuel after hfuel => ?_⟩
    have hnewline : 0 < (newline (level + 1)).toList.length := by simp [newline]
    simp only [List.length_cons, List.length_append] at hfuel
    obtain ⟨n, rfl⟩ : ∃ n, fuel = n + 1 := ⟨fuel - 1, by omega⟩
    have hread := h.read_first (all_isBlank_newline (level + 1)) (all_isBlank_newline level) hfirst
      (List.forall₂_map_left_iff.mpr hrest) n after (by rw [List.length_append]; omega)
    rw [List.cons_append, hvalue, hread]

/-- A value without numbers. -/
inductive NumberFree : Json → Prop
  | null : NumberFree .null
  | bool (b : Bool) : NumberFree (.bool b)
  | text (s : String) : NumberFree (.text s)
  | array {items : List Json} (hitems : ∀ j ∈ items, NumberFree j) : NumberFree (.array items)
  | object {members : List (String × Json)} (hmembers : ∀ m ∈ members, NumberFree m.2) :
      NumberFree (.object members)

theorem spells_word (first : Char) (word : String) {value : Reading} (hblank : isBlank first = false)
    (hclose : first ≠ ']')
    (hvalue : ∀ fuel cs, readValue (fuel + 1) (first :: cs) = readWord word value cs) :
    Spells (first :: word.toList) value := by
  have hskip (ws cs : List Char) : skipWord ws (ws ++ cs) = .ok cs := by
    induction ws with
    | nil => rw [List.nil_append, skipWord]
    | cons w ws ih => rw [List.cons_append, skipWord, if_pos rfl, ih]
  refine ⟨⟨first, _, rfl, hblank, hclose⟩, fun fuel rest hfuel => ?_⟩
  obtain ⟨n, rfl⟩ : ∃ n, fuel = n + 1 := ⟨fuel - 1, by rw [List.length_cons] at hfuel; omega⟩
  rw [List.cons_append, hvalue, readWord, hskip]

theorem spells_quote (s : String) : Spells (quote s).toList (.text (.ok s)) := by
  have hquote : (quote s).toList = '"' :: (s.toList.flatMap escapeChar ++ ['"']) := by simp [quote]
  rw [hquote]
  refine ⟨⟨'"', _, rfl, by decide, by decide⟩, fun fuel rest hfuel => ?_⟩
  obtain ⟨n, rfl⟩ : ∃ n, fuel = n + 1 := ⟨fuel - 1, by rw [List.length_cons] at hfuel; omega⟩
  rw [List.cons_append, List.append_assoc, readValue, skipBlank_cons (by decide)]
  simp [readText_quote]

theorem readValue_bracket (fuel : Nat) (cs : List Char) :
    readValue (fuel + 1) ('[' :: cs) =
      (.array (readItems fuel true cs).1.1 (readItems fuel true cs).1.2,
        (readItems fuel true cs).2) := by
  rw [readValue, skipBlank_cons (by decide)]
  rfl

theorem readValue_brace (fuel : Nat) (cs : List Char) :
    readValue (fuel + 1) ('\x7b' :: cs) =
      (.object (readMembers fuel true cs).1.1 (readMembers fuel true cs).1.2,
        (readMembers fuel true cs).2) := by
  rw [readValue, skipBlank_cons (by decide)]
  rfl

theorem spells_items {level : Nat} {items : List Json}
    (hitems : ∀ j ∈ items, Spells (prettyAt level j).toList (.ofJson j)) :
    List.Forall₂ (fun item value => Spells item.toList value) (prettyItems level items)
      (ofItems items) := by
  induction items with
  | nil => exact .nil
  | cons j js ih =>
    obtain ⟨hhead, htail⟩ := List.forall_mem_cons.mp hitems
    exact .cons hhead (ih htail)

theorem spells_members {level : Nat} {members : List (String × Json)}
    (hmembers : ∀ m ∈ members, Spells (prettyAt level m.2).toList (.ofJson m.2)) :
    List.Forall₂ (fun item value => SpellsMember item.toList value) (prettyMembers level members)
      (ofMembers members) := by
  induction members with
  | nil => exact .nil
  | cons m ms ih =>
    obtain ⟨hhead, htail⟩ := List.forall_mem_cons.mp hmembers
    refine .cons ?_ (ih htail)
    simpa [quote] using SpellsMember.intro m.1 hhead

/-- A value without numbers that is laid out at any level spells itself. -/
theorem spells_prettyAt {j : Json} (hj : NumberFree j) (level : Nat) :
    Spells (prettyAt level j).toList (.ofJson j) := by
  induction hj generalizing level with
  | null =>
    rw [prettyAt, ofJson]
    exact spells_word 'n' "ull" (by decide) (by decide) fun _ _ => rfl
  | bool b =>
    rw [prettyAt, ofJson]
    cases b with
    | true => exact spells_word 't' "rue" (by decide) (by decide) fun _ _ => rfl
    | false => exact spells_word 'f' "alse" (by decide) (by decide) fun _ _ => rfl
  | text s =>
    rw [prettyAt, ofJson]
    exact spells_quote s
  | @array items _ ih =>
    rw [prettyAt, ofJson]
    exact spells_bracketed '[' readsList_readItems (by decide) (by decide)
      readValue_bracket (spells_items fun j hj => ih j hj (level + 1)) level
  | @object members _ ih =>
    rw [prettyAt, ofJson]
    exact spells_bracketed '\x7b' readsList_readMembers (by decide) (by decide)
      readValue_brace (spells_members fun m hm => ih m hm (level + 1)) level

/-- A value without numbers that is laid out over several lines is read again, and nothing
remains. -/
theorem ofText_pretty {j : Json} (hj : NumberFree j) : ofText j.pretty = (.ofJson j, some []) := by
  have hread := (spells_prettyAt hj 0).read (2 * j.pretty.toList.length + 2) []
    (Nat.le_add_right _ _)
  rw [List.append_nil] at hread
  exact hread

end Reading

end PropCatalog.Json
