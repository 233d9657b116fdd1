import Mathlib.Data.List.Forall2
import PropCatalog.Files.Glob
import PropCatalog.Proofs.Paths

/-!
# Compiling patterns

A text without wildcards compiles to its own characters, and only such a text compiles to characters
alone (`exists_compile?_of_isPlain`, `eq_of_literal?`).

A pattern for paths is compiled as a whole and component by component.  The second is the stronger
condition: a path is a pattern if its pieces are (`compile?_of_pieces`), but a set may reach over a
slash, and then the pieces on its two sides are no patterns.
-/

namespace PropCatalog.Glob

/-! ## Literals -/

/-- Pieces that have been found are kept. -/
theorem mem_of_compileFrom {skip n : Nat} {before : Option Char} {acc ps : List Piece}
    {cs : List Char} (h : compileFrom skip n before acc cs = .ok ps) {p : Piece} (hp : p ∈ acc) :
    p ∈ ps := by
  fun_induction compileFrom skip n before acc cs with
  | case1 =>
    obtain rfl := Except.ok.inj h
    exact List.mem_reverse.mpr hp
  | case2 skip n before acc c cs ih => exact ih h hp
  | case3 n before acc cs ih => exact ih h (List.mem_cons_of_mem _ hp)
  | case4 n before acc cs count _ _ ih => exact ih h (List.mem_cons_of_mem _ hp)
  | case5 | case6 | case7 => cases h
  | case8 n before acc cs count _ _ _ next _ repeated acc' _ ih =>
    refine ih h ?_
    show p ∈ if repeated then acc else .anyRecursive :: acc
    split
    · exact hp
    · exact List.mem_cons_of_mem _ hp
  | case9 n before acc cs hset => cases h
  | case10 n before acc cs piece width hset _ _ ih => exact ih h (List.mem_cons_of_mem _ hp)
  | case11 n before acc c cs _ _ _ ih => exact ih h (List.mem_cons_of_mem _ hp)

/-- The body of a set ends at a bracket in the text, whatever is added behind it. -/
theorem takeWhile_append_of_length_lt {cs : List Char}
    (h : (cs.takeWhile (· != ']')).length < cs.length) (rest : List Char) :
    (cs ++ rest).takeWhile (· != ']') = cs.takeWhile (· != ']') := by
  rw [List.takeWhile_append, if_neg (Nat.ne_of_lt h)]

theorem set?_of_ne {first : Char} (hfirst : first ≠ '!') (cs : List Char) :
    set? (first :: cs) =
      if (cs.takeWhile (· != ']')).length < cs.length then
        some (.within (specifiers (first :: cs.takeWhile (· != ']'))),
          (cs.takeWhile (· != ']')).length + 2)
      else none := by
  rw [set?]
  · simp [hfirst]
  · simp [hfirst]

/-- A set is read from what follows its bracket, whatever is added behind it, and it is no
literal. -/
theorem set?_eq_some {cs : List Char} {piece : Piece} {width : Nat}
    (h : set? cs = some (piece, width)) :
    piece.literal? = none ∧ width ≤ cs.length ∧
      ∀ rest, set? (cs ++ rest) = some (piece, width) := by
  cases cs with
  | nil => cases h
  | cons first cs =>
    by_cases hfirst : first = '!'
    · subst hfirst
      cases cs with
      | nil => cases h
      | cons second cs =>
        rw [set?] at h
        split at h
        · next hlt =>
          cases h
          refine ⟨rfl, by simp only [List.length_cons]; omega, fun rest => ?_⟩
          rw [List.cons_append, List.cons_append, set?, takeWhile_append_of_length_lt hlt,
            if_pos (by rw [List.length_append]; omega)]
        · cases h
    · rw [set?_of_ne hfirst] at h
      split at h
      · next hlt =>
        cases h
        refine ⟨rfl, by simp only [List.length_cons]; omega, fun rest => ?_⟩
        rw [List.cons_append, set?_of_ne hfirst, takeWhile_append_of_length_lt hlt,
          if_pos (by rw [List.length_append]; omega)]
      · cases h

/-- A wildcard leaves a piece that is no literal. -/
theorem exists_wildcard_of_compileFrom {n : Nat} {before : Option Char} {acc ps : List Piece}
    {c : Char} {cs : List Char} (h : compileFrom 0 n before acc (c :: cs) = .ok ps)
    (hc : c = '?' ∨ c = '*' ∨ c = '[') : ∃ p ∈ ps, p.literal? = none := by
  rw [compileFrom] at h
  rcases hc with rfl | rfl | rfl
  · exact ⟨_, mem_of_compileFrom h List.mem_cons_self, rfl⟩
  · simp only [Char.reduceEq, if_false, if_true] at h
    split at h
    · exact ⟨_, mem_of_compileFrom h List.mem_cons_self, rfl⟩
    · split at h
      · cases h
      · split at h
        · cases h
        · split at h
          · cases h
          · refine ⟨.anyRecursive, mem_of_compileFrom h ?_, rfl⟩
            split
            · next hrepeated =>
              rw [Bool.and_eq_true, beq_iff_eq] at hrepeated
              exact List.mem_of_head? hrepeated.2
            · exact List.mem_cons_self
  · simp only [Char.reduceEq, if_false, if_true] at h
    split at h
    · cases h
    · next piece width hset =>
      exact ⟨piece, mem_of_compileFrom h List.mem_cons_self, (set?_eq_some hset).1⟩

theorem compileFrom_of_plain {n : Nat} {before : Option Char} {acc : List Piece} {c : Char}
    (hc : ¬ (c = '?' ∨ c = '*' ∨ c = '[')) (cs : List Char) :
    compileFrom 0 n before acc (c :: cs) = compileFrom 0 (n + 1) (some c) (.char c :: acc) cs := by
  simp only [not_or] at hc
  rw [compileFrom, if_neg hc.1, if_neg hc.2.1, if_neg hc.2.2]

/-- What compiles to characters alone compiles to its own characters. -/
theorem eq_of_compileFrom {n : Nat} {before : Option Char} {acc ps : List Piece}
    {cs : List Char} (h : compileFrom 0 n before acc cs = .ok ps)
    (hliteral : ∀ p ∈ ps, p.literal? ≠ none) : ps = acc.reverse ++ cs.map .char := by
  induction cs generalizing n before acc with
  | nil =>
    rw [compileFrom] at h
    simpa using (Except.ok.inj h).symm
  | cons c cs ih =>
    by_cases hc : c = '?' ∨ c = '*' ∨ c = '['
    · obtain ⟨p, hp, hnone⟩ := exists_wildcard_of_compileFrom h hc
      exact absurd hnone (hliteral p hp)
    · rw [compileFrom_of_plain hc] at h
      simpa using ih h

/-- A text without wildcards compiles to its own characters. -/
theorem compileFrom_chars {n : Nat} {before : Option Char} {acc : List Piece} {cs : List Char}
    (hcs : ∀ c ∈ cs, ¬ (c = '?' ∨ c = '*' ∨ c = '[')) :
    compileFrom 0 n before acc cs = .ok (acc.reverse ++ cs.map .char) := by
  induction cs generalizing n before acc with
  | nil => simp [compileFrom]
  | cons c cs ih =>
    obtain ⟨hc, hrest⟩ := List.forall_mem_cons.mp hcs
    rw [compileFrom_of_plain hc, ih hrest]
    simp

/-- Whether a text has none of the characters that have a meaning in patterns. -/
def IsPlain (text : String) : Prop := ∀ c ∈ text.toList, ¬ (c = '?' ∨ c = '*' ∨ c = '[')

theorem compile?_eq_some_iff {text : String} {g : Glob} :
    compile? text = some g ↔ compileFrom 0 0 none [] text.toList = .ok g.pieces := by
  rw [compile?, compile]
  obtain ⟨pieces⟩ := g
  cases compileFrom 0 0 none [] text.toList <;> simp [Except.map, Except.toOption]

/-- Reading all elements of a list succeeds if reading each of them does. -/
theorem mapM_eq_some_iff {α β : Type} {f : α → Option β} {xs : List α} {ys : List β} :
    xs.mapM f = some ys ↔ List.Forall₂ (fun x y => f x = some y) xs ys := by
  induction xs generalizing ys with
  | nil => simp [eq_comm]
  | cons x xs ih =>
    simp only [List.mapM_cons, Option.bind_eq_bind, Option.bind_eq_some_iff, Option.pure_def,
      Option.some.injEq, ih, List.forall₂_cons_left_iff]
    constructor
    · rintro ⟨y, hy, zs, hzs, rfl⟩
      exact ⟨y, zs, hy, hzs, rfl⟩
    · rintro ⟨y, zs, hy, hzs, rfl⟩
      exact ⟨y, hy, zs, hzs, rfl⟩

/-- Where all elements of a list can be read, each of them can. -/
theorem forall_of_mapM_eq_some {α β : Type} {f : α → Option β} {xs : List α} {ys : List β}
    (h : xs.mapM f = some ys) : ∀ x ∈ xs, ∃ y, f x = some y :=
  ((List.forall₂_and_left _ _).mp ((mapM_eq_some_iff.mp h).imp fun _ y hy => ⟨⟨y, hy⟩, hy⟩)).1

theorem literal?_chars (cs : List Char) : literal? ⟨cs.map .char⟩ = some (String.ofList cs) := by
  have hcs : (cs.map Piece.char).mapM Piece.literal? = some cs := by
    induction cs with
    | nil => rfl
    | cons c cs ih =>
      rw [List.map_cons, List.mapM_cons, ih]
      rfl
  rw [literal?, hcs]
  rfl

/-- A text without wildcards is the literal of its pattern. -/
theorem exists_compile?_of_isPlain {text : String} (h : IsPlain text) :
    ∃ g, compile? text = some g ∧ g.literal? = some text :=
  ⟨⟨text.toList.map .char⟩, compile?_eq_some_iff.mpr (compileFrom_chars h), by
    rw [literal?_chars, String.ofList_toList]⟩

/-- The literal of a pattern is the text that was compiled. -/
theorem eq_of_literal? {text name : String} {g : Glob} (hg : compile? text = some g)
    (hname : g.literal? = some name) : name = text := by
  obtain ⟨pieces⟩ := g
  obtain ⟨cs, hcs, _⟩ := Option.map_eq_some_iff.mp hname
  have hliteral : ∀ p ∈ pieces, p.literal? ≠ none := by
    intro p hp
    obtain ⟨c, hc⟩ := forall_of_mapM_eq_some hcs p hp
    simp [hc]
  obtain rfl := eq_of_compileFrom (compile?_eq_some_iff.mp hg) hliteral
  rw [List.reverse_nil, List.nil_append, literal?_chars, String.ofList_toList] at hname
  exact (Option.some.inj hname).symm

/-- Recursive wildcards are no literal. -/
theorem isRecursive_of_literal? {g : Glob} {name : String} (hname : g.literal? = some name) :
    g.isRecursive = false := by
  obtain ⟨cs, hcs, _⟩ := Option.map_eq_some_iff.mp hname
  by_contra hrecursive
  rw [Bool.not_eq_false, isRecursive, List.contains_iff_mem] at hrecursive
  obtain ⟨c, hc⟩ := forall_of_mapM_eq_some hcs _ hrecursive
  cases hc

/-! ## Paths -/

/-- Whether a character before recursive wildcards lets them stand there. -/
def isOpen (before : Option Char) : Bool := !(before.isSome && before != some '/')

/-- A text can be compiled from the start of a component, whatever has been compiled before it. -/
def Compiles (cs : List Char) : Prop :=
  ∀ n before acc, isOpen before = true → ∃ ps, compileFrom 0 n before acc cs = .ok ps

/-- What may follow a component: nothing, or a slash and a text that can be compiled. -/
def Continues (rest : List Char) : Prop := rest = [] ∨ ∃ ys, rest = '/' :: ys ∧ Compiles ys

theorem Continues.exists_compileFrom {rest : List Char} (h : Continues rest) (n : Nat)
    (before : Option Char) (acc : List Piece) :
    ∃ ps, compileFrom 0 n before acc rest = .ok ps := by
  rcases h with rfl | ⟨ys, rfl, hys⟩
  · exact ⟨acc.reverse, by rw [compileFrom]⟩
  · rw [compileFrom_of_plain (by decide)]
    exact hys (n + 1) (some '/') _ rfl

theorem Continues.stars_append {rest : List Char} (h : Continues rest) (cs : List Char) :
    stars (cs ++ rest) = stars cs := by
  have hrest : rest.takeWhile (· == '*') = [] := by
    rcases h with rfl | ⟨ys, rfl, _⟩
    · rfl
    · exact List.takeWhile_cons_of_neg (by decide)
  rw [stars, stars, List.takeWhile_append, hrest, List.append_nil]
  split
  · next hall =>
    rw [(List.takeWhile_prefix _).eq_of_length hall]
  · rfl

theorem compileFrom_star {n : Nat} {before : Option Char} {acc : List Piece} {cs : List Char}
    (hstars : stars cs = 0) :
    compileFrom 0 n before acc ('*' :: cs) =
      compileFrom 0 (n + 1) (some '*') (.anySequence :: acc) cs := by
  simp [compileFrom, hstars]

/-- Two stars that form a component of their own are passed over, together with the slash after
them. -/
theorem compileFrom_twoStars (n : Nat) {before : Option Char} (acc : List Piece) {cs : List Char}
    (hstars : stars cs = 1) (hbefore : isOpen before = true)
    (hnext : isOpen (cs.drop 1).head? = true) :
    ∃ acc', compileFrom 0 n before acc ('*' :: cs) =
      compileFrom (if (cs.drop 1).head?.isSome then 2 else 1) (n + 1) (some '*') acc' cs := by
  simp only [isOpen, Bool.not_eq_true'] at hbefore hnext
  rw [compileFrom, if_neg (by decide), if_pos rfl, hstars, if_neg (by decide), if_neg (by decide),
    hbefore, if_neg (by decide)]
  dsimp only
  rw [hnext, if_neg (by decide)]
  exact ⟨_, rfl⟩

/-- What compiles by itself compiles also before a slash and more, whatever was before. -/
theorem exists_compileFrom_append {rest : List Char} (hrest : Continues rest) {skip n : Nat}
    {before : Option Char} {acc ps : List Piece} {cs : List Char}
    (h : compileFrom skip n before acc cs = .ok ps) (hskip : skip ≤ cs.length) (m : Nat)
    (before' : Option Char) (acc' : List Piece) (hbefore : isOpen before' = isOpen before) :
    ∃ qs, compileFrom skip m before' acc' (cs ++ rest) = .ok qs := by
  fun_induction compileFrom skip n before acc cs generalizing m before' acc' with
  | case1 skip n before acc =>
    obtain rfl : skip = 0 := Nat.le_zero.mp hskip
    exact hrest.exists_compileFrom m before' acc'
  | case2 skip n before acc c cs ih =>
    rw [List.cons_append, compileFrom]
    exact ih h (Nat.le_of_succ_le_succ hskip) (m + 1) (some c) acc' rfl
  | case3 n before acc cs ih =>
    rw [List.cons_append, compileFrom, if_pos rfl]
    exact ih h (Nat.zero_le _) (m + 1) (some '?') _ rfl
  | case4 n before acc cs count hcount _ ih =>
    rw [List.cons_append, compileFrom_star (by rw [hrest.stars_append]; omega)]
    exact ih h (Nat.zero_le _) (m + 1) (some '*') _ rfl
  | case5 | case6 | case7 => cases h
  | case8 n before acc cs count hone htwo hopen next hnext repeated found _ ih =>
    have hstars : stars (cs ++ rest) = 1 := by rw [hrest.stars_append]; omega
    have hopen' : isOpen before' = true := by
      rw [hbefore]
      simpa only [isOpen, Bool.not_eq_true', Bool.not_eq_true] using hopen
    rw [List.cons_append]
    cases cs with
    | nil => exact absurd rfl hone
    | cons second cs =>
      cases cs with
      | nil =>
        -- The stars end the component, and the slash that may follow is passed over with them.
        rcases hrest with rfl | ⟨ys, rfl, hys⟩
        · obtain ⟨acc'', hstep⟩ := compileFrom_twoStars m acc' hstars hopen' rfl
          rw [hstep]
          exact ⟨acc''.reverse, by simp [compileFrom]⟩
        · obtain ⟨acc'', hstep⟩ := compileFrom_twoStars m acc' hstars hopen' rfl
          rw [hstep]
          exact hys (m + 1 + 1 + 1) (some '/') acc'' rfl
      | cons third cs =>
        have hnext' : isOpen next = true := by
          simpa only [isOpen, Bool.not_eq_true', Bool.not_eq_true] using hnext
        obtain ⟨acc'', hstep⟩ := compileFrom_twoStars m acc' hstars hopen' hnext'
        rw [hstep]
        exact ih h (Nat.succ_le_succ (Nat.succ_le_succ (Nat.zero_le _))) (m + 1) (some '*') acc''
          rfl
  | case9 n before acc cs hset => cases h
  | case10 n before acc cs piece width hset _ _ ih =>
    obtain ⟨_, hwidth, hmore⟩ := set?_eq_some hset
    rw [List.cons_append, compileFrom, if_neg (by decide), if_neg (by decide), if_pos rfl, hmore]
    exact ih h hwidth (m + 1) (some '[') _ rfl
  | case11 n before acc c cs hany hstar hset ih =>
    rw [List.cons_append, compileFrom_of_plain (by simp [hany, hstar, hset])]
    exact ih h (Nat.zero_le _) (m + 1) (some c) _ rfl

theorem compiles_iff {text : String} : (∃ g, compile? text = some g) ↔ Compiles text.toList := by
  constructor
  · rintro ⟨g, hg⟩ n before acc hopen
    have hcompiled := exists_compileFrom_append (Or.inl rfl) (compile?_eq_some_iff.mp hg)
      (Nat.zero_le _) n before acc hopen
    rwa [List.append_nil] at hcompiled
  · intro h
    obtain ⟨ps, hps⟩ := h 0 none [] rfl
    exact ⟨⟨ps⟩, compile?_eq_some_iff.mpr hps⟩

/-- Pieces that can be compiled can be compiled with slashes between them. -/
theorem compiles_of_cut {cs : List Char} (h : ∀ piece ∈ Path.cut cs, Compiles piece) :
    Compiles cs := by
  obtain ⟨pieces, hpieces⟩ : ∃ pieces, Path.cut cs = pieces := ⟨_, rfl⟩
  rw [hpieces] at h
  induction pieces generalizing cs with
  | nil => exact absurd hpieces (Path.cut_ne_nil cs)
  | cons piece pieces ih =>
    by_cases hslash : '/' ∈ cs
    · obtain ⟨xs, ys, rfl, hxs⟩ := List.eq_append_cons_of_mem hslash
      rw [Path.cut_append_slash, Path.cut_of_notMem hxs, List.singleton_append] at hpieces
      obtain ⟨rfl, hys⟩ := List.cons.inj hpieces
      obtain ⟨hhead, htail⟩ := List.forall_mem_cons.mp h
      intro n before acc hopen
      obtain ⟨ps, hps⟩ := hhead n before acc hopen
      exact exists_compileFrom_append (Or.inr ⟨ys, rfl, ih htail hys⟩) hps (Nat.zero_le _) n before
        acc rfl
    · rw [Path.cut_of_notMem hslash] at hpieces
      obtain ⟨rfl, _⟩ := List.cons.inj hpieces
      exact h cs List.mem_cons_self

/-- A path is a pattern if its pieces are. -/
theorem compile?_of_pieces {p : Path} (h : ∀ piece ∈ p.pieces, ∃ g, compile? piece = some g) :
    ∃ g, compile? p.text = some g := by
  rw [compiles_iff]
  refine compiles_of_cut fun piece hpiece => ?_
  have hcompiles := compiles_iff.mp (h (String.ofList piece) (List.mem_map_of_mem hpiece))
  rwa [String.toList_ofList] at hcompiles

end PropCatalog.Glob
