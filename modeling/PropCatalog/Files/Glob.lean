/-!
# Glob patterns

A pattern is a list of pieces, each of which matches a stretch of text.  Patterns are matched
against whole texts, slashes included: only `**` treats slashes specially, and it must fill a path
component of its own.

Main statement: `matchesPieces_chars`, that pieces without wildcards match their own text only.
-/

namespace PropCatalog

namespace Glob

/-- One entry of a character set. -/
inductive Specifier where
  | single (c : Char)
  | range (low high : Char)
deriving DecidableEq, Repr

/-- What a part of a pattern matches. -/
inductive Piece where
  /-- The character itself. -/
  | char (c : Char)
  /-- Any one character. -/
  | anyChar
  /-- Any text. -/
  | anySequence
  /-- No text, or any text that ends in a slash; at the end of a pattern, any text. -/
  | anyRecursive
  /-- A character of the set. -/
  | within (specifiers : List Specifier)
  /-- A character outside the set. -/
  | except (specifiers : List Specifier)
deriving DecidableEq, Repr

/-- Why a pattern cannot be compiled. -/
inductive Problem where
  | tooManyStars
  | recursiveNotAlone
  | badRange
deriving DecidableEq, Repr

/-- The wording of a problem. -/
def Problem.message : Problem → String
  | tooManyStars => "wildcards are either regular `*` or recursive `**`"
  | recursiveNotAlone => "recursive wildcards must form a single path component"
  | badRange => "invalid range pattern"

/-- A problem and the position of the character where it was found. -/
structure Error where
  position : Nat
  problem : Problem
deriving DecidableEq, Repr

/-- The wording of an error. -/
def Error.message (e : Error) : String :=
  "Pattern syntax error near position " ++ toString e.position ++ ": " ++ e.problem.message

end Glob

/-- A compiled pattern. -/
structure Glob where
  pieces : List Glob.Piece
deriving DecidableEq, Repr

namespace Glob

/-! ## Compiling -/

/-- The entries of a character set. -/
def specifiers : List Char → List Specifier
  | low :: '-' :: high :: cs => .range low high :: specifiers cs
  | c :: cs => .single c :: specifiers cs
  | [] => []

/-- The set after an opening bracket: its piece, its length with the closing bracket, and the first
character always belongs to it. -/
def set? : List Char → Option (Piece × Nat)
  | '!' :: first :: cs =>
      let body := cs.takeWhile (· != ']')
      if body.length < cs.length then some (.except (specifiers (first :: body)), body.length + 3)
      else none
  | '!' :: [] => none
  | first :: cs =>
      let body := cs.takeWhile (· != ']')
      if body.length < cs.length then some (.within (specifiers (first :: body)), body.length + 2)
      else none
  | [] => none

/-- How many stars begin a text. -/
def stars (cs : List Char) : Nat := (cs.takeWhile (· == '*')).length

/-- Compile a text.  Besides the text there are the characters still to be passed over since a
piece has already accounted for them, the position, the character before, and the pieces so far,
latest first. -/
def compileFrom : Nat → Nat → Option Char → List Piece → List Char → Except Error (List Piece)
  | _, _, _, pieces, [] => .ok pieces.reverse
  | skip + 1, n, _, pieces, c :: cs => compileFrom skip (n + 1) (some c) pieces cs
  | 0, n, before, pieces, c :: cs =>
      if c = '?' then compileFrom 0 (n + 1) (some c) (.anyChar :: pieces) cs
      else if c = '*' then
        let count := 1 + stars cs
        if count = 1 then compileFrom 0 (n + 1) (some c) (.anySequence :: pieces) cs
        else if 2 < count then .error ⟨n + 2, .tooManyStars⟩
        else if before.isSome && before != some '/' then .error ⟨n - 1, .recursiveNotAlone⟩
        else
          let next := (cs.drop 1).head?
          if next.isSome && next != some '/' then .error ⟨n + 2, .recursiveNotAlone⟩
          else
            let repeated := 1 < pieces.length && pieces.head? == some .anyRecursive
            let pieces := if repeated then pieces else .anyRecursive :: pieces
            compileFrom (if next.isSome then 2 else 1) (n + 1) (some c) pieces cs
      else if c = '[' then
        match set? cs with
        | none => .error ⟨n, .badRange⟩
        | some (piece, width) => compileFrom width (n + 1) (some c) (piece :: pieces) cs
      else compileFrom 0 (n + 1) (some c) (.char c :: pieces) cs

/-- Compile a text into a pattern. -/
def compile (text : String) : Except Error Glob :=
  (compileFrom 0 0 none [] text.toList).map Glob.mk

/-- Compile a text into a pattern, if it is one. -/
def compile? (text : String) : Option Glob := (compile text).toOption

/-- Whether a text has a wildcard.  A text without one is taken literally wherever both are
allowed. -/
def hasWildcard (text : String) : Bool := text.toList.any fun c => c == '*' || c == '?'

/-! ## Matching -/

/-- Whether a character is in a set. -/
def Specifier.admits (c : Char) : Specifier → Bool
  | .single d => c == d
  | .range low high => low ≤ c && c ≤ high

/-- Whether a piece that stands for one character matches the character. -/
def Piece.admits (c : Char) : Piece → Bool
  | .char d => c == d
  | .anyChar => true
  | .within set => set.any (Specifier.admits c)
  | .except set => !set.any (Specifier.admits c)
  | .anySequence => false
  | .anyRecursive => false

/-- Whether a test holds of the text or of what remains after some of its characters. -/
def onSomeSuffix (test : List Char → Bool) : List Char → Bool
  | [] => test []
  | c :: cs => test (c :: cs) || onSomeSuffix test cs

/-- Whether a test holds of what remains after one of the slashes of a text, or after all of it. -/
def afterSomeSlash (test : List Char → Bool) : List Char → Bool
  | [] => test []
  | c :: cs => (c == '/' && test cs) || afterSomeSlash test cs

/-- Whether pieces match a whole text. -/
def matchesPieces : List Piece → List Char → Bool
  | [], cs => cs.isEmpty
  | .anySequence :: ps, cs => onSomeSuffix (matchesPieces ps) cs
  | .anyRecursive :: ps, cs => matchesPieces ps cs || afterSomeSlash (matchesPieces ps) cs
  | p :: ps, c :: cs => p.admits c && matchesPieces ps cs
  | _ :: _, [] => false

/-- Whether a pattern matches a whole text. -/
def isMatch (g : Glob) (text : String) : Bool := matchesPieces g.pieces text.toList

/-! ## Kinds of pattern -/

/-- The character that a piece stands for, if it is not a wildcard. -/
def Piece.literal? : Piece → Option Char
  | .char c => some c
  | _ => none

/-- The text of a pattern without wildcards. -/
def literal? (g : Glob) : Option String := (g.pieces.mapM Piece.literal?).map String.ofList

/-- Whether a pattern, being that of one path component, matches any number of directories. -/
def isRecursive (g : Glob) : Bool := g.pieces.contains .anyRecursive

/-- Whether a pattern names a leading dot. -/
def hasLeadingDot (g : Glob) : Bool := g.pieces.head? == some (.char '.')

@[simp] theorem matchesPieces_nil (cs : List Char) : matchesPieces [] cs = cs.isEmpty := by
  rw [matchesPieces]

theorem matchesPieces_chars (ds cs : List Char) :
    matchesPieces (ds.map .char) cs = decide (ds = cs) := by
  induction ds generalizing cs with
  | nil => cases cs <;> simp
  | cons d ds ih =>
    cases cs with
    | nil => simp [matchesPieces]
    | cons c cs =>
      by_cases h : c = d
      · subst h
        simp [matchesPieces, Piece.admits, ih]
      · simp [matchesPieces, Piece.admits, h, Ne.symm h]

end Glob

end PropCatalog
