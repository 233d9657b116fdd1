import PropCatalog.Source.Grammar.Goal
import PropCatalog.Tree.Identifiers

/-!
# Markup

Elements and fragments with their attributes and children.  Inside markup single characters are
read rather than tokens, since text may follow any of them directly.
-/

namespace PropCatalog.Source.Grammar

open Reader

/-- The next character after a gap. -/
def glance : Reader (Option Char) := fun c => c.gap.map fun g => (g.rest.head?, c)

/-- A character that must be next, after a gap. -/
def symbol (x : Char) : Reader Unit := fun c => do
  let g ← c.gap
  if g.rest.head? == some x then some ((), (c.past g).advance 1) else none

/-- A character if it is next, and whether it was. -/
def takesSymbol (x : Char) : Reader Bool := do
  if (← glance) == some x then symbol x; return true
  return false

/-- A word of markup, with where it starts. -/
def markupWord : Reader (String × Nat) := fun c =>
  c.markupName.map fun (w, start, after) => ((w, start), after)

/-- A word of markup as a name. -/
def markupPlainName : Reader Tree := do
  let (w, start) ← markupWord
  return plainName (← spanFrom start) w

/-- A word after a dot that extends the name of an element, if one is next. -/
def elementMember? (start : Nat) (object : Tree) : Reader (Option Tree) := do
  unless ← takesSymbol '.' do return none
  let property ← markupPlainName
  return some (node .jsxMember [← spanFrom start, object, property])

/-- The name of an element: a word, a word in a name space, or a word with members. -/
def elementName : Reader Tree := do
  let (w, start) ← markupWord
  if ← takesSymbol ':' then
    let space := plainName (← spanFrom start) w
    let name ← markupPlainName
    return node .jsxNamespacedName [← spanFrom start, space, name]
  extendAll (elementMember? start) (reference (← spanFrom start) w)

/-- An expression in braces, which may be missing among children. -/
def container (g : Grammar) (mayBeEmpty : Bool) : Reader Tree := do
  let start ← position
  symbol '\x7b'
  if mayBeEmpty && (← glance) == some '\x7d' then
    let empty := node .jsxEmpty [← spanFrom start]
    symbol '\x7d'
    return node .jsxContainer [← spanFrom start, empty]
  if mayBeEmpty && (← isMark "...") then
    mark "..."
    let e ← g.read .assignment
    symbol '\x7d'
    return node .jsxSpreadChild [← spanFrom start, e]
  let e ← g.read .expression
  symbol '\x7d'
  return node .jsxContainer [← spanFrom start, e]

/-- A string as the value of an attribute. -/
def attributeString : Reader Tree := do
  let start ← position
  let spelling ← (fun c => c.markupString.map fun (s, _, after) => (s, after) : Reader String)
  let value := String.ofList (spelling.toList.tail.dropLast)
  return .string (← spanFrom start) (.text value) (.text spelling)

/-- The name of an attribute: a word, or a word in a name space. -/
def attributeName : Reader Tree := do
  let start ← position
  let plain ← markupPlainName
  unless ← takesSymbol ':' do return plain
  let name ← markupPlainName
  return node .jsxNamespacedName [← spanFrom start, plain, name]

/-- The value of an attribute: an expression in braces, markup or a string. -/
def attributeValue (g : Grammar) : Reader Tree := do
  match ← glance with
  | some '\x7b' => container g false
  | some '<' => g.read .markup
  | _ => attributeString

/-- An attribute of an element. -/
def elementAttribute (g : Grammar) : Reader Tree := do
  if (← glance) == some '\x7b' then
    symbol '\x7b'
    let start ← position
    mark "..."
    let dots ← spanFrom start
    let e ← g.read .assignment
    symbol '\x7d'
    return node .spreadElement [dots, e]
  let start ← position
  let name ← attributeName
  let value ← if ← takesSymbol '=' then attributeValue g else pure .null
  return node .jsxAttribute [← spanFrom start, name, value]

/-- Text among children, if there is any. -/
def markupText : Reader (Option Tree) := fun c =>
  let (s, after) := c.markupText
  if s = "" then some (none, c)
  else
    let span := Tree.span ⟨c.offset, after.offset⟩
    some (some (node .jsxText [span, .text s, .text s]), after)

/-- Whether a closing tag is next. -/
def isClosing : Reader Bool := fun c => some (['<', '/'].isPrefixOf c.rest, c)

/-- The children of an element, up to its closing tag. -/
def children (g : Grammar) : Reader (List Tree) :=
  many do
    match ← markupText with
    | some t => return some t
    | none =>
        if ← isClosing then return none
        match ← glance with
        | some '\x7b' => return some (← container g true)
        | some '<' => return some (← g.read .markup)
        | _ => failure

/-- An element or a fragment. -/
def markup (g : Grammar) : Reader Tree := do
  let start ← position
  symbol '<'
  if ← takesSymbol '>' then
    let opening := node .jsxOpeningFragment [← spanFrom start]
    let inner ← children g
    let last ← position
    symbol '<'
    symbol '/'
    symbol '>'
    let closing := node .jsxClosingFragment [← spanFrom last]
    return node .jsxFragment [← spanFrom start, opening, .list inner, closing]
  let name ← elementName
  let attributes ← many do
    match ← glance with
    | some '/' => return none
    | some '>' => return none
    | _ => return some (← elementAttribute g)
  if ← takesSymbol '/' then
    symbol '>'
    let opening := node .jsxOpening [name, ← spanFrom start, .list attributes, .bool true, .null]
    return node .jsxElement [← spanFrom start, opening, .list [], .null]
  symbol '>'
  let opening := node .jsxOpening [name, ← spanFrom start, .list attributes, .bool false, .null]
  let inner ← children g
  let last ← position
  symbol '<'
  symbol '/'
  let closed ← elementName
  guard (closed.eraseSpans == name.eraseSpans)
  symbol '>'
  let closing := node .jsxClosing [← spanFrom last, closed]
  return node .jsxElement [← spanFrom start, opening, .list inner, closing]

end PropCatalog.Source.Grammar
