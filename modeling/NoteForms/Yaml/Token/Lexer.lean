import NoteForms.Yaml.Token.Property
import NoteForms.Yaml.Token.Quoted
import NoteForms.Yaml.Token.Plain
import NoteForms.Yaml.Token.Block

/-! The tokens of a whole text. A key needs no mark in front: the lexer keeps, for
each open flow collection and for the block around it, the place of the last token
that can turn out to be one, and puts the key token there when it meets the colon.
Such a key ends on its line and within 1024 octets. -/

namespace NoteForms.Yaml

/-- A place where a key may have started. -/
structure PendingKey where
  /-- The number of tokens in front of it. -/
  position : Nat
  /-- The block it stands in admits nothing but a key. -/
  required : Bool
  octets : Nat
  line : Nat
  column : Nat

def PendingKey.isStale (k : PendingKey) (c : Cursor) : Bool :=
  k.line < c.line || k.octets + 1024 < c.octets

structure Lexer where
  cursor : Cursor
  /-- The tokens so far, the last first. -/
  tokens : List Token := []
  /-- One more than the column of the block's entries, the least column of a line
  that goes on inside one; zero outside all blocks. -/
  indent : Nat := 0
  /-- The same for the blocks around. -/
  outer : List Nat := []
  keyAllowed : Bool := true
  key : Option PendingKey := none
  /-- The keys pending around each open flow collection. -/
  outerKeys : List (Option PendingKey) := []

namespace Lexer

def inFlow (l : Lexer) : Bool := !l.outerKeys.isEmpty

def emit (l : Lexer) (t : Token) : Lexer := { l with tokens := t :: l.tokens }

/-- Puts a token behind the first `position` tokens. -/
def insertAt (l : Lexer) (position : Nat) (t : Token) : Lexer :=
  let later := l.tokens.length - position
  { l with tokens := l.tokens.take later ++ t :: l.tokens.drop later }

/-! ### Indentation -/

/-- Opens a block whose content stands in the given column, unless it is open. -/
def openBlock (l : Lexer) (column position : Nat) (t : Token) : Lexer :=
  if !l.inFlow && l.indent ≤ column then
    { l.insertAt position t with indent := column + 1, outer := l.indent :: l.outer }
  else l

/-- Closes the blocks that are indented more than the target. -/
def closeOver (target : Nat) (indent : Nat) : List Nat → List Token → Nat × List Nat × List Token
  | [], tokens => (indent, [], tokens)
  | o :: outer, tokens =>
    if target < indent then closeOver target o outer (.blockEnd :: tokens)
    else (indent, o :: outer, tokens)

def closeBlocks (l : Lexer) (target : Nat) : Lexer :=
  if l.inFlow then l
  else
    let (indent, outer, tokens) := closeOver target l.indent l.outer l.tokens
    { l with indent, outer, tokens }

/-! ### Keys -/

/-- Gives up the pending key; a required one is a fault. -/
def dropKey (l : Lexer) : Option Lexer :=
  if l.key.any (·.required) then none else some { l with key := none }

/-- The token to come may turn out to be a key. -/
def saveKey (l : Lexer) : Option Lexer :=
  if l.keyAllowed then do
    let c := l.cursor
    let required := !l.inFlow && l.indent = c.column + 1
    return { ← l.dropKey with key := some ⟨l.tokens.length, required, c.octets, c.line, c.column⟩ }
  else some l

def freshKey (c : Cursor) : Option PendingKey → Option (Option PendingKey)
  | none => some none
  | some k => if k.isStale c then (if k.required then none else some none) else some (some k)

/-- Gives up the keys that can no longer be one. -/
def dropStaleKeys (l : Lexer) : Option Lexer := do
  return { l with key := ← freshKey l.cursor l.key, outerKeys := ← l.outerKeys.mapM (freshKey l.cursor) }

/-! ### Between tokens -/

/-- Past blanks, comments and breaks. A break outside flow collections lets a key
follow. A tab in front of a possible key is not passed. One byte order mark may
start each line and takes up a column of it. -/
def skipSpace : Nat → Lexer → Lexer
  | 0, l => l
  | fuel + 1, l =>
    let tabs := l.inFlow || !l.keyAllowed
    let c := l.cursor.skipMark.skipWhile fun d => d = ' ' || tabs && d = '\t'
    let c := if c.rest.head? == some '#' then c.skipWhile (!isBreak ·) else c
    if c.rest.head?.any isBreak then
      skipSpace fuel { l with cursor := c.skipBreak, keyAllowed := l.keyAllowed || !l.inFlow }
    else { l with cursor := c }

/-! ### Tokens -/

/-- Takes `n` characters as a token. -/
def take (l : Lexer) (n : Nat) (t : Token) : Lexer := { l.emit t with cursor := l.cursor.skip n }

def allowKey (l : Lexer) (allowed : Bool) : Lexer := { l with keyAllowed := allowed }

/-- Takes the result of a scan as a token. -/
def took (l : Lexer) (r : Option (Token × Cursor)) : Option Lexer :=
  r.map fun (t, c) => { l.emit t with cursor := c }

/-- Ends all blocks and gives up the pending key. -/
def leaveBlocks (l : Lexer) : Option Lexer := do
  return (← (l.closeBlocks 0).dropKey).allowKey false

def flowStart (l : Lexer) (t : Token) : Option Lexer := do
  let l ← l.saveKey
  return { (l.allowKey true).take 1 t with key := none, outerKeys := l.key :: l.outerKeys }

def flowEnd (l : Lexer) (t : Token) : Option Lexer := do
  let l := ((← l.dropKey).allowKey false).take 1 t
  match l.outerKeys with
  | k :: ks => return { l with key := k, outerKeys := ks }
  | [] => return l

def comma (l : Lexer) : Option Lexer := do
  return ((← l.dropKey).allowKey true).take 1 .comma

/-- A dash or question mark that opens a block where it stands. -/
def openAtIndicator (l : Lexer) (opening : Token) : Option Lexer :=
  if l.inFlow then some l
  else if l.keyAllowed then some (l.openBlock l.cursor.column l.tokens.length opening)
  else none

def item (l : Lexer) : Option Lexer := do
  let l ← l.openAtIndicator .blockSequence
  return ((← l.dropKey).allowKey true).take 1 .item

def markedKey (l : Lexer) : Option Lexer := do
  let l ← l.openAtIndicator .blockMapping
  return ((← l.dropKey).allowKey !l.inFlow).take 1 .key

def value (l : Lexer) : Option Lexer :=
  match l.key with
  | some k =>
    let l := (l.insertAt k.position .key).openBlock k.column k.position .blockMapping
    some (({ l with key := none }.allowKey false).take 1 .value)
  | none => do
    let l ← l.openAtIndicator .blockMapping
    return (l.allowKey !l.inFlow).take 1 .value

/-- A token that may be a key or the start of one. -/
def content (l : Lexer) (r : Option (Token × Cursor)) : Option Lexer := do
  ((← l.saveKey).allowKey false).took r

def quoted (l : Lexer) (quote : Char) : Option Lexer :=
  l.content ((Quoted.scan quote l.cursor).map fun (cs, c) => (.scalar false cs, c))

def block (l : Lexer) (literal : Bool) : Option Lexer := do
  ((← l.dropKey).allowKey true).took
    ((Block.scan literal l.indent l.cursor).map fun (cs, c) => (.scalar false cs, c))

def plain (l : Lexer) : Option Lexer := do
  let l := (← l.saveKey).allowKey false
  let (cs, broken, c) ← Plain.scan l.inFlow l.indent l.cursor
  return { (l.emit (.scalar true cs)).allowKey broken with cursor := c }

/-- The token in front. -/
def token (l : Lexer) (d : Char) (r : List Char) : Option Lexer :=
  let c := l.cursor
  if c.column = 0 ∧ d = '%' then do (← l.leaveBlocks).took (Property.directive c)
  else if c.atMarker then do
    return (← l.leaveBlocks).take 3 (if d = '-' then .documentStart else .documentEnd)
  else if d = '[' then l.flowStart .flowSequence
  else if d = '\x7b' then l.flowStart .flowMapping
  else if d = ']' then l.flowEnd .flowSequenceEnd
  else if d = '\x7d' then l.flowEnd .flowMappingEnd
  else if d = ',' then l.comma
  else if d = '-' ∧ spaceNext r then l.item
  else if d = '?' ∧ (l.inFlow ∨ spaceNext r) then l.markedKey
  else if d = ':' ∧ (l.inFlow ∨ spaceNext r) then l.value
  else if d = '*' then l.content ((Property.name c).map fun (cs, c) => (.alias cs, c))
  else if d = '&' then l.content ((Property.name c).map fun (cs, c) => (.anchor cs, c))
  else if d = '!' then l.content (Property.tag l.inFlow c)
  else if d = '|' ∧ !l.inFlow then l.block true
  else if d = '>' ∧ !l.inFlow then l.block false
  else if d = '\x27' ∨ d = '\x22' then l.quoted d
  else if isSpace d || isIndicator d then none
  else l.plain

/-- All tokens of the text that is left. Blocks still open end with it. -/
def run : Nat → Lexer → Option (List Token)
  | 0, _ => none
  | fuel + 1, l => do
    let l ← (l.skipSpace (l.cursor.rest.length + 1)).dropStaleKeys
    let l := l.closeBlocks (l.cursor.column + 1)
    match l.cursor.rest with
    | [] => return (← l.leaveBlocks).tokens.reverse
    | d :: r => run fuel (← l.token d r)

end Lexer

/-- The tokens of a text; none when it has faults. -/
def tokens (cs : List Char) : Option (List Token) :=
  if cs.all isAllowed then Lexer.run (cs.length + 2) { cursor := .start cs } else none

end NoteForms.Yaml
