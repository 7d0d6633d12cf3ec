import NoteForms.Yaml.Token.Gap

/-! Plain scalars. Words go on until a colon with a space after it, in a flow
collection also until one of its indicators; the scalar goes on over blanks and
breaks until a comment, a document marker or a line that is indented too little. -/

namespace NoteForms.Yaml.Plain

/-- The length of the word in front. In a flow collection a colon directly before
an indicator is a fault. -/
def wordLength (flow : Bool) : List Char → Option Nat
  | [] => some 0
  | d :: r =>
    if isSpace d then some 0
    else if flow && d = ':' && r.head?.any fun e => isFlowIndicator e || e = '?' then none
    else if d = ':' && spaceNext r || flow && isFlowIndicator d then some 0
    else (wordLength flow r).map (· + 1)

/-- The words from a place on, in front of them a gap; `taken` is in reverse. Tells
also whether a break was passed last. -/
def body (flow : Bool) (indent : Nat) :
    Nat → List Char → Gap → Cursor → Option (List Char × Bool × Cursor)
  | 0, taken, g, c => some (taken.reverse, g.broken, c)
  | fuel + 1, taken, g, c =>
    if c.atMarker || c.rest.head? == some '#' then some (taken.reverse, g.broken, c)
    else do
      let n ← wordLength flow c.rest
      let (taken, g) : List Char × Gap :=
        if n = 0 then (taken, g) else ((g.text ++ c.rest.take n).reverse ++ taken, {})
      let c := c.skip n
      if !c.rest.head?.any isSpace then return (taken.reverse, g.broken, c)
      let (g, c) ← Gap.scan indent c.rest.length g c
      if !flow && c.column < indent then return (taken.reverse, g.broken, c)
      body flow indent fuel taken g c

/-- A plain scalar in a block whose content starts at column `indent`. -/
def scan (flow : Bool) (indent : Nat) (c : Cursor) : Option (List Char × Bool × Cursor) :=
  body flow indent (c.rest.length + 1) [] {} c

end NoteForms.Yaml.Plain
