import NoteForms.Yaml.Chars
import NoteForms.Yaml.Scalar
import NoteForms.Json.Equality

/-! How a text is written as a scalar: plain where it reads back as itself, as a
literal block when it has a line feed, in single quotes otherwise, and in double
quotes when neither can hold it. -/

namespace NoteForms.Yaml

inductive Style where
  | plain
  | single
  | double
  | literal
  deriving DecidableEq, Repr

namespace Style

/-! ### Shapes of a text -/

/-- A character of one kind directly before one of another. -/
def hasPair (p q : Char → Bool) (cs : List Char) : Bool :=
  (cs.zip (cs.drop 1)).any fun (a, b) => p a && q b

def isSpaceChar (c : Char) : Bool := c = ' '

/-- A space or break at either end. -/
def hasOuterSpace (cs : List Char) : Bool :=
  let outer (c : Char) : Bool := isSpaceChar c || isBreak c
  cs.head?.any outer || cs.getLast?.any outer

/-- An indicator of a collection, a quote or a document in front. -/
def startsWithIndicator : List Char → Bool
  | [] => false
  | '-' :: '-' :: '-' :: _ | '.' :: '.' :: '.' :: _ => true
  | c :: r => isIndicator c || (c = '?' || c = ':' || c = '-') && spaceNext r

/-- The colon of an entry or the start of a comment, after a character. -/
def hasInnerIndicator (before : Char) : List Char → Bool
  | [] => false
  | c :: r => c = ':' && spaceNext r || c = '#' && isSpace before || hasInnerIndicator c r

/-- The text can stand plain in a block. -/
def plainHolds (cs : List Char) : Bool :=
  cs.all isPrintable && !cs.any isBreak && !hasOuterSpace cs && !startsWithIndicator cs &&
    !match cs with
      | [] => false
      | c :: r => hasInnerIndicator c r

/-- The text can stand in single quotes, whose lines lose the spaces around breaks. -/
def singleHolds (cs : List Char) : Bool :=
  cs.all isPrintable && !hasPair isBreak isSpaceChar cs && !hasPair isSpaceChar isBreak cs

/-- The text can stand in a literal block, of which no line ends with a space. -/
def literalHolds (cs : List Char) : Bool :=
  cs.all isPrintable && !cs.getLast?.any isSpaceChar && !hasPair isSpaceChar isBreak cs

/-- A plain scalar of the text is read as the text, and so it is by readers for
which digits after a leading zero are a number. -/
def readsAsText (cs : List Char) : Bool :=
  !Scalar.isZeroLed cs && Scalar.plain cs = some (.str (String.ofList cs))

/-! ### The choice -/

def ofText (cs : List Char) : Style :=
  if cs.contains '\n' then (if literalHolds cs then .literal else .double)
  else if readsAsText cs && plainHolds cs then .plain
  else if singleHolds cs then .single
  else .double

end Style

end NoteForms.Yaml
