/-! Classes of characters in a YAML text. Five characters break a line, two are
blank, and not every character may stand in a text or be written as itself. -/

namespace NoteForms.Yaml

def isBreak (c : Char) : Bool :=
  c = '\n' || c = '\r' || c = '\x85' || c = '\u2028' || c = '\u2029'

def isBlank (c : Char) : Bool := c = ' ' || c = '\t'

/-- A blank or a break. -/
def isSpace (c : Char) : Bool := isBlank c || isBreak c

/-- Characters of anchors, directive names and tag handles. -/
def isWordChar (c : Char) : Bool := c.isAlphanum || c = '_' || c = '-'

/-- Characters that stand for themselves in every place of a flow collection. -/
def isFlowIndicator (c : Char) : Bool :=
  c = ',' || c = '[' || c = ']' || c = '\x7b' || c = '\x7d'

/-- Characters that no plain scalar starts with. The dash, the question mark and
the colon are set apart: what follows them decides. -/
def isIndicator (c : Char) : Bool :=
  isFlowIndicator c || c = '#' || c = '&' || c = '*' || c = '!' || c = '|' || c = '>' ||
    c = '\x27' || c = '\x22' || c = '%' || c = '@' || c = '\x60'

/-- Characters that may stand in a text. -/
def isAllowed (c : Char) : Bool :=
  let n := c.toNat
  c = '\t' || c = '\n' || c = '\r' || c = '\x85' || (0x20 ≤ n && n ≤ 0x7E) ||
    (0xA0 ≤ n && n ≤ 0xD7FF) || (0xE000 ≤ n && n ≤ 0xFFFD) || 0x10000 ≤ n

/-- Characters that are written as themselves. -/
def isPrintable (c : Char) : Bool :=
  let n := c.toNat
  c = '\n' || (0x20 ≤ n && n ≤ 0x7E) || (0xA0 ≤ n && n ≤ 0xD7FF) ||
    (0xE000 ≤ n && n ≤ 0xFFFD && n ≠ 0xFEFF) || 0x10000 ≤ n

/-- The first character, if any, is a blank or a break. -/
def spaceNext : List Char → Bool
  | [] => true
  | c :: _ => isSpace c

/-- The first character, if any, is a break. -/
def breakNext : List Char → Bool
  | [] => true
  | c :: _ => isBreak c

end NoteForms.Yaml
