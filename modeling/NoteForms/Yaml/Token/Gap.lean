import NoteForms.Yaml.Cursor

/-! Blanks and breaks between the words of a scalar. On one line the blanks stand
for themselves; over several lines a single line feed stands for a space and the
blanks around breaks for nothing. -/

namespace NoteForms.Yaml

structure Gap where
  /-- The blanks, as long as no break is met. -/
  blanks : List Char := []
  broken : Bool := false
  /-- The text of the first break. -/
  first : List Char := []
  /-- The texts of the further breaks. -/
  more : List Char := []

namespace Gap

/-- What the gap stands for. -/
def text (g : Gap) : List Char :=
  if g.broken then
    if g.first = ['\n'] then (if g.more = [] then [' '] else g.more) else g.first ++ g.more
  else g.blanks

def addBreak (g : Gap) (b : List Char) : Gap :=
  if g.broken then { g with more := g.more ++ b } else ⟨[], true, b, []⟩

def addBlank (g : Gap) (d : Char) : Gap :=
  if g.broken then g else { g with blanks := g.blanks ++ [d] }

/-- The blanks and breaks at a place, added to a gap. A tab may not stand where a
later line must be indented, before column `tabFrom`. -/
def scan (tabFrom : Nat) : Nat → Gap → Cursor → Option (Gap × Cursor)
  | 0, g, c => some (g, c)
  | fuel + 1, g, c =>
    match c.rest with
    | [] => some (g, c)
    | d :: _ =>
      if isBlank d then
        if g.broken ∧ d = '\t' ∧ c.column < tabFrom then none
        else scan tabFrom fuel (g.addBlank d) (c.skip 1)
      else if isBreak d then scan tabFrom fuel (g.addBreak c.breakText) c.skipBreak
      else some (g, c)

end Gap

end NoteForms.Yaml
