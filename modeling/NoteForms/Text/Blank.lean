/-! Blank text. A character is blank when it has the property White_Space of the
Unicode standard. -/

namespace NoteForms.Text

/-- The ranges of White_Space, ends included. -/
def blankRanges : List (Nat × Nat) :=
  [(0x9, 0xD), (0x20, 0x20), (0x85, 0x85), (0xA0, 0xA0), (0x1680, 0x1680), (0x2000, 0x200A),
    (0x2028, 0x2029), (0x202F, 0x202F), (0x205F, 0x205F), (0x3000, 0x3000)]

def isBlankChar (c : Char) : Bool := blankRanges.any fun (a, b) => a ≤ c.toNat && c.toNat ≤ b

def isBlank (cs : List Char) : Bool := cs.all isBlankChar

end NoteForms.Text
