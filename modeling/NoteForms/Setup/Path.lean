/-! Paths in a vault: names joined by slashes. A dot in front stands for the root
and is stripped once; nothing else is resolved. -/

namespace NoteForms.Setup

/-- Strips one dot in front, with the slash after it if there is one. -/
def normalizeChars : List Char → List Char
  | '.' :: '/' :: cs => cs
  | '.' :: cs => cs
  | cs => cs

def normalizePath (path : String) : String := String.ofList (normalizeChars path.toList)

/-- The characters after the last one that is `c`; none when there is no `c`. -/
def afterLast? (c : Char) (cs : List Char) : Option (List Char) :=
  if cs.contains c then some (cs.reverse.takeWhile (· ≠ c)).reverse else none

/-- What stands after the last dot of the last name, when it is not empty. -/
def extension? (path : String) : Option String :=
  let name := (afterLast? '/' path.toList).getD path.toList
  match afterLast? '.' name with
  | none | some [] => none
  | some cs => some (String.ofList cs)

/-- A file whose whole text is a JSON value. -/
def isJsonPath (path : String) : Bool := ".json".toList.isSuffixOf path.toList

end NoteForms.Setup
