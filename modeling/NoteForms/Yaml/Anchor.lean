import NoteForms.Yaml.Node

/-! What the aliases of a document refer to. Every anchored node gets a number,
and an alias becomes the number its name has where it stands. -/

namespace NoteForms.Yaml

/-! ### Numbers for names -/

/-- The numbers of the names met so far, the latest first. A node takes for its
number how many different names were met before it. So the first anchor of a new
name shares its number with the latest of a name that was given again. -/
structure Names where
  numbers : List (Node.Name × Nat) := []
  known : Nat := 0

namespace Names

def add (s : Names) (name : Node.Name) : Names :=
  ⟨(name, s.known) :: s.numbers,
    if (s.numbers.lookup name).isSome then s.known else s.known + 1⟩

def number (s : Names) (props : Properties Node.Name) : Properties Nat × Names :=
  match props.anchor with
  | none => (⟨none, props.tag⟩, s)
  | some name => (⟨some s.known, props.tag⟩, s.add name)

end Names

namespace Node

mutual

/-- Numbers the anchors in the order in which their nodes start; an alias of an
unknown name is a fault. -/
def numbered : Node Name → Names → Option (Node Nat × Names)
  | .alias name, s => (s.numbers.lookup name).map fun n => (.alias n, s)
  | .scalar props plain text, s =>
    let (props, s) := s.number props
    some (.scalar props plain text, s)
  | .sequence props items, s => do
    let (props, s) := s.number props
    let (items, s) ← numberedItems items s
    return (.sequence props items, s)
  | .mapping props entries, s => do
    let (props, s) := s.number props
    let (entries, s) ← numberedEntries entries s
    return (.mapping props entries, s)

def numberedItems : List (Node Name) → Names → Option (List (Node Nat) × Names)
  | [], s => some ([], s)
  | v :: vs, s => do
    let (v, s) ← numbered v s
    let (vs, s) ← numberedItems vs s
    return (v :: vs, s)

def numberedEntries :
    List (Node Name × Node Name) → Names → Option (List (Node Nat × Node Nat) × Names)
  | [], s => some ([], s)
  | (k, v) :: es, s => do
    let (k, s) ← numbered k s
    let (v, s) ← numbered v s
    let (es, s) ← numberedEntries es s
    return ((k, v) :: es, s)

end

/-! ### Anchored nodes -/

/-- The entry of a node in the list of anchored nodes. -/
def Properties.entry (props : Properties Nat) (v : Node Nat) : List (Nat × Node Nat) :=
  match props.anchor with
  | none => []
  | some n => [(n, v)]

mutual

/-- The anchored nodes of a tree, in front of others, so that of those with one
number the one that starts last comes first. -/
def anchored : Node Nat → List (Nat × Node Nat) → List (Nat × Node Nat)
  | .alias _, later => later
  | .scalar props plain text, later => Properties.entry props (.scalar props plain text) ++ later
  | .sequence props items, later =>
    anchoredItems items (Properties.entry props (.sequence props items) ++ later)
  | .mapping props entries, later =>
    anchoredEntries entries (Properties.entry props (.mapping props entries) ++ later)

def anchoredItems : List (Node Nat) → List (Nat × Node Nat) → List (Nat × Node Nat)
  | [], later => later
  | v :: vs, later => anchoredItems vs (anchored v later)

def anchoredEntries : List (Node Nat × Node Nat) → List (Nat × Node Nat) → List (Nat × Node Nat)
  | [], later => later
  | (k, v) :: es, later => anchoredEntries es (anchored v (anchored k later))

end

mutual

/-- Scalars and aliases, and the starts and ends of collections. -/
def size {α : Type} : Node α → Nat
  | .alias _ => 1
  | .scalar _ _ _ => 1
  | .sequence _ items => 2 + itemsSize items
  | .mapping _ entries => 2 + entriesSize entries

def itemsSize {α : Type} : List (Node α) → Nat
  | [] => 0
  | v :: vs => size v + itemsSize vs

def entriesSize {α : Type} : List (Node α × Node α) → Nat
  | [] => 0
  | (k, v) :: es => size k + size v + entriesSize es

end

end Node

end NoteForms.Yaml
